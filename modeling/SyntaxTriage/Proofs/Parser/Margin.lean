import SyntaxTriage.Proofs.Parser.Writing

/-!
Going on at the margin. Where no level but the margin is open, what was read last goes on with a
text, unless an indented block has to come. Within a line no block begins and none ends, so the
input can only end too early there if it ends at the margin.
-/

namespace SyntaxTriage

open Grammar

-- the tables are large, and nothing here should compute them
attribute [local irreducible] Lookahead.states Lookahead.sets Parser.Stack.settle

namespace Parser

/-- An indentation can be read where a level cannot be closed because nothing else may come. -/
theorem Stack.Built.canRead_indent {s t : Stack} {k : Lexeme Terminal} {ls : List (Lexeme Terminal)}
    (h : s.Built) (hls : ∀ l ∈ ls, l.kind = .dedent)
    (hfeed : Parser.feedAll s ls = .error (rejectionOf t k))
    (hkind : k.kind = .endOfInput ∨ k.kind = .dedent ∧ t.reported = [.indent]) :
    s.state.canRead (.terminal .indent) = true := by
  induction ls generalizing s with
  | nil => cases hfeed
  | cons l ls ih =>
      obtain ⟨hl, hrest⟩ := List.forall_mem_cons.mp hls
      cases hs : s.feed l with
      | error t' =>
          rw [feedAll_cons_of_error ls hs] at hfeed
          have hsame := Except.error.inj hfeed
          have hkinds := kind_of_rejectionOf_eq hsame
          obtain ⟨-, hreported⟩ := hkind.resolve_left fun hend => by
            rw [← hkinds, hl] at hend
            cases hend
          have hincomplete := (isIncomplete_rejectionOf t k).mpr (.inr (.inr hreported))
          rw [← hsame, isIncomplete_rejectionOf, hl, feed_eq_error hs, hl] at hincomplete
          have hindent : (s.settle .dedent).reported = [.indent] := by
            rcases hincomplete with hend | ⟨hindent, -⟩ | hindent
            · cases hend
            · cases hindent
            · exact hindent
          rw [Stack.settle_eq_of_reported h hindent] at hindent
          refine canRead_of_indent_mem_candidates (Stack.mem_candidates_of_mem_reported ?_)
          rw [hindent]
          exact List.mem_singleton_self _
      | ok s' =>
          rw [feedAll_cons_of_ok ls hs] at hfeed
          have hbuilt := h.feed hs
          have htop := hbuilt.top?_of_canRead_indent (ih hbuilt hrest hfeed)
          obtain ⟨-, rfl⟩ := Stack.feed_eq_ok_iff.mp hs
          have hnewline : l.kind = .newline := Symbol.terminal.inj (Option.some.inj htop)
          rw [hl] at hnewline
          cases hnewline

section

variable {p : Progress} {d : Lexer.Cursor} {l k : Lexeme Terminal} {s : Stack}
  {word : List Terminal} {text : List Char}

/-! ### Other texts -/

theorem Progress.Ready.at (h : p.Ready) (c : Lexer.Cursor) : ({ p with cursor := c }).Ready :=
  ⟨h.live, h.brackets, h.blocks, h.margin, h.falls, h.indents, h.level, h.top⟩

/-- What is skipped does not matter. -/
theorem Runs.of_skipsTo {ls : List (Lexeme Terminal)} {result : Except Stop Tree}
    (h : Runs { p with cursor := d } ls result)
    (skips : Lexer.SkipsTo (candidates p.stack.state ∪ Lexer.always) p.cursor d) :
    Runs p ls result := by
  have hnext : Lexer.next (candidates p.stack.state) p.cursor =
      Lexer.next (candidates p.stack.state) d :=
    Lexer.next_eq_iff.mpr (skips.finds (Lexer.next_eq_iff.mp rfl))
  generalize hq : ({ p with cursor := d } : Progress) = q at h
  cases h with
  | finished found =>
      subst hq
      exact .finished (hnext.trans found)
  | step first rest =>
      subst hq
      obtain ⟨behind, found, hread⟩ := first
      exact .step ⟨behind, hnext.trans found, hread⟩ rest
  | stopped found refused =>
      subst hq
      exact .stopped (hnext.trans found) refused
  | misplaced found =>
      subst hq
      exact .misplaced (hnext.trans found)
  | unreadable found =>
      subst hq
      exact .unreadable (hnext.trans found)

/-! ### At the margin -/

theorem Progress.Ready.stands_margin (h : p.Ready) (hmargin : p.layout.levels.head? = some 0) :
    p.layout.Stands tabSize [[]] := by
  obtain ⟨outer, hlevels⟩ := List.head?_eq_some_iff.mp hmargin
  have hfalls := h.falls
  rw [hlevels] at hfalls
  obtain rfl : outer = [] := List.eq_nil_iff_forall_not_mem.mpr fun level hlevel =>
    Nat.not_lt_zero level ((List.pairwise_cons.mp hfalls).1 level hlevel)
  refine Layout.stands_margin hlevels ?_
  have hlevel := h.level
  rw [Layout.top, hlevels, List.headD_cons, Layout.level] at hlevel
  refine List.eq_nil_iff_forall_not_mem.mpr fun c hc => ?_
  have hcount := List.count_pos_iff.mpr hc
  have hindent := h.indents c hc
  unfold Layout.isIndentChar at hindent
  have htab : 0 < tabSize := by decide
  rcases Bool.or_eq_true_iff.mp hindent with hblank | hblank
  · rw [of_decide_eq_true hblank] at hcount
    omega
  · rw [of_decide_eq_true hblank] at hcount
    have hpos := Nat.mul_pos htab hcount
    omega

/-- At the margin no block ends. -/
theorem Progress.Ready.ne_dedent (h : p.Ready) (hmargin : p.layout.levels.head? = some 0)
    (hfeed : p.stack.feed l = .ok s) : l.kind ≠ .dedent := by
  intro hl
  have hnonneg := (h.live.feed hfeed).openBlocks_nonneg
  have hblocks := h.blocks
  rw [(h.stands_margin hmargin).levels] at hblocks
  rw [h.live.built.openBlocks_feed hfeed, hl] at hnonneg
  have hone : openBlocks p.stack.symbols + 1 = 1 := hblocks
  have hminus : 0 ≤ openBlocks p.stack.symbols + -1 := hnonneg
  omega

/-- What was read last goes on with a word. -/
theorem Progress.Ready.exists_word (h : p.Ready) (hne : p.stack.frames ≠ []) :
    ∃ t word, p.stack.top? = some (.terminal t) ∧ p.stack.Accepts word ∧
      (∀ u ∈ word, isSpelled u = true) ∧ LaysOut (t :: word) := by
  obtain ⟨f, below, hframes⟩ := List.exists_cons_of_ne_nil hne
  have hhead : p.stack.top? = some f.symbol := by
    rw [Stack.top?, hframes]
    rfl
  obtain ⟨t, ht⟩ := h.top f.symbol hhead
  have hlive := @Stack.Live.below _ [f] below h.live hframes
  have hread := h.live.read f below (by rw [hframes])
  rw [ht] at hread
  obtain ⟨word, haccepts, hspelled, hlays⟩ := Stack.exists_accepts hlive hread
  refine ⟨t, word, hhead.trans (congrArg some ht), ?_, hspelled, hlays⟩
  have hbuilt : IsPath p.stack.entry (f :: below) := hframes ▸ h.live.built
  cases hbuilt with
  | cons step leaf _ =>
      obtain ⟨l, rfl, htrees⟩ := leaf t ht
      have hstack : p.stack =
          (Stack.mk p.stack.entry below).push (.terminal l.kind) [.leaf l] := by
        rw [ht] at step
        obtain ⟨x, state, trees⟩ := f
        obtain rfl : x = _ := ht
        obtain rfl : state = _ := step
        obtain rfl : trees = _ := htrees
        rw [Stack.push, ← hframes]
      rw [hstack]
      exact haccepts l rfl

/-- At the margin what was read last goes on with a text, unless an indented block has to come. -/
theorem Progress.Ready.exists_writes (h : p.Ready) (hne : p.stack.frames ≠ [])
    (hmargin : p.layout.levels.head? = some 0)
    (hindent : p.stack.state.canRead (.terminal .indent) = false) :
    ∃ t word text, p.stack.top? = some (.terminal t) ∧ LaysOut (t :: word) ∧
      p.stack.Accepts word ∧ (∀ u ∈ word.head?, u ≠ .indent ∧ u ≠ .dedent) ∧
        Writes [[]] word text := by
  obtain ⟨t, word, htop, haccepts, hspelled, hlays⟩ := h.exists_word hne
  have hfirst (u : Terminal) (hu : u ∈ word.head?) : u ≠ .indent ∧ u ≠ .dedent := by
    obtain ⟨more, rfl⟩ := List.head?_eq_some_iff.mp hu
    obtain ⟨s, hfeed, -⟩ := haccepts (.unplaced u "") rfl
    refine ⟨?_, h.ne_dedent hmargin hfeed⟩
    rintro rfl
    rw [Stack.feed_indent rfl hindent] at hfeed
    cases hfeed
  obtain ⟨text, hwrites⟩ := Parser.exists_writes [[]] hspelled hlays.of_cons.1 hfirst
  exact ⟨t, word, text, htop, hlays, haccepts, hfirst, hwrites⟩

/-! ### Within a line -/

/-- The place is inside brackets, or behind something that belongs to the line. -/
def Progress.WithinLine (p : Progress) : Prop :=
  0 < p.layout.brackets ∨ ∃ t, p.stack.top? = some (.terminal t) ∧ isLayout t = false

theorem Progress.Ready.frames_ne_nil (h : p.Ready) (hline : p.WithinLine) :
    p.stack.frames ≠ [] := by
  intro hnil
  rcases hline with hinside | ⟨t, htop, -⟩
  · have hbrackets := h.brackets
    rw [Stack.symbols, hnil] at hbrackets
    have hnone : 0 = p.layout.brackets := Option.some.inj hbrackets
    omega
  · rw [Stack.top?, hnil] at htop
    cases htop

/-- Inside brackets no line ends. -/
theorem Progress.Ready.not_isLayout (h : p.Ready) (hinside : 0 < p.layout.brackets)
    (hfeed : p.stack.feed l = .ok s) : isLayout l.kind = false := by
  rw [← Bool.not_eq_true]
  intro hlayout
  have houtside := h.live.openBrackets_of_feed hfeed hlayout
  rw [h.brackets, Option.some.injEq] at houtside
  omega

/-- Within a line no block begins. -/
theorem Progress.Ready.not_canRead_indent (h : p.Ready) (hline : p.WithinLine) :
    p.stack.state.canRead (.terminal .indent) = false := by
  rw [← Bool.not_eq_true]
  intro hread
  rcases hline with hinside | ⟨t, htop, ht⟩
  · have houtside := h.live.openBrackets_of_canRead hread rfl
    rw [h.brackets, Option.some.injEq] at houtside
    omega
  · rw [h.live.built.top?_of_canRead_indent hread] at htop
    cases htop
    cases ht

/-- Within a line no block ends. -/
theorem Progress.Ready.ne_dedent_of_withinLine (h : p.Ready) (hline : p.WithinLine)
    (hfeed : p.stack.feed l = .ok s) : l.kind ≠ .dedent := by
  intro hl
  rcases hline with hinside | ⟨t, htop, ht⟩
  · have hlayout := h.not_isLayout hinside hfeed
    rw [hl] at hlayout
    cases hlayout
  · rw [h.live.isLayout_of_feed_dedent hfeed hl htop] at ht
    cases ht

/-- Within a line the end comes too early only at the margin. -/
theorem Progress.Ready.margin_of_finish (h : p.Ready) (hline : p.WithinLine)
    (hfinish : p.finish = .error (.rejected (rejectionOf s k)))
    (hkind : k.kind = .endOfInput ∨ k.kind = .dedent ∧ s.reported = [.indent]) :
    p.layout.levels.head? = some 0 := by
  have hnone : p.layout.finish p.lastRead = [] := by
    have hdedents (d : Lexeme Terminal) (hd : d ∈ p.layout.finish p.lastRead) :
        d.kind = .dedent := kind_of_mem_finish hd
    rcases finish_cases p with ⟨rejection, hfeed, hp⟩ | ⟨stack, hfeed, -⟩
    · -- a level that cannot be closed here could be opened instead
      cases hp.symm.trans hfinish
      have hread := h.live.built.canRead_indent hdedents hfeed hkind
      rw [h.not_canRead_indent hline] at hread
      cases hread
    · cases hfinish : p.layout.finish p.lastRead with
      | nil => rfl
      | cons d dedents =>
          rw [hfinish] at hfeed hdedents
          obtain ⟨t, ht, -⟩ := feedAll_cons_eq_ok hfeed
          exact absurd (hdedents d List.mem_cons_self) (h.ne_dedent_of_withinLine hline ht)
  have hlevels : p.layout.levels.dropLast = [] := List.map_eq_nil_iff.mp hnone
  have hlast := Layout.getLast?_levels h.falls h.margin
  obtain ⟨inner, hsplit⟩ := List.getLast?_eq_some_iff.mp hlast
  rw [hsplit, List.dropLast_concat] at hlevels
  rw [hsplit, hlevels]
  rfl

end

end Parser

end SyntaxTriage
