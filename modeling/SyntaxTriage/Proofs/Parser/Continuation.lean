import SyntaxTriage.Proofs.Lexer.Joining
import SyntaxTriage.Proofs.Parser.Margin

/-!
Runs that are completed. A run that is refused at the end of whole lines has read everything but the
line break that ends them, or this one too, and goes on from there with a text that the parser can
read to its end. If an indented block has to come, the next line is indented. Otherwise all levels
have been closed, and what comes next is joined to the margin.

The last line must hold more than what joins it to the next one: the lexer leaves that out, and
then no line break is left that the next indentation could belong to.
-/

namespace SyntaxTriage

open Grammar

-- the tables are large, and nothing here should compute them
attribute [local irreducible] Lookahead.states Lookahead.sets Parser.Stack.settle

namespace Parser

/-- Where everything is read, no string is left open. -/
theorem ReadsAll.not_atOpenString {p : Progress} (h : ReadsAll p) : ¬AtOpenString p := by
  rintro ⟨c, skips, opens⟩
  obtain ⟨word, q, rest, htriple, hlong⟩ := opens.exists_triple
  have hunreadable {p : Progress} {c : Char} {location : Location} (h : ReadsAll p)
      (hnext : Lexer.next (candidates p.stack.state) p.cursor = .unreadable c location) : False := by
    cases h with
    | finished found | lineEnd found =>
        rw [hnext] at found
        cases found
    | step first =>
        obtain ⟨behind, hfirst, -⟩ := first
        rw [hnext] at hfirst
        cases hfirst
  by_cases hword : word = []
  · subst hword
    exact hunreadable h (Lexer.next_eq_iff.mpr (skips.finds (htriple.finds_unreadable hlong _)))
  by_cases hidentifier : Terminal.identifier ∈ candidates p.stack.state ∪ Lexer.always
  · have hletters := Lexer.next_eq_iff.mpr
      (skips.finds (htriple.finds_letters hlong hword hidentifier))
    cases h with
    | finished found =>
        rw [hletters] at found
        cases found
    | lineEnd found kind =>
        rw [hletters] at found
        cases found
        cases kind
    | @step _ q _ first rest =>
        obtain ⟨behind, hfirst, hread⟩ := first
        rw [hletters] at hfirst
        cases hfirst
        obtain ⟨c, location, hbehind⟩ :=
          htriple.behind_unreadable hlong (candidates q.stack.state ∪ Lexer.always)
        rw [← cursor_of_read hread] at hbehind
        exact hunreadable rest (Lexer.next_eq_iff.mpr hbehind)
  · have hmisplaced := Lexer.next_eq_iff.mpr
      (skips.finds (htriple.finds_misplaced hlong hword hidentifier))
    cases h with
    | finished found | lineEnd found =>
        rw [hmisplaced] at found
        cases found
    | step first =>
        obtain ⟨behind, hfirst, -⟩ := first
        rw [hmisplaced] at hfirst
        cases hfirst

section

variable {p q : Progress} {d : Lexer.Cursor} {l k : Lexeme Terminal} {s : Stack}
  {word : List Terminal} {text : List Char}

/-! ### At the end of the lines -/

/-- The text that a word is written with is read behind what is skipped. -/
theorem Writes.readsThrough (h : Writes [[]] word text) (hp : p.Ready)
    (hmargin : p.layout.levels.head? = some 0) (haccepts : p.stack.Accepts word)
    (hlines : Lexer.Lines p.cursor.rest)
    (skips : Lexer.SkipsTo (candidates p.stack.state ∪ Lexer.always) p.cursor d)
    (hd : d.rest = []) : (p.extend text).ReadsThrough := by
  obtain ⟨ls, tree, hruns, hstrings⟩ := h.reads _ (hp.at (d.extend text))
    (by rw [Lexer.Cursor.extend, hd]; rfl) (hp.stands_margin hmargin) haccepts
  exact ⟨ls, tree, hruns.of_skipsTo (p := p.extend text) (skips.extend hlines text), hstrings⟩

/-- In front of the line break that ends the lines, perhaps over what is skipped. -/
structure Progress.AtLineEnd (p : Progress) (d : Lexer.Cursor) : Prop where
  lines : Lexer.WholeLines p.cursor.rest
  skips : Lexer.SkipsTo (candidates p.stack.state ∪ Lexer.always) p.cursor d
  whole : Lexer.WholeLines d.rest
  closed : ¬Lexer.OpensLong d.rest
  first : Lexer.first? (candidates p.stack.state ∪ Lexer.always) d.rest =
    some (.newline, d.rest.length)

/-- The line break at the end with the blanks behind it. -/
def lineBreak (d : Lexer.Cursor) (blanks : List Char) : Lexeme Terminal × Lexer.Cursor :=
  (d.extend blanks).take .newline (d.rest ++ blanks).length

theorem lineBreak_nil (d : Lexer.Cursor) : lineBreak d [] = d.take .newline d.rest.length := by
  have hd : d.extend [] = d := by rw [Lexer.Cursor.extend, List.append_nil]
  rw [lineBreak, hd, List.append_nil]

theorem text_lineBreak (d : Lexer.Cursor) (blanks : List Char) :
    (lineBreak d blanks).1.text.toList = d.rest ++ blanks := by
  show (String.ofList ((d.rest ++ blanks).take _)).toList = _
  rw [List.take_length, String.toList_ofList]

theorem rest_lineBreak (d : Lexer.Cursor) (blanks : List Char) :
    (lineBreak d blanks).2.rest = [] := by
  show (d.rest ++ blanks).drop _ = []
  exact List.drop_length

theorem Progress.AtLineEnd.next_extend {blanks : List Char} (h : p.AtLineEnd d)
    (htext : Lexer.JoinsOn text) (hblanks : ∀ c ∈ blanks, Layout.isIndentChar c = true) :
    Lexer.next (candidates p.stack.state) (p.cursor.extend (blanks ++ text)) =
      .lexeme (lineBreak d blanks).1 ((lineBreak d blanks).2.extend text) := by
  obtain ⟨hnext, -⟩ := Lexer.next_newline htext h.whole h.closed hblanks h.first
    (h.skips.extend (.inr h.lines) (blanks ++ text)) rfl
  have hextend : d.extend (blanks ++ text) = (d.extend blanks).extend text := by
    rw [Lexer.Cursor.extend, Lexer.Cursor.extend, Lexer.Cursor.extend, List.append_assoc]
  have htake : ((d.extend blanks).extend text).take .newline (d.rest ++ blanks).length =
      ((lineBreak d blanks).1, (lineBreak d blanks).2.extend text) :=
    Lexer.Cursor.take_extend (Nat.le_refl _) .newline text
  rw [hnext, hextend, htake]

theorem Progress.AtLineEnd.steps_extend {blanks : List Char} (h : p.AtLineEnd d)
    (htext : Lexer.JoinsOn text) (hblanks : ∀ c ∈ blanks, Layout.isIndentChar c = true)
    (hread : p.read (lineBreak d blanks).1 (lineBreak d blanks).2 = .ok q) :
    Steps (p.extend (blanks ++ text)) (lineBreak d blanks).1 (q.extend text) ∧
      (q.extend text).cursor.rest = text := by
  refine ⟨⟨_, h.next_extend htext hblanks, ?_⟩, ?_⟩
  · show (p.extend text).read _ _ = _
    rw [read_extend, hread]
    rfl
  · show q.cursor.rest ++ text = text
    rw [cursor_of_read hread, rest_lineBreak]
    rfl

theorem ReadsAll.exists_atLineEnd {behind : Lexer.Cursor} (h : ReadsAll p)
    (hlines : Lexer.WholeLines p.cursor.rest)
    (hnext : Lexer.next (candidates p.stack.state) p.cursor = .lexeme l behind)
    (hlast : behind.rest = []) : ∃ d, p.AtLineEnd d ∧ lineBreak d [] = (l, behind) := by
  obtain ⟨-, d, skips, hd, hfirst, htake⟩ :=
    (Lexer.next_eq_iff.mp hnext).exists_lineEnd hlines hlast
  refine ⟨d, ⟨hlines, skips, hd, fun hopens => ?_, hfirst⟩, (lineBreak_nil d).trans htake⟩
  exact h.not_atOpenString ⟨d, skips, hopens⟩

/-- At the margin behind the line break there is a text to go on with, unless an indented block has
to come. -/
theorem Progress.AtLineEnd.exists_readsThrough (h : p.AtLineEnd d) (hq : q.Ready)
    (hread : p.read (lineBreak d []).1 (lineBreak d []).2 = .ok q)
    (hmargin : q.layout.levels.head? = some 0)
    (hindent : q.stack.state.canRead (.terminal .indent) = false)
    (hends : 0 < q.layout.brackets ∨
      ∃ t, q.stack.top? = some (.terminal t) ∧ (t = .newline ∨ t = .dedent)) :
    ∃ b, Lexer.Lines b ∧ (p.extend b).ReadsThrough := by
  have hne : q.stack.frames ≠ [] := by
    rcases hends with hinside | ⟨t, htop, -⟩
    · exact hq.frames_ne_nil (.inl hinside)
    · intro hnil
      rw [Stack.top?, hnil] at htop
      cases htop
  obtain ⟨t, word, text, htop, hlays, haccepts, hfirst, hwrites⟩ :=
    hq.exists_writes hne hmargin hindent
  have hplain (u : Terminal) (hu : u ∈ word.head?) : isLayout u = false := by
    obtain ⟨more, rfl⟩ := List.head?_eq_some_iff.mp hu
    rcases hends with hinside | ⟨t', htop', ht⟩
    · obtain ⟨s, hfeed, -⟩ := haccepts (.unplaced u "") rfl
      exact hq.not_isLayout hinside hfeed
    · cases htop.symm.trans htop'
      have hjoins : Joins t u := hlays.of_cons.2
      obtain ⟨hindent, hdedent⟩ := hfirst u rfl
      have hnewline : u ≠ .newline := by
        rintro rfl
        rcases ht with rfl | rfl <;> exact absurd hjoins (by decide)
      simp [isLayout, hnewline, hindent, hdedent]
  obtain ⟨hstep, -⟩ := h.steps_extend (hwrites.begins.joinsOn hplain) (by simp) hread
  have hcursor : q.cursor.rest = [] := by rw [cursor_of_read hread, rest_lineBreak]
  exact ⟨text, hwrites.whole,
    (hwrites.readsThrough hq hmargin haccepts (.inl hcursor) .here hcursor).of_step hstep rfl⟩

/-- An indented line is read behind the line break, and then a word is accepted. -/
theorem Progress.Ready.exists_read_deeper (h : p.Ready) (houtside : p.layout.brackets = 0)
    (hl : l.kind = .newline) (hfeed : p.stack.feed l = .ok s)
    (hindent : s.state.canRead (.terminal .indent) = true)
    (hline : Layout.LeadsTo l p.layout.deeperLine) (behind : Lexer.Cursor) :
    ∃ q word, p.read l behind = .ok q ∧ q.layout.Stands tabSize
        (p.layout.deeperLine :: p.layout.levels.map (List.replicate · ' ')) ∧
      q.stack.Accepts word ∧ (∀ t ∈ word, isSpelled t = true) ∧ LaysOut (.indent :: word) := by
  have htab : 0 < tabSize := by decide
  obtain ⟨text, layout, hread, hstands⟩ := Layout.exists_stands htab
    (Layout.role_eq_newline_iff.mpr hl) houtside h.margin h.falls h.indents hline
  obtain ⟨word, haccepts, hspelled, hlays⟩ := Stack.exists_accepts (h.live.feed hfeed) hindent
  refine ⟨⟨behind, layout, some l, _, _⟩, word, read_eq_ok_iff.mpr ⟨_, layout, ?_, ?_, rfl⟩,
    hstands, haccepts (l.borrow .indent text) rfl, hspelled, hlays⟩
  · rw [hread]
    exact (feedAll_cons_of_ok _ hfeed).trans
      (feedAll_cons_of_ok [] (Stack.feed_of_canRead (l := l.borrow .indent text) hindent))
  · rw [hread]

/-- Where an indented block has to come there is a block to go on with. -/
theorem Progress.AtLineEnd.exists_block (h : p.AtLineEnd d) (hp : p.Ready)
    (houtside : p.layout.brackets = 0) (hl : l.kind = .newline) (hfeed : p.stack.feed l = .ok s)
    (hindent : s.state.canRead (.terminal .indent) = true) :
    ∃ b, Lexer.Lines b ∧ (p.extend b).ReadsThrough := by
  let line := p.layout.deeperLine
  have hindents : ∀ c ∈ line, Layout.isIndentChar c = true := Layout.indents_deeperLine hp.indents
  have hleads := Layout.leadsTo_of_wholeLines h.whole hindents (text_lineBreak d line)
  -- what can be read behind a line break does not depend on its text
  obtain ⟨hread, rfl⟩ := Stack.feed_eq_ok_iff.mp hfeed
  rw [hl] at hread hindent
  obtain ⟨q, word, hq, hstands, haccepts, hspelled, hlays⟩ := hp.exists_read_deeper houtside rfl
    (Stack.feed_eq_ok_iff.mpr ⟨hread, rfl⟩) hindent hleads (lineBreak d line).2
  obtain ⟨hne, hplain⟩ := hlays.of_indent
  obtain ⟨text, hwrites⟩ :=
    @Parser.exists_writes word (line :: p.layout.levels.map (List.replicate · ' '))
      hspelled hlays.of_cons.1 fun u hu => ne_of_isLayout_eq_false (hplain u hu)
  have htext : Lexer.WholeLines text := hwrites.whole.wholeLines (hwrites.begins.ne_nil hne)
  obtain ⟨hstep, hrest⟩ := h.steps_extend (hwrites.begins.joinsOn hplain) hindents hq
  exact ⟨line ++ text, .inr (htext.append_left line),
    (hwrites.reads _ ((hp.at _).step hstep) hrest hstands haccepts).of_step hstep rfl⟩

/-! ### Ends of runs -/

/-- A line break inside brackets is read, and nothing comes of it. -/
theorem Progress.read_inside (hl : l.kind = .newline) (hinside : 0 < p.layout.brackets)
    (behind : Lexer.Cursor) :
    p.read l behind = .ok ⟨behind, p.layout, some l, p.stack, p.lastFed⟩ := by
  have hread : p.layout.read tabSize l = ⟨[], .ok p.layout⟩ := by
    rw [Layout.read_newline (Layout.role_eq_newline_iff.mpr hl), Layout.readNewline, if_pos hinside]
  exact read_eq_ok_iff.mpr ⟨p.stack, p.layout, by rw [hread]; rfl, by rw [hread], by rw [hread]; rfl⟩

theorem Runs.finish_eq {ls : List (Lexeme Terminal)} {result : Except Stop Tree}
    (h : Runs p ls result) (hrest : p.cursor.rest = []) : ls = [] ∧ result = p.finish :=
  h.continues (Lexer.next_eq_iff.mpr (.finished hrest))

/-- What stops a run at the line break that ends the lines: the end of the input behind it, or a
level that cannot be closed because an indented block has to come. -/
theorem Runs.lineEnd_cases {ls : List (Lexeme Terminal)} {behind : Lexer.Cursor}
    (h : Runs p ls (.error (.rejected (rejectionOf s k))))
    (hkind : k.kind = .endOfInput ∨ k.kind = .dedent ∧ s.reported = [.indent]) (hp : p.Ready)
    (hnext : Lexer.next (candidates p.stack.state) p.cursor = .lexeme l behind)
    (hl : l.kind = .newline) (hend : Lexer.WholeLines l.text.toList)
    (houtside : p.layout.brackets = 0) :
    ∃ s', p.stack.feed l = .ok s' ∧ (s'.state.canRead (.terminal .indent) = true ∨
      ∃ q, p.read l behind = .ok q ∧ q.layout.levels.head? = some 0 ∧
        q.stack.state.canRead (.terminal .indent) = false ∧
          ∃ t, q.stack.top? = some (.terminal t) ∧ (t = .newline ∨ t = .dedent)) := by
  obtain ⟨dedents, layout, hread, hdedents, hmargin⟩ := @Layout.read_lineEnd tabSize p.layout l
    (by decide) hl hend hp.margin houtside
  have hrefused {t : Stack} {d : Lexeme Terminal}
      (hfeed : feedAll p.stack (l :: dedents) = .error (rejectionOf t d)) :
      rejectionOf t d = rejectionOf s k := by
    have hstop := read_of_feedAll_error (p := p) (l := l) behind (by rw [hread]; exact hfeed)
    rcases h.continues hnext with ⟨q, _, hq, -⟩ | ⟨stop, hstop', -, hresult⟩
    · cases hstop.symm.trans hq
    · cases hstop.symm.trans hstop'
      exact (Stop.rejected.inj (Except.error.inj hresult)).symm
  cases hfeed : p.stack.feed l with
  | error t =>
      have hsame := kind_of_rejectionOf_eq (hrefused (feedAll_cons_of_error dedents hfeed))
      rw [hl] at hsame
      rcases hkind with hkind | ⟨hkind, -⟩ <;>
        · rw [hkind] at hsame
          cases hsame
  | ok s' =>
      refine ⟨s', rfl, or_iff_not_imp_left.mpr fun hindent => ?_⟩
      rw [Bool.not_eq_true] at hindent
      cases hall : feedAll s' dedents with
      | error rejection =>
          obtain ⟨t, d, -, rfl⟩ := feedAll_eq_error hall
          have hsame := hrefused ((feedAll_cons_of_ok dedents hfeed).trans hall)
          rw [hsame] at hall
          rw [(hp.live.built.feed hfeed).canRead_indent hdedents hall hkind] at hindent
          cases hindent
      | ok stack =>
          refine ⟨_, read_eq_ok_iff.mpr ⟨stack, layout, ?_, by rw [hread], rfl⟩, hmargin, ?_⟩
          · rw [hread]
            exact (feedAll_cons_of_ok dedents hfeed).trans hall
          · rcases top?_feedAll hall with ⟨-, rfl⟩ | ⟨d, hd, htop⟩
            · obtain ⟨-, rfl⟩ := Stack.feed_eq_ok_iff.mp hfeed
              exact ⟨hindent, l.kind, rfl, .inl hl⟩
            · refine ⟨?_, d.kind, htop, .inr (hdedents d hd)⟩
              rw [← Bool.not_eq_true]
              intro hread
              have hlive := (hp.live.feed hfeed).feedAll hall
              rw [hlive.built.top?_of_canRead_indent hread, hdedents d hd] at htop
              cases htop

/-- A run that is refused at the line break that ends the lines can go on. -/
theorem Runs.exists_readsThrough_lineEnd {ls : List (Lexeme Terminal)} {behind : Lexer.Cursor}
    (h : Runs p ls (.error (.rejected (rejectionOf s k))))
    (hkind : k.kind = .endOfInput ∨ k.kind = .dedent ∧ s.reported = [.indent]) (hp : p.Ready)
    (hall : ReadsAll p) (hlines : Lexer.WholeLines p.cursor.rest)
    (hnext : Lexer.next (candidates p.stack.state) p.cursor = .lexeme l behind)
    (hlast : behind.rest = []) : ∃ b, Lexer.Lines b ∧ (p.extend b).ReadsThrough := by
  obtain ⟨d, hd, hbreak⟩ := hall.exists_atLineEnd hlines hnext hlast
  obtain ⟨rfl, rfl⟩ := Prod.ext_iff.mp hbreak
  by_cases hinside : 0 < p.layout.brackets
  · have hread := Progress.read_inside (p := p) (l := (lineBreak d []).1) rfl hinside
      (lineBreak d []).2
    have hq := hp.step ⟨_, hnext, hread⟩
    obtain ⟨q, rest, hread', rfl, hrest⟩ := (h.continues hnext).resolve_right
      fun ⟨stop, hstop, _⟩ => by cases hread.symm.trans hstop
    cases hread.symm.trans hread'
    obtain ⟨-, hfinish⟩ := hrest.finish_eq hlast
    exact hd.exists_readsThrough hq hread (hq.margin_of_finish (.inl hinside) hfinish.symm hkind)
      (hq.not_canRead_indent (.inl hinside)) (.inl hinside)
  · have houtside := Nat.eq_zero_of_not_pos hinside
    have hend : Lexer.WholeLines (lineBreak d []).1.text.toList := by
      rw [text_lineBreak, List.append_nil]
      exact hd.whole
    obtain ⟨s', hfeed, hindent | ⟨q, hread, hmargin, hindent, hends⟩⟩ :=
      h.lineEnd_cases hkind hp hnext rfl hend houtside
    · exact hd.exists_block hp houtside rfl hfeed hindent
    · exact hd.exists_readsThrough (hp.step ⟨_, hnext, hread⟩) hread hmargin hindent (.inr hends)

/-- No string comes with the line break at the end. -/
theorem Runs.filter_isString_of_last {ls : List (Lexeme Terminal)} {result : Except Stop Tree}
    {behind : Lexer.Cursor} (h : Runs p ls result)
    (hnext : Lexer.next (candidates p.stack.state) p.cursor = .lexeme l behind)
    (hl : l.kind = .newline) (hlast : behind.rest = []) : ls.filter Source.isString = [] := by
  rcases h.continues hnext with ⟨q, rest, hq, rfl, hrest⟩ | ⟨_, -, rfl, -⟩
  · obtain ⟨rfl, -⟩ := hrest.finish_eq (by rw [cursor_of_read hq, hlast])
    simp [Source.isString, hl]
  · rfl

/-! ### Joined lines -/

/-- The place is within a line or at the beginning of one, perhaps behind blanks, or a line break
comes next. -/
def Progress.Poised (p : Progress) (before : List Char) : Prop :=
  p.WithinLine ∨ Lexer.EndsBlank before ∨ p.cursor.rest.head? = some '\n'

/-- Every lexeme leads to such a place. -/
theorem Steps.poised (h : Steps p l q) (htaken : Lexer.TakenByKind l q.cursor.rest)
    (hne : q.cursor.rest ≠ []) (before : List Char) : q.Poised (before ++ l.text.toList) := by
  obtain ⟨behind, hnext, hread⟩ := h
  obtain ⟨hindent, hdedent⟩ := Layout.isOwn_of_next hnext
  obtain ⟨stack, layout, hfeed, hlayout, rfl⟩ := read_eq_ok_iff.mp hread
  by_cases hl : l.kind = .newline
  · have hrole := Layout.role_eq_newline_iff.mpr hl
    by_cases hinside : 0 < p.layout.brackets
    · rw [Layout.read_newline hrole] at hlayout
      exact .inl (.inl ((Layout.brackets_readNewline hlayout).symm ▸ hinside))
    · exact .inr (htaken.endsBlank hl hne before)
  · rw [Layout.emitted_of_role_ne fun hrole => hl (Layout.role_eq_newline_iff.mp hrole)] at hfeed
    left
    right
    rcases top?_feedAll hfeed with ⟨hnil, -⟩ | ⟨k, hk, htop⟩
    · cases hnil
    · refine ⟨k.kind, htop, ?_⟩
      rw [List.mem_singleton.mp hk]
      have hindent : l.kind ≠ .indent := of_decide_eq_false hindent
      have hdedent : l.kind ≠ .dedent := of_decide_eq_false hdedent
      simp [isLayout, hl, hindent, hdedent]

/-- Lines that are skipped to their end leave the place within a line, or they hold nothing but what
joins them to the next one. -/
theorem Progress.Poised.withinLine {before : List Char} (h : p.Poised before)
    (hlines : Lexer.WholeLines p.cursor.rest)
    (hnext : Lexer.next (candidates p.stack.state) p.cursor = .finished)
    (hjoins : ¬Lexer.JoinsBlank (before ++ p.cursor.rest)) : p.WithinLine := by
  obtain ⟨blank, last, hrest, hblank, hlast⟩ := Lexer.exists_joint_of_finished
    (Lexer.newline_mem _) (Lexer.next_eq_iff.mp hnext) hlines
  have hnone (hends : Lexer.EndsBlank (before ++ blank)) : False :=
    hjoins ⟨before ++ blank, last, by rw [hrest, List.append_assoc], hends, hlast⟩
  rcases h with hline | hbefore | hhead
  · exact hline
  · exact (hnone (hbefore.append hblank)).elim
  · refine (hnone (hblank.append_left ?_ before)).elim
    cases blank with
    | nil =>
        rw [hrest, List.nil_append] at hhead
        obtain ⟨more, rfl⟩ := List.head?_eq_some_iff.mp hhead
        cases hlast
    | cons c blank =>
        rw [hrest] at hhead
        exact hhead

/-- Where the lines are skipped to their end, within a line, there is a text to go on with. -/
theorem Progress.Ready.exists_readsThrough_finished (h : p.Ready) (hline : p.WithinLine)
    (hfinish : p.finish = .error (.rejected (rejectionOf s k)))
    (hkind : k.kind = .endOfInput ∨ k.kind = .dedent ∧ s.reported = [.indent])
    (hlines : Lexer.Lines p.cursor.rest)
    (hnext : Lexer.next (candidates p.stack.state) p.cursor = .finished) :
    ∃ b, Lexer.Lines b ∧ (p.extend b).ReadsThrough := by
  have hmargin := h.margin_of_finish hline hfinish hkind
  obtain ⟨t, word, text, -, -, haccepts, -, hwrites⟩ :=
    h.exists_writes (h.frames_ne_nil hline) hmargin (h.not_canRead_indent hline)
  obtain ⟨d, skips, hd⟩ := Lexer.skipsTo_of_finished (Lexer.next_eq_iff.mp hnext)
  exact ⟨text, hwrites.whole, hwrites.readsThrough h hmargin haccepts hlines skips hd⟩

/-- A lexeme that does not end the lines is the same in front of a longer text. -/
theorem Steps.extend (h : Steps p l q) (hopen : ¬AtOpenString p)
    (hlines : Lexer.WholeLines p.cursor.rest) (hne : q.cursor.rest ≠ []) (b : List Char) :
    Steps (p.extend b) l (q.extend b) := by
  obtain ⟨behind, hnext, hread⟩ := h
  rw [cursor_of_read hread] at hne
  have hextend := (Lexer.next_eq_iff.mp hnext).extend b (.inr hlines)
    fun c skips opens => hopen ⟨c, skips, opens⟩
  have hsame := hextend.2.resolve_right fun hbreak => hne hbreak.2.1
  exact ⟨behind.extend b, Lexer.next_eq_iff.mpr hsame, by rw [read_extend, hread]; rfl⟩

/-- Lines that are refused at their end can go on. -/
theorem Runs.exists_completion {ls : List (Lexeme Terminal)} {before : List Char}
    (h : Runs p ls (.error (.rejected (rejectionOf s k))))
    (hkind : k.kind = .endOfInput ∨ k.kind = .dedent ∧ s.reported = [.indent]) (hall : ReadsAll p)
    (hp : p.Ready) (hsound : p.Sound text before) (hpoised : p.Poised before)
    (hlines : Lexer.WholeLines text) (hne : p.cursor.rest ≠ []) (hjoins : ¬Lexer.JoinsBlank text) :
    ∃ b ls' tree, Lexer.Lines b ∧ Runs (p.extend b) ls' (.ok tree) ∧
      ls'.filter Source.isString = ls.filter Source.isString := by
  have hwhole {p : Progress} {before : List Char} (hsound : p.Sound text before)
      (hne : p.cursor.rest ≠ []) : Lexer.WholeLines p.cursor.rest := by
    rw [hsound.place.text] at hlines
    exact hlines.of_append hne
  have hdone {p : Progress} {ls : List (Lexeme Terminal)}
      (h : ∃ b, Lexer.Lines b ∧ (p.extend b).ReadsThrough) (hls : ls.filter Source.isString = []) :
      ∃ b ls' tree, Lexer.Lines b ∧ Runs (p.extend b) ls' (.ok tree) ∧
        ls'.filter Source.isString = ls.filter Source.isString := by
    obtain ⟨b, hb, ls', tree, hruns, hstrings⟩ := h
    exact ⟨b, ls', tree, hb, hruns, hstrings.trans hls.symm⟩
  induction hall generalizing ls before with
  | @finished p found =>
      obtain ⟨rfl, hfinish⟩ := h.continues found
      have hline := hpoised.withinLine (hwhole hsound hne) found (hsound.place.text ▸ hjoins)
      exact hdone (hp.exists_readsThrough_finished hline hfinish.symm hkind
        (.inr (hwhole hsound hne)) found) rfl
  | lineEnd found kind last =>
      exact hdone (h.exists_readsThrough_lineEnd hkind hp (.lineEnd found kind last)
        (hwhole hsound hne) found last) (h.filter_isString_of_last found kind last)
  | @step p q l first rest ih =>
      have hall := ReadsAll.step first rest
      obtain ⟨behind, hnext, hread⟩ := id first
      have hcursor := cursor_of_read hread
      by_cases hlast : behind.rest = []
      · obtain ⟨hl, -⟩ := (Lexer.next_eq_iff.mp hnext).exists_lineEnd (hwhole hsound hne) hlast
        exact hdone (h.exists_readsThrough_lineEnd hkind hp hall (hwhole hsound hne) hnext hlast)
          (h.filter_isString_of_last hnext hl hlast)
      · obtain ⟨q', ls, hq', rfl, hruns⟩ := (h.continues hnext).resolve_right
          fun ⟨stop, hstop, _⟩ => by rw [hread] at hstop; cases hstop
        obtain rfl : q = q' := Except.ok.inj (hread.symm.trans hq')
        obtain ⟨skipped, -, htaken, -, hsound', -⟩ := hsound.step first
        rw [← hcursor] at hlast
        obtain ⟨b, ls', tree, hb, hruns', hstrings⟩ := ih hruns (hp.step first) hsound'
          (first.poised htaken hlast _) hlast
        have hstep := first.extend hall.not_atOpenString (hwhole hsound hne) hlast b
        refine ⟨b, l :: ls', tree, hb, .step hstep hruns', ?_⟩
        rw [List.filter_cons, List.filter_cons, hstrings]

end

end Parser

end SyntaxTriage
