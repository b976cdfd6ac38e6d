import SyntaxTriage.Proofs.Layout.Turns
import SyntaxTriage.Proofs.Lexer.Spelling
import SyntaxTriage.Proofs.Parser.Indent
import SyntaxTriage.Proofs.Parser.Prefix

/-!
Words laid out. A word that the stack accepts becomes a text that the parser reads to its end: every
terminal stands on a joined line of its own, and behind the end of a line the blanks of the next one
say whether a block begins there, or how many end. The levels of indentation are always there to
return to, since there are as many as open blocks.
-/

namespace SyntaxTriage

open Grammar

-- the tables are large, and nothing here should compute them
attribute [local irreducible] Lookahead.states Lookahead.sets Parser.Stack.settle

/-! ### Turns of the indentation -/

/-- How the indentation changes from one line to the next. -/
inductive Turn where
  | deeper
  | back (count : Nat)

namespace Turn

def terminals : Turn → List Terminal
  | deeper => [.indent]
  | back count => List.replicate count .dedent

/-- The lines to return to behind the turn. A level is opened by one blank. -/
def lines (lines : List (List Char)) : Turn → List (List Char)
  | deeper => (lines.headD [] ++ [' ']) :: lines
  | back count => lines.drop count

end Turn

namespace Layout

theorem leadsTo_of_wholeLines {a line : List Char} {l : Lexeme Terminal} (ha : Lexer.WholeLines a)
    (hline : ∀ c ∈ line, isIndentChar c = true) (htext : l.text.toList = a ++ line) :
    LeadsTo l line := by
  obtain ⟨before, rfl⟩ := List.getLast?_eq_some_iff.mp ha
  refine ⟨before, ?_, hline⟩
  rw [htext, List.append_assoc]
  rfl

/-- The lexemes of a source change no levels of indentation: these have no text. -/
theorem isOwn_of_next {candidates : TerminalSet} {c behind : Lexer.Cursor} {l : Lexeme Terminal}
    (h : Lexer.next candidates c = .lexeme l behind) : IsOwn l := by
  have hfinds := Lexer.next_eq_iff.mp h
  generalize hfound : Lexer.Next.lexeme l behind = found at hfinds
  clear h
  induction hfinds with
  | finished | misplaced | unreadable => cases hfound
  | skip _ _ _ ih => exact ih hfound
  | @lexeme c t length first _ =>
      cases hfound
      have hread (ht : t.text? = none) : t.read c.rest ≠ none := by
        obtain ⟨rest, hrest, -⟩ := Lexer.read_of_first? first ht
        rw [hrest]
        exact Option.some_ne_none rest
      constructor
      · refine decide_eq_false ?_
        rintro rfl
        exact hread rfl rfl
      · refine decide_eq_false ?_
        rintro rfl
        exact hread rfl rfl

variable {s : Layout} {l : Lexeme Terminal} {turn : Turn}

theorem Stands.indents_turn {lines : List (List Char)} (h : Stands Parser.tabSize s lines)
    (turn : Turn) : ∀ c ∈ (turn.lines lines).headD [], isIndentChar c = true := by
  have hhead {lines : List (List Char)} (h : ∀ line ∈ lines, ∀ c ∈ line, isIndentChar c = true) :
      ∀ c ∈ lines.headD [], isIndentChar c = true := by
    cases lines with
    | nil => simp
    | cons line lines => exact h line List.mem_cons_self
  cases turn with
  | deeper => exact indents_append_blanks (hhead h.indents) 1
  | back count => exact hhead fun line hline => h.indents line (List.mem_of_mem_drop hline)

/-- A line break turns to the line that it leads to. -/
theorem Stands.read_turn {lines : List (List Char)} (h : Stands Parser.tabSize s lines)
    (hl : l.kind = .newline) (hs : s.brackets = 0)
    (hfits : ∀ count, turn = .back count → count < lines.length)
    (hline : LeadsTo l ((turn.lines lines).headD [])) :
    ∃ text s', s.read Parser.tabSize l =
        ⟨l :: turn.terminals.map fun kind => l.borrow kind text, .ok s'⟩ ∧
      Stands Parser.tabSize s' (turn.lines lines) := by
  have hrole := role_eq_newline_iff.mpr hl
  cases turn with
  | deeper =>
      have hhead : lines.headD [] = s.previous := by
        rw [List.headD_eq_head?_getD, h.previous, Option.getD_some]
      rw [Turn.lines, hhead] at hline ⊢
      exact h.read_deeper (by decide) hrole hs Nat.zero_lt_one hline
  | back count =>
      have hcount := hfits count rfl
      obtain ⟨target, rest, hdrop⟩ : ∃ target rest, lines.drop count = target :: rest :=
        List.exists_cons_of_ne_nil (by simpa using hcount)
      have hsplit : lines = lines.take count ++ target :: rest := by
        rw [← hdrop, List.take_append_drop]
      rw [Turn.lines, hdrop] at hline ⊢
      rw [hsplit] at h
      obtain ⟨text, s', hread, hs'⟩ := h.read_back (by decide) hrole hs hline
      refine ⟨text, s', ?_, hs'⟩
      rw [hread, Turn.terminals, List.map_replicate, List.map_const',
        List.length_take_of_le (Nat.le_of_lt hcount)]
      rfl

end Layout

namespace Grammar

variable {word : List Terminal}

theorem LaysOut.exists_back (h : LaysOut (.dedent :: word)) : ∃ count more,
    word = List.replicate count .dedent ++ more ∧ LaysOut more ∧
      ∀ t ∈ more.head?, isLayout t = false := by
  induction word with
  | nil => exact ⟨0, [], rfl, h.of_cons.1, fun t ht => by cases ht⟩
  | cons t word ih =>
      obtain ⟨hword, hjoins⟩ := h.of_cons
      have hjoins : Joins .dedent t := hjoins
      by_cases ht : t = .dedent
      · subst ht
        obtain ⟨count, more, rfl, hmore, hplain⟩ := ih hword
        exact ⟨count + 1, more, rfl, hmore, hplain⟩
      · refine ⟨0, t :: word, rfl, hword, fun u hu => ?_⟩
        cases hu
        have hnewline : t ≠ .newline := by
          rintro rfl
          exact absurd hjoins (by decide)
        have hindent : t ≠ .indent := by
          rintro rfl
          exact absurd hjoins (by decide)
        simp [isLayout, hnewline, hindent, ht]

/-- A block begins with a line. -/
theorem LaysOut.of_indent (h : LaysOut (.indent :: word)) :
    word ≠ [] ∧ ∀ t ∈ word.head?, isLayout t = false := by
  have hbehind := h.of_cons.2
  cases word with
  | nil => exact absurd hbehind (by decide)
  | cons t more =>
      refine ⟨List.cons_ne_nil t more, fun u hu => ?_⟩
      cases hu
      have happart : t ∉ apart .indent := hbehind
      cases t <;> first | rfl | exact absurd happart (by decide)

/-- Behind the end of a line the indentation may change, and then the next line begins. -/
theorem LaysOut.exists_turn (h : LaysOut (.newline :: word)) : ∃ turn more,
    word = Turn.terminals turn ++ more ∧ LaysOut more ∧ ∀ t ∈ more.head?, isLayout t = false := by
  obtain ⟨hword, hjoins⟩ := h.of_cons
  cases word with
  | nil => exact ⟨.back 0, [], rfl, hword, fun t ht => by cases ht⟩
  | cons t word =>
      have hjoins : Joins .newline t := hjoins
      by_cases hdedent : t = .dedent
      · subst hdedent
        obtain ⟨count, more, rfl, hmore, hplain⟩ := hword.exists_back
        exact ⟨.back (count + 1), more, rfl, hmore, hplain⟩
      · by_cases hindent : t = .indent
        · subst hindent
          exact ⟨.deeper, word, rfl, hword.of_cons.1, hword.of_indent.2⟩
        · refine ⟨.back 0, t :: word, rfl, hword, fun u hu => ?_⟩
          cases hu
          have hnewline : t ≠ .newline := by
            rintro rfl
            exact absurd hjoins (by decide)
          simp [isLayout, hnewline, hindent, hdedent]

end Grammar

namespace Parser

theorem Stack.Accepts.feedAll {s : Stack} {ls : List (Lexeme Terminal)} {word : List Terminal}
    (h : s.Accepts (ls.map Lexeme.kind ++ word)) :
    ∃ s', feedAll s ls = .ok s' ∧ s'.Accepts word := by
  induction ls generalizing s with
  | nil => exact ⟨s, rfl, h⟩
  | cons l ls ih =>
      obtain ⟨next, hfeed, hnext⟩ := h l rfl
      obtain ⟨s', hs', haccepts⟩ := ih hnext
      exact ⟨s', (feedAll_cons_of_ok ls hfeed).trans hs', haccepts⟩

/-- What holds all along a run, and lets it go on. -/
structure Progress.Ready (p : Progress) : Prop where
  live : p.stack.Live
  brackets : openBrackets 0 p.stack.symbols = some p.layout.brackets
  blocks : openBlocks p.stack.symbols + 1 = p.layout.levels.length
  margin : 0 ∈ p.layout.levels
  falls : p.layout.levels.Pairwise (· > ·)
  indents : ∀ c ∈ p.layout.previous, Layout.isIndentChar c = true
  level : Layout.level tabSize p.layout.previous ≤ p.layout.top
  /-- What was read last has not been reduced yet. -/
  top : ∀ x ∈ p.stack.top?, ∃ t, x = .terminal t

theorem ready_start {entry : Nonterminal} (h : entry ∈ Lookahead.entries) (text : List Char) :
    (Progress.start entry text).Ready where
  live := Stack.live_empty h
  brackets := rfl
  blocks := rfl
  margin := List.mem_singleton_self 0
  falls := List.pairwise_singleton _ _
  indents _ hc := by cases hc
  level := Nat.le_refl 0
  top _ hx := by cases hx

section

variable {p q : Progress} {l : Lexeme Terminal} {turn : Turn} {word : List Terminal}
  {lines : List (List Char)}

/-- The last of the lexemes that are fed lies on top. -/
theorem top?_feedAll {s s' : Stack} {ls : List (Lexeme Terminal)} (h : feedAll s ls = .ok s') :
    ls = [] ∧ s' = s ∨ ∃ l ∈ ls, s'.top? = some (.terminal l.kind) := by
  induction ls generalizing s with
  | nil =>
      cases h
      exact .inl ⟨rfl, rfl⟩
  | cons l ls ih =>
      obtain ⟨t, ht, hfeed⟩ := feedAll_cons_eq_ok h
      obtain ⟨-, rfl⟩ := Stack.feed_eq_ok_iff.mp ht
      right
      rcases ih hfeed with ⟨-, rfl⟩ | ⟨k, hk, htop⟩
      · exact ⟨l, List.mem_cons_self, rfl⟩
      · exact ⟨k, List.mem_cons_of_mem l hk, htop⟩

/-- The blocks that lexemes begin and end are the levels that they open and close. -/
theorem openBlocks_lexemes (ls : List (Lexeme Terminal)) :
    openBlocks (ls.map fun l => .terminal l.kind) =
      ls.countP Layout.isIndent - ls.countP Layout.isDedent := by
  induction ls with
  | nil => rfl
  | cons l ls ih =>
      have hl : blockChange (.terminal l.kind) =
          (if Layout.isIndent l then 1 else 0) - if Layout.isDedent l then 1 else 0 := by
        unfold Layout.isIndent Layout.isDedent
        generalize l.kind = t
        cases t <;> rfl
      rw [List.map_cons, openBlocks_cons, ih, hl, List.countP_cons, List.countP_cons]
      split <;> split <;> omega

theorem Progress.Ready.step (h : p.Ready) (hstep : Steps p l q) : q.Ready := by
  obtain ⟨behind, hnext, hread⟩ := hstep
  obtain ⟨stack, layout, hfeed, hlayout, rfl⟩ := read_eq_ok_iff.mp hread
  have hbrackets := Layout.openBrackets_read tabSize p.layout l
  have hmargin := Layout.margin_read hlayout h.margin
  obtain ⟨-, ⟨next, hopen, hstack⟩, -⟩ := h.live.built.feedAll h.brackets hfeed
  rw [hlayout, hopen] at hbrackets
  refine ⟨h.live.feedAll hfeed, hstack.trans hbrackets, ?_, hmargin,
    Layout.falls_read hlayout h.falls, Layout.indents_previous hlayout h.indents,
    Layout.level_previous_le hlayout h.level, ?_⟩
  · obtain ⟨found, hlevels, hfound⟩ :=
      Layout.openLevels_read tabSize h.margin (Layout.isOwn_of_next hnext)
    have hcount := Layout.countP_of_openLevels hlevels
    rw [hfound layout hlayout] at hcount
    have hblocks := h.blocks
    have hpos := List.length_pos_of_mem h.margin
    have hpos' := List.length_pos_of_mem hmargin
    show openBlocks stack.symbols + 1 = layout.levels.length
    rw [h.live.built.openBlocks_feedAll hfeed, openBlocks_lexemes]
    unfold Layout.depth at hcount
    omega
  · rcases top?_feedAll hfeed with ⟨-, rfl⟩ | ⟨k, -, htop⟩
    · exact h.top
    · intro x hx
      cases htop.symm.trans hx
      exact ⟨k.kind, rfl⟩

/-- A turn that is accepted changes the number of open blocks as it changes the open levels. -/
theorem Progress.Ready.exists_turn (h : p.Ready)
    (haccepts : p.stack.Accepts (.newline :: (turn.terminals ++ word))) :
    ∃ s : Stack, s.Live ∧ s.Accepts word ∧
      openBlocks s.symbols = openBlocks p.stack.symbols +
        openBlocks (turn.terminals.map Symbol.terminal) := by
  obtain ⟨s, hfeed, hs⟩ := haccepts (.unplaced .newline "") rfl
  have hkinds : (turn.terminals.map fun kind => Lexeme.unplaced kind "").map Lexeme.kind =
      turn.terminals := by
    rw [List.map_map]
    exact List.map_id _
  rw [← hkinds] at hs
  obtain ⟨s', hs', hword⟩ := hs.feedAll
  have hlive := h.live.feed hfeed
  refine ⟨s', hlive.feedAll hs', hword, ?_⟩
  rw [hlive.built.openBlocks_feedAll hs', h.live.built.openBlocks_feed hfeed, List.map_map]
  exact congrArg (· + _) (Int.add_zero _)

theorem openBlocks_deeper : openBlocks (Turn.deeper.terminals.map Symbol.terminal) = 1 := rfl

theorem openBlocks_back (count : Nat) :
    openBlocks ((Turn.back count).terminals.map Symbol.terminal) = -count := by
  rw [Turn.terminals, List.map_replicate, openBlocks, List.map_replicate, List.sum_replicate]
  simp [blockChange]

/-- There are as many lines to return to as blocks end. -/
theorem Progress.Ready.lt_of_back {count : Nat} (h : p.Ready)
    (hstands : p.layout.Stands tabSize lines)
    (haccepts : p.stack.Accepts (.newline :: ((Turn.back count).terminals ++ word))) :
    count < lines.length := by
  obtain ⟨s, hlive, -, hblocks⟩ := h.exists_turn haccepts
  have hnonneg := hlive.openBlocks_nonneg
  have hlevels := h.blocks
  rw [hblocks, openBlocks_back] at hnonneg
  rw [hstands.levels, List.length_map] at hlevels
  omega

/-- Where the input ends, only the margin is left of the lines. -/
theorem Progress.Ready.headD_of_end (h : p.Ready) (hstands : p.layout.Stands tabSize lines)
    (haccepts : p.stack.Accepts (.newline :: (turn.terminals ++ []))) :
    (turn.lines lines).headD [] = [] := by
  obtain ⟨s, hlive, ⟨tree, hfinish⟩, hblocks⟩ := h.exists_turn haccepts
  rw [hlive.built.openBlocks_of_finish hfinish] at hblocks
  have hlevels := h.blocks
  cases turn with
  | deeper =>
      have hnonneg := h.live.openBlocks_nonneg
      rw [openBlocks_deeper] at hblocks
      omega
  | back count =>
      rw [openBlocks_back] at hblocks
      obtain ⟨inner, hsplit⟩ := List.getLast?_eq_some_iff.mp hstands.margin
      rw [hstands.levels, List.length_map, hsplit, List.length_append, List.length_singleton]
        at hlevels
      obtain rfl : count = inner.length := by omega
      rw [Turn.lines, hsplit, List.drop_left]
      rfl

/-- A line break is read that a word begins with, and the turn behind it. -/
theorem Progress.Ready.read_newline (h : p.Ready) (hstands : p.layout.Stands tabSize lines)
    (hl : l.kind = .newline)
    (haccepts : p.stack.Accepts (.newline :: (turn.terminals ++ word)))
    (hline : Layout.LeadsTo l ((turn.lines lines).headD [])) (behind : Lexer.Cursor) :
    ∃ q, p.read l behind = .ok q ∧ q.stack.Accepts word ∧
      q.layout.Stands tabSize (turn.lines lines) := by
  obtain ⟨s, hfeed, hs⟩ := haccepts l hl
  have hbrackets : p.layout.brackets = 0 := by
    have houtside := h.live.openBrackets_of_feed hfeed (by rw [hl]; rfl)
    rw [h.brackets] at houtside
    exact Option.some.inj houtside
  have hfits (count : Nat) (hturn : turn = .back count) : count < lines.length :=
    h.lt_of_back hstands (hturn ▸ haccepts)
  obtain ⟨text, layout, hread, hlayout⟩ := hstands.read_turn hl hbrackets hfits hline
  have hkinds : (turn.terminals.map fun kind => l.borrow kind text).map Lexeme.kind =
      turn.terminals := by
    rw [List.map_map]
    exact List.map_id _
  rw [← hkinds] at hs
  obtain ⟨s', hs', hword⟩ := hs.feedAll
  refine ⟨⟨behind, layout, some l, s', _⟩, read_eq_ok_iff.mpr ⟨s', layout, ?_, ?_, rfl⟩, hword,
    hlayout⟩
  · rw [hread]
    exact (feedAll_cons_of_ok _ hfeed).trans hs'
  · rw [hread]

/-- A terminal is read that a word begins with, if it stands within a line. -/
theorem Progress.Ready.read_plain (h : p.Ready) (hstands : p.layout.Stands tabSize lines)
    (hl : isLayout l.kind = false) (haccepts : p.stack.Accepts (l.kind :: word))
    (behind : Lexer.Cursor) : ∃ q, p.read l behind = .ok q ∧ q.stack.Accepts word ∧
      q.layout.Stands tabSize lines := by
  obtain ⟨s, hfeed, hs⟩ := haccepts l rfl
  have hall : feedAll p.stack [l] = .ok s := feedAll_cons_of_ok [] hfeed
  have hstep := Layout.atLexeme tabSize p.layout l
  have hok (brackets : Nat)
      (hread : p.layout.read tabSize l = ⟨[l], .ok { p.layout with brackets }⟩) :
      ∃ q, p.read l behind = .ok q ∧ q.stack.Accepts word ∧ q.layout.Stands tabSize lines :=
    ⟨⟨behind, { p.layout with brackets }, some l, s, _⟩, read_eq_ok_iff.mpr
      ⟨s, { p.layout with brackets }, by rw [hread, hall], by rw [hread], rfl⟩, hs,
      hstands.levels, hstands.previous, hstands.deeper, hstands.margin, hstands.indents⟩
  generalize hread : p.layout.read tabSize l = step at hstep
  cases hstep with
  | newline role _ =>
      rw [Layout.role_eq_newline_iff.mp role] at hl
      contradiction
  | opening | closing | other => exact hok _ hread
  | unopened role outside =>
      -- the stack has a bracket to close
      obtain ⟨next, hnext, -⟩ := h.live.built.openBrackets_feed h.brackets hfeed
      simp [countBracket, role, outside] at hnext

/-- Where a word ends the parser has its tree. -/
theorem Progress.Ready.finish_eq {tree : Tree} (h : p.Ready) (hfinish : p.stack.finish = .ok tree) :
    p.finish = .ok tree := by
  have hlevels := h.blocks
  rw [h.live.built.openBlocks_of_finish hfinish] at hlevels
  obtain ⟨level, hmargin⟩ : ∃ level, p.layout.levels = [level] :=
    List.length_eq_one_iff.mp (by omega)
  have hdedents : p.layout.finish p.lastRead = [] := by
    unfold Layout.finish
    rw [hmargin]
    rfl
  rcases finish_cases p with ⟨_, hfeed, -⟩ | ⟨s, hfeed, hp⟩
  · rw [hdedents] at hfeed
    cases hfeed
  · rw [hdedents] at hfeed
    cases hfeed
    rcases hp with ⟨tree', htree, hp⟩ | ⟨s, htree, -⟩
    all_goals
      rw [hfinish] at htree
      cases htree
    exact hp

end

/-! ### Texts of words -/

/-- What the text of a word begins with: a line break, or what joins the first terminal to the line
before. -/
def Begins : List Terminal → List Char → Prop
  | [], text => text = []
  | .newline :: _, text => ∃ more, text = '\n' :: more
  | _ :: _, text => ∃ more, text = Lexer.joint ++ more

theorem Begins.joinsOn {word : List Terminal} {text : List Char} (h : Begins word text)
    (hword : ∀ t ∈ word.head?, isLayout t = false) : Lexer.JoinsOn text := by
  unfold Begins at h
  split at h
  · exact .inl h
  · exact absurd (hword _ rfl) (by decide)
  · exact .inr h

theorem Begins.exists_lineEnd {word : List Terminal} {text : List Char} (h : Begins word text)
    (hword : word ≠ []) : ∃ ends ∈ [['\n'], Lexer.joint], ∃ more, text = ends ++ more := by
  unfold Begins at h
  split at h
  · contradiction
  · exact ⟨['\n'], List.mem_cons_self, h⟩
  · exact ⟨Lexer.joint, by simp, h⟩

theorem Begins.ne_nil {word : List Terminal} {text : List Char} (h : Begins word text)
    (hword : word ≠ []) : text ≠ [] := by
  obtain ⟨ends, hends, more, rfl⟩ := h.exists_lineEnd hword
  refine List.append_ne_nil_of_left_ne_nil ?_ more
  rintro rfl
  revert hends
  decide

variable {p : Progress} {word : List Terminal} {text : List Char} {t : Terminal}
  {lines : List (List Char)}

theorem begins_cons (ht : t ≠ .newline) (more : List Char) :
    Begins (t :: word) (Lexer.joint ++ more) := by
  unfold Begins
  split
  · contradiction
  · rename_i heq
    exact absurd (List.cons.inj heq).1 ht
  · exact ⟨more, rfl⟩

/-- Within a line something comes behind every terminal. -/
theorem next_of_joins (ht : isLayout t = false) (h : Joins t (nextOf word .endOfInput)) :
    word ≠ [] ∧ ∀ u ∈ word.head?, u ≠ .indent ∧ u ≠ .dedent := by
  have happart : (Terminal.all.all fun t => isLayout t ||
      decide (¬Joins t .endOfInput ∧ ¬Joins t .indent ∧ ¬Joins t .dedent)) = true := by
    decide +kernel
  have hall := List.all_eq_true.mp happart t (LawfulNumbered.mem_all t)
  rw [ht] at hall
  obtain ⟨hend, hindent, hdedent⟩ := of_decide_eq_true hall
  cases word with
  | nil => exact absurd h hend
  | cons u word =>
      refine ⟨List.cons_ne_nil u word, fun v hv => ?_⟩
      cases hv
      constructor
      · rintro rfl
        exact hindent h
      · rintro rfl
        exact hdedent h

/-- The parser can read the rest of the text to its end, and no string in it. -/
def Progress.ReadsThrough (p : Progress) : Prop :=
  ∃ ls tree, Runs p ls (.ok tree) ∧ ls.filter Source.isString = []

theorem Progress.ReadsThrough.of_step {q : Progress} {l : Lexeme Terminal} (h : q.ReadsThrough)
    (hstep : Steps p l q) (hl : Source.isString l = false) : p.ReadsThrough := by
  obtain ⟨ls, tree, hruns, hstrings⟩ := h
  refine ⟨l :: ls, tree, .step hstep hruns, ?_⟩
  rw [List.filter_cons, hl, hstrings]
  rfl

theorem plain_facts (hspelled : isSpelled t = true) (hplain : isLayout t = false) :
    t.isSkipped = false ∧ t ≠ .shortString ∧ t ≠ .longString := by
  have h : (Terminal.all.all fun t => !isSpelled t || isLayout t || (!t.isSkipped &&
      decide (t ≠ .shortString ∧ t ≠ .longString))) = true := by
    decide +kernel
  have ht := List.all_eq_true.mp h t (LawfulNumbered.mem_all t)
  rw [hspelled, hplain] at ht
  simpa using ht

/-- One terminal within a line is read. -/
theorem Progress.Ready.exists_step_plain {ends more : List Char} (h : p.Ready)
    (hspelled : isSpelled t = true) (hplain : isLayout t = false)
    (hends : ends ∈ [['\n'], Lexer.joint])
    (hrest : p.cursor.rest = Lexer.joint ++ (Lexer.spelling t ++ (ends ++ more)))
    (hstands : p.layout.Stands tabSize lines) (haccepts : p.stack.Accepts (t :: word)) :
    ∃ l q, Steps p l q ∧ l.kind = t ∧ q.Ready ∧ q.cursor.rest = ends ++ more ∧
      q.layout.Stands tabSize lines ∧ q.stack.Accepts word := by
  obtain ⟨hkept, -⟩ := plain_facts hspelled hplain
  -- what joins the lines is skipped
  have hjoint : Terminal.continuation ∈ candidates p.stack.state ∪ Lexer.always :=
    BitSet.mem_union.mpr (.inr (BitSet.mem_ofList.mpr (by decide)))
  have hskip := Lexer.first?_joint hjoint (Lexer.spelling t ++ (ends ++ more))
  rw [← hrest] at hskip
  have hdrop : (p.cursor.take .continuation 2).2.rest = Lexer.spelling t ++ (ends ++ more) := by
    show p.cursor.rest.drop 2 = _
    rw [hrest]
    rfl
  -- the terminal is one that the parser can go on with
  obtain ⟨_, hfeed, -⟩ := haccepts (.unplaced t "") rfl
  have ht : t ∈ candidates p.stack.state ∪ Lexer.always :=
    BitSet.mem_union.mpr (.inl (Stack.mem_candidates_of_feed hfeed))
  have hfirst := Lexer.first?_spelling hspelled hplain ht hends more
  rw [← hdrop] at hfirst
  have hnext := Lexer.next_eq_iff.mpr (.skip hskip rfl (.lexeme hfirst hkept))
  have hbehind : (p.cursor.take .continuation 2).2.rest.drop (Lexer.spelling t).length =
      ends ++ more := by rw [hdrop, List.drop_left]
  generalize (p.cursor.take .continuation 2).2 = c at *
  obtain ⟨q, hread, hq, hlayout⟩ := h.read_plain
    (l := (c.take t (Lexer.spelling t).length).1) hstands hplain haccepts
    (c.take t (Lexer.spelling t).length).2
  have hstep : Steps p (c.take t (Lexer.spelling t).length).1 q := ⟨_, hnext, hread⟩
  refine ⟨_, q, hstep, rfl, h.step hstep, ?_, hlayout, hq⟩
  rw [cursor_of_read hread]
  exact hbehind

/-- A line break is read that a word begins with, with the indentation of the next line. -/
theorem Progress.Ready.exists_step_newline {turn : Turn} {behind : Lexer.Cursor}
    {l : Lexeme Terminal} (h : p.Ready) (hstands : p.layout.Stands tabSize lines)
    (hnext : Lexer.next (candidates p.stack.state) p.cursor = .lexeme l behind)
    (hl : l.kind = .newline) (hline : Layout.LeadsTo l ((turn.lines lines).headD []))
    (haccepts : p.stack.Accepts (.newline :: (turn.terminals ++ word))) :
    ∃ q, Steps p l q ∧ q.Ready ∧ q.cursor = behind ∧ q.stack.Accepts word ∧
      q.layout.Stands tabSize (turn.lines lines) := by
  obtain ⟨q, hread, hq, hlayout⟩ := h.read_newline hstands hl haccepts hline behind
  have hstep : Steps p l q := ⟨behind, hnext, hread⟩
  exact ⟨q, hstep, h.step hstep, cursor_of_read hread, hq, hlayout⟩

theorem not_opensLong_lineEnd : ¬Lexer.OpensLong ['\n'] := by
  rintro ⟨q, rest, hopens, -⟩
  cases hopens

theorem ne_of_isLayout_eq_false (h : isLayout t = false) : t ≠ .indent ∧ t ≠ .dedent := by
  constructor <;>
    · rintro rfl
      cases h

/-- The text is a way to write the word: wherever the parser accepts the word, and stands at these
lines, it reads the text to its end. -/
structure Writes (lines : List (List Char)) (word : List Terminal) (text : List Char) : Prop where
  whole : Lexer.Lines text
  begins : Begins word text
  reads : ∀ p : Progress, p.Ready → p.cursor.rest = text → p.layout.Stands tabSize lines →
    p.stack.Accepts word → p.ReadsThrough

/-- In front of the text comes the indentation of the line that it begins. At the end of the input
there is none. -/
theorem Writes.exists_indentation {turn : Turn} (h : Writes (turn.lines lines) word text)
    (hword : ∀ t ∈ word.head?, isLayout t = false) :
    ∃ line, Lexer.Lines (line ++ text) ∧
      ∀ (p : Progress) (d : Lexer.Cursor) (a : List Char), p.Ready →
        p.layout.Stands tabSize lines →
        p.stack.Accepts (.newline :: (turn.terminals ++ word)) →
        Lexer.SkipsTo (candidates p.stack.state ∪ Lexer.always) p.cursor d →
        d.rest = a ++ (line ++ text) →
        Lexer.first? (candidates p.stack.state ∪ Lexer.always) a = some (.newline, a.length) →
        Lexer.WholeLines a → ¬Lexer.OpensLong a → p.ReadsThrough := by
  refine ⟨if word = [] then [] else (turn.lines lines).headD [], ?_,
    fun p d a hp hstands haccepts skips hrest hfirst ha hopen => ?_⟩
  · split
    · exact h.whole
    · rename_i hne
      exact .inr ((h.whole.wholeLines (h.begins.ne_nil hne)).append_left _)
  · have hline : (if word = [] then [] else (turn.lines lines).headD []) =
        (turn.lines lines).headD [] := by
      split
      · rename_i hnil
        subst hnil
        exact (hp.headD_of_end hstands haccepts).symm
      · rfl
    rw [hline] at hrest
    have hindents := hstands.indents_turn turn
    obtain ⟨hnext, htext, hbehind⟩ :=
      Lexer.next_newline (h.begins.joinsOn hword) ha hopen hindents hfirst skips hrest
    obtain ⟨q, hstep, hq, hcursor, hqaccepts, hqstands⟩ := hp.exists_step_newline hstands hnext rfl
      (Layout.leadsTo_of_wholeLines ha hindents htext) haccepts
    exact (h.reads q hq (by rw [hcursor, hbehind]) hqstands hqaccepts).of_step hstep rfl

/-- A word that can be laid out can be written. -/
theorem exists_writes (lines : List (List Char)) (hspelled : ∀ t ∈ word, isSpelled t = true)
    (hlays : LaysOut word) (hfirst : ∀ t ∈ word.head?, t ≠ .indent ∧ t ≠ .dedent) :
    ∃ text, Writes lines word text := by
  induction hlength : word.length using Nat.strong_induction_on generalizing word lines with
  | _ length ih =>
      cases word with
      | nil =>
          refine ⟨[], .inl rfl, rfl, fun p hp hrest _ ⟨tree, hfinish⟩ => ⟨[], tree, ?_, rfl⟩⟩
          have hnext : Lexer.next (candidates p.stack.state) p.cursor = .finished :=
            Lexer.next_eq_iff.mpr (.finished hrest)
          rw [← hp.finish_eq hfinish]
          exact .finished hnext
      | cons t word =>
          obtain ⟨hword, hjoins⟩ := hlays.of_cons
          obtain ⟨ht, hbehind⟩ := List.forall_mem_cons.mp hspelled
          by_cases hnewline : t = .newline
          · subst hnewline
            obtain ⟨turn, more, rfl, hmore, hplain⟩ := hlays.exists_turn
            have hshorter : more.length < length := by
              rw [← hlength, List.length_cons, List.length_append]
              omega
            obtain ⟨text, hwrites⟩ := ih more.length hshorter (turn.lines lines)
              (fun u hu => hbehind u (List.mem_append_right _ hu)) hmore
              (fun u hu => ne_of_isLayout_eq_false (hplain u hu)) rfl
            obtain ⟨line, hlines, hreads⟩ := hwrites.exists_indentation hplain
            refine ⟨['\n'] ++ (line ++ text), ?_, ⟨_, rfl⟩,
              fun p hp hrest hstands haccepts => ?_⟩
            · rcases hlines with hnil | hlines
              · rw [hnil]
                exact .inr rfl
              · exact .inr (hlines.append_left _)
            · exact hreads p p.cursor ['\n'] hp hstands haccepts .here hrest
                (Lexer.first?_lineEnd (Lexer.newline_mem _)) rfl not_opensLong_lineEnd
          · have hplain : isLayout t = false := by
              obtain ⟨hindent, hdedent⟩ := hfirst t rfl
              simp [isLayout, hnewline, hindent, hdedent]
            obtain ⟨-, hshort, hlong⟩ := plain_facts ht hplain
            -- the line goes on, or it ends
            obtain ⟨hne, hnext⟩ := next_of_joins hplain hjoins
            obtain ⟨text, hwrites⟩ := ih word.length (by rw [← hlength]; exact Nat.lt_succ_self _)
              lines hbehind hword hnext rfl
            obtain ⟨ends, hends, more, rfl⟩ := hwrites.begins.exists_lineEnd hne
            refine ⟨Lexer.joint ++ (Lexer.spelling t ++ (ends ++ more)), .inr ?_,
              begins_cons hnewline _, fun p hp hrest hstands haccepts => ?_⟩
            · have hlines := hwrites.whole.wholeLines (hwrites.begins.ne_nil hne)
              exact (hlines.append_left _).append_left _
            · obtain ⟨l, q, hstep, hl, hq, hqrest, hqstands, hqaccepts⟩ :=
                hp.exists_step_plain ht hplain hends hrest hstands haccepts
              exact (hwrites.reads q hq hqrest hqstands hqaccepts).of_step hstep
                (by simp [Source.isString, hl, hshort, hlong])

end Parser

end SyntaxTriage
