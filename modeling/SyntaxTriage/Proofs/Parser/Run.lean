import SyntaxTriage.Proofs.Layout
import SyntaxTriage.Proofs.Lexer.Place
import SyntaxTriage.Proofs.Parser.Balance

/-!
Runs of the parser. `Runs` follows the parser from lexeme to lexeme without a bound; each lexeme
takes some text away, so the bound of `readFrom` is never reached.

All along a run the lexer stands at the end of what has been read, the stack is built by the
automaton, and the brackets that layout has counted are those that the symbols on the stack leave
open. So layout is never asked to close a bracket that is not open.
-/

namespace SyntaxTriage.Parser

open Grammar

-- the bound on reductions is a large number that nothing here should compute
attribute [local irreducible] Stack.settle

def Steps (p : Progress) (l : Lexeme Terminal) (q : Progress) : Prop :=
  ∃ behind, Lexer.next (candidates p.stack.state) p.cursor = .lexeme l behind ∧
    p.read l behind = .ok q

inductive Runs : Progress → List (Lexeme Terminal) → Except Stop Tree → Prop
  | finished {p : Progress}
      (found : Lexer.next (candidates p.stack.state) p.cursor = .finished) : Runs p [] p.finish
  | step {p q : Progress} {l : Lexeme Terminal} {ls : List (Lexeme Terminal)}
      {result : Except Stop Tree} (first : Steps p l q) (rest : Runs q ls result) :
      Runs p (l :: ls) result
  | stopped {p : Progress} {l : Lexeme Terminal} {behind : Lexer.Cursor} {stop : Stop}
      (found : Lexer.next (candidates p.stack.state) p.cursor = .lexeme l behind)
      (refused : p.read l behind = .error stop) : Runs p [] (.error stop)
  | misplaced {p : Progress} {l : Lexeme Terminal}
      (found : Lexer.next (candidates p.stack.state) p.cursor = .misplaced l) :
      Runs p [] (.error (.rejected (rejectionOf p.stack l)))
  | unreadable {p : Progress} {c : Char} {location : Location}
      (found : Lexer.next (candidates p.stack.state) p.cursor = .unreadable c location) :
      Runs p [] (.error (.rejected (.character c location.row location.column)))

/-- What reading one lexeme comes to, if it succeeds. -/
theorem read_eq_ok_iff {p q : Progress} {l : Lexeme Terminal} {behind : Lexer.Cursor} :
    p.read l behind = .ok q ↔ ∃ stack layout,
      feedAll p.stack (p.layout.read tabSize l).emitted = .ok stack ∧
      (p.layout.read tabSize l).next = .ok layout ∧
      q = ⟨behind, layout, some l, stack,
        (p.layout.read tabSize l).emitted.getLast?.or p.lastFed⟩ := by
  unfold Progress.read
  simp only
  cases feedAll p.stack (p.layout.read tabSize l).emitted with
  | error rejection => simp
  | ok stack =>
      cases (p.layout.read tabSize l).next with
      | error fault => simp
      | ok layout => simp [eq_comm]

/-- A lexeme is rejected if the stack rejects what layout makes of it. -/
theorem read_of_feedAll_error {p : Progress} {l : Lexeme Terminal} {rejection : Rejection}
    (behind : Lexer.Cursor)
    (h : feedAll p.stack (p.layout.read tabSize l).emitted = .error rejection) :
    p.read l behind = .error (.rejected rejection) := by
  unfold Progress.read
  simp only [h]

theorem cursor_of_read {p q : Progress} {l : Lexeme Terminal} {behind : Lexer.Cursor}
    (h : p.read l behind = .ok q) : q.cursor = behind := by
  obtain ⟨_, _, -, -, rfl⟩ := read_eq_ok_iff.mp h
  rfl

theorem length_of_next {candidates : TerminalSet} {c behind : Lexer.Cursor} {l : Lexeme Terminal}
    (h : Lexer.next candidates c = .lexeme l behind) : behind.rest.length < c.rest.length :=
  (Lexer.next_eq_iff.mp h).length_lt

theorem exists_runs {fuel : Nat} {p : Progress} (h : p.cursor.rest.length < fuel) :
    ∃ ls, Runs p ls (readFrom fuel p) := by
  induction fuel generalizing p with
  | zero => exact absurd h (Nat.not_lt_zero _)
  | succ fuel ih =>
      unfold readFrom
      split
      · rename_i l behind hnext
        have hlength := length_of_next hnext
        split
        · rename_i stop hread
          exact ⟨[], .stopped hnext hread⟩
        · rename_i q hread
          obtain ⟨ls, hruns⟩ := ih (p := q) (by rw [cursor_of_read hread]; omega)
          exact ⟨l :: ls, .step ⟨behind, hnext, hread⟩ hruns⟩
      · rename_i hnext
        exact ⟨[], .finished hnext⟩
      · rename_i l hnext
        exact ⟨[], .misplaced hnext⟩
      · rename_i c location hnext
        exact ⟨[], .unreadable hnext⟩

theorem Runs.readFrom_eq {p : Progress} {ls : List (Lexeme Terminal)} {result : Except Stop Tree}
    (h : Runs p ls result) {fuel : Nat} (hfuel : p.cursor.rest.length < fuel) :
    readFrom fuel p = result := by
  induction h generalizing fuel with
  | step first rest ih =>
      obtain ⟨fuel, rfl⟩ := Nat.exists_eq_add_one_of_ne_zero (Nat.ne_zero_of_lt hfuel)
      obtain ⟨behind, hnext, hread⟩ := first
      have hlength := length_of_next hnext
      simp only [readFrom, hnext, hread]
      exact ih (by rw [cursor_of_read hread]; omega)
  | finished found | misplaced found | unreadable found =>
      obtain ⟨fuel, rfl⟩ := Nat.exists_eq_add_one_of_ne_zero (Nat.ne_zero_of_lt hfuel)
      simp only [readFrom, found]
  | stopped found refused =>
      obtain ⟨fuel, rfl⟩ := Nat.exists_eq_add_one_of_ne_zero (Nat.ne_zero_of_lt hfuel)
      simp only [readFrom, found, refused]

/-- The result of the parser is that of its run, and there is one. -/
theorem run_eq_iff {entry : Nonterminal} {text : List Char} {result : Except Stop Tree} :
    run entry text = result ↔ ∃ ls, Runs (.start entry text) ls result := by
  constructor
  · rintro rfl
    exact exists_runs (Nat.lt_succ_self text.length)
  · rintro ⟨ls, h⟩
    exact h.readFrom_eq (Nat.lt_succ_self text.length)

/-- How a run goes on from `p` over what the lexer finds. -/
def Continues (p : Progress) (ls : List (Lexeme Terminal)) (result : Except Stop Tree) :
    Lexer.Next → Prop
  | .lexeme l behind =>
    (∃ q rest, p.read l behind = .ok q ∧ ls = l :: rest ∧ Runs q rest result) ∨
      ∃ stop, p.read l behind = .error stop ∧ ls = [] ∧ result = .error stop
  | .finished => ls = [] ∧ result = p.finish
  | .misplaced l => ls = [] ∧ result = .error (.rejected (rejectionOf p.stack l))
  | .unreadable c location =>
    ls = [] ∧ result = .error (.rejected (.character c location.row location.column))

theorem Runs.continues {p : Progress} {ls : List (Lexeme Terminal)} {result : Except Stop Tree}
    (h : Runs p ls result) {found : Lexer.Next}
    (hnext : Lexer.next (candidates p.stack.state) p.cursor = found) :
    Continues p ls result found := by
  subst hnext
  cases h with
  | finished found | misplaced found | unreadable found =>
      rw [found]
      exact ⟨rfl, rfl⟩
  | @step _ q _ _ _ first rest =>
      obtain ⟨behind, found, hread⟩ := first
      rw [found]
      exact .inl ⟨q, _, hread, rfl, rest⟩
  | stopped found refused =>
      rw [found]
      exact .inr ⟨_, refused, rfl, rfl⟩

/-- There is one run only. -/
theorem Runs.unique {p : Progress} {ls ls' : List (Lexeme Terminal)}
    {result result' : Except Stop Tree} (h : Runs p ls result) (h' : Runs p ls' result') :
    ls = ls' ∧ result = result' := by
  induction h generalizing ls' with
  | finished found | misplaced found | unreadable found =>
      obtain ⟨rfl, rfl⟩ := h'.continues found
      exact ⟨rfl, rfl⟩
  | stopped found refused =>
      rcases h'.continues found with ⟨_, _, hread, -⟩ | ⟨_, hrefused, rfl, rfl⟩
      · cases refused.symm.trans hread
      · cases refused.symm.trans hrefused
        exact ⟨rfl, rfl⟩
  | step first _ ih =>
      obtain ⟨behind, found, hread⟩ := first
      rcases h'.continues found with ⟨_, _, hread', rfl, hrest⟩ | ⟨_, hrefused, -⟩
      · cases hread.symm.trans hread'
        obtain ⟨rfl, rfl⟩ := ih hrest
        exact ⟨rfl, rfl⟩
      · cases hread.symm.trans hrefused

/-! ### The stack along a run -/

theorem feedAll_cons (s : Stack) (l : Lexeme Terminal) (ls : List (Lexeme Terminal)) :
    feedAll s (l :: ls) = match s.feed l with
      | .ok s => feedAll s ls
      | .error s => .error (rejectionOf s l) := rfl

theorem feedAll_cons_of_ok {s t : Stack} {l : Lexeme Terminal} (ls : List (Lexeme Terminal))
    (h : s.feed l = .ok t) : feedAll s (l :: ls) = feedAll t ls := by
  rw [feedAll_cons, h]

theorem feedAll_cons_of_error {s t : Stack} {l : Lexeme Terminal} (ls : List (Lexeme Terminal))
    (h : s.feed l = .error t) : feedAll s (l :: ls) = .error (rejectionOf t l) := by
  rw [feedAll_cons, h]

theorem feedAll_cons_eq_ok {s s' : Stack} {l : Lexeme Terminal} {ls : List (Lexeme Terminal)}
    (h : feedAll s (l :: ls) = .ok s') : ∃ t, s.feed l = .ok t ∧ feedAll t ls = .ok s' := by
  cases ht : s.feed l with
  | error t =>
      rw [feedAll_cons_of_error ls ht] at h
      cases h
  | ok t =>
      rw [feedAll_cons_of_ok ls ht] at h
      exact ⟨t, rfl, h⟩

theorem Stack.Built.feedAll {s s' : Stack} {ls : List (Lexeme Terminal)} {depth : Nat}
    (h : s.Built) (hdepth : openBrackets 0 s.symbols = some depth)
    (hfeed : feedAll s ls = .ok s') :
    s'.Built ∧ (∃ next, openBrackets depth (ls.map fun l => .terminal l.kind) = some next ∧
      openBrackets 0 s'.symbols = some next) ∧
      s'.strings = s.strings ++ ls.filter Source.isString := by
  induction ls generalizing s depth with
  | nil =>
      cases hfeed
      exact ⟨h, ⟨depth, rfl, hdepth⟩, by simp⟩
  | cons l ls ih =>
      obtain ⟨t, ht, hfeed⟩ := feedAll_cons_eq_ok hfeed
      obtain ⟨next, hnext, hopen⟩ := h.openBrackets_feed hdepth ht
      obtain ⟨hbuilt, ⟨last, hlast, hs'⟩, hstrings⟩ := ih (h.feed ht) hopen hfeed
      refine ⟨hbuilt, ⟨last, ?_, hs'⟩, ?_⟩
      · rw [List.map_cons, openBrackets_cons, hnext]
        exact hlast
      · rw [hstrings, h.strings_feed ht, List.append_assoc, List.filter_cons]
        congr 1
        split <;> rfl

/-- What holds all along a run over the text, of which `before` has been read. -/
structure Progress.Sound (p : Progress) (text before : List Char) : Prop where
  place : p.cursor.StandsIn text before
  built : p.stack.Built
  brackets : openBrackets 0 p.stack.symbols = some p.layout.brackets
  margin : 0 ∈ p.layout.levels

theorem sound_start (entry : Nonterminal) (text : List Char) :
    (Progress.start entry text).Sound text [] :=
  ⟨Lexer.Cursor.standsIn_start text, .nil, rfl, List.mem_singleton_self 0⟩

/-- One lexeme keeps the progress sound. The lexeme is a piece of the text, and if it is a string
the stack holds it. -/
theorem Progress.Sound.step {p q : Progress} {l : Lexeme Terminal} {text before : List Char}
    (h : p.Sound text before) (hstep : Steps p l q) :
    ∃ skipped, Lexer.Piece l text (before ++ skipped) q.cursor.rest ∧
      Lexer.TakenByKind l q.cursor.rest ∧ l.text.toList ≠ [] ∧
      q.Sound text (before ++ skipped ++ l.text.toList) ∧
      q.stack.strings = p.stack.strings ++ [l].filter Source.isString := by
  obtain ⟨behind, hnext, hread⟩ := hstep
  obtain ⟨skipped, hpiece, hplace, htext, htaken⟩ :=
    (Lexer.next_eq_iff.mp hnext).piece h.place
  obtain ⟨stack, layout, hfeed, hlayout, rfl⟩ := read_eq_ok_iff.mp hread
  obtain ⟨hbuilt, ⟨next, hopen, hstack⟩, hstrings⟩ := h.built.feedAll h.brackets hfeed
  have hbrackets := Layout.openBrackets_read tabSize p.layout l
  rw [hlayout, hopen] at hbrackets
  refine ⟨skipped, hpiece, htaken, htext,
    ⟨hplace, hbuilt, hstack.trans hbrackets, Layout.margin_read hlayout h.margin⟩, ?_⟩
  rw [hstrings, Layout.filter_isString_read hlayout]

/-- Layout refuses a lexeme only for a reason of its own: it is not asked to close a bracket that is
not open, and finds the line break that it looks for. -/
theorem Progress.Sound.read_fault {p : Progress} {l : Lexeme Terminal} {behind : Lexer.Cursor}
    {text before : List Char} {fault : LayoutFault} (h : p.Sound text before)
    (hlines : Lexer.WholeLines text)
    (hnext : Lexer.next (candidates p.stack.state) p.cursor = .lexeme l behind)
    (hread : p.read l behind = .error (.fault fault)) :
    ∃ error, fault = .lexical error ∧ error.reason.cause = none := by
  obtain ⟨skipped, hpiece, -, htext, htaken⟩ := (Lexer.next_eq_iff.mp hnext).piece h.place
  obtain ⟨stack, hfeed, hlayout⟩ : ∃ stack,
      feedAll p.stack (p.layout.read tabSize l).emitted = .ok stack ∧
        (p.layout.read tabSize l).next = .error fault := by
    unfold Progress.read at hread
    simp only at hread
    cases hfeed : feedAll p.stack (p.layout.read tabSize l).emitted with
    | error rejection => simp [hfeed] at hread
    | ok stack =>
        cases hlayout : (p.layout.read tabSize l).next with
        | error fault' => simp_all
        | ok layout => simp [hfeed, hlayout] at hread
  cases Layout.refused_read hlayout with
  | lexical cause => exact ⟨_, rfl, cause⟩
  | unopened =>
      obtain ⟨-, ⟨next, hopen, -⟩, -⟩ := h.built.feedAll h.brackets hfeed
      have hbrackets := Layout.openBrackets_read tabSize p.layout l
      rw [hlayout, hopen] at hbrackets
      contradiction
  | unbroken kind hnewline =>
      refine absurd (htaken.newline_mem kind ?_) hnewline
      rw [hpiece.text, List.append_assoc] at hlines
      exact hlines.of_append (by simp [htext])

theorem kind_endLexeme (last : Option (Lexeme Terminal)) :
    (endLexeme last).kind = .endOfInput := by
  unfold endLexeme
  split
  · split <;> rfl
  · rfl

theorem kind_of_mem_finish {s : Layout} {last : Option (Lexeme Terminal)} {l : Lexeme Terminal}
    (h : l ∈ s.finish last) : l.kind = .dedent := by
  obtain ⟨d, hd, -, hfinish⟩ := s.finish_eq last
  rw [hfinish] at h
  obtain ⟨_, -, rfl⟩ := List.mem_map.mp h
  exact hd

/-- How the input ends: at a level of indentation that cannot be closed, with a tree, or with an end
that comes too early. -/
theorem finish_cases (p : Progress) :
    (∃ rejection, feedAll p.stack (p.layout.finish p.lastRead) = .error rejection ∧
      p.finish = .error (.rejected rejection)) ∨
    ∃ stack, feedAll p.stack (p.layout.finish p.lastRead) = .ok stack ∧
      ((∃ tree, stack.finish = .ok tree ∧ p.finish = .ok tree) ∨
        ∃ s, stack.finish = .error s ∧ p.finish = .error (.rejected (rejectionOf s
          (endLexeme ((p.layout.finish p.lastRead).getLast?.or p.lastFed))))) := by
  unfold Progress.finish
  -- the end of the stack is kept closed, so that nothing computes its reductions
  obtain ⟨ending, hending⟩ : ∃ ending, Stack.finish = ending := ⟨_, rfl⟩
  simp only [hending]
  cases feedAll p.stack (p.layout.finish p.lastRead) with
  | error rejection => exact .inl ⟨rejection, rfl, rfl⟩
  | ok stack =>
      refine .inr ⟨stack, rfl, ?_⟩
      simp only
      cases ending stack with
      | ok tree => exact .inl ⟨tree, rfl, rfl⟩
      | error s => exact .inr ⟨s, rfl, rfl⟩

/-- Text of whole lines is never refused for what layout and parser have to keep between them. -/
theorem run_fault {entry : Nonterminal} {text : List Char} {fault : LayoutFault}
    (hlines : Lexer.WholeLines text) (h : run entry text = .error (.fault fault)) :
    ∃ error, fault = .lexical error ∧ error.reason.cause = none := by
  obtain ⟨ls, hruns⟩ := run_eq_iff.mp h
  have hsound := sound_start entry text
  generalize Progress.start entry text = p at hruns hsound
  generalize hresult : (Except.error (.fault fault) : Except Stop Tree) = result at hruns
  generalize ([] : List Char) = before at hsound
  induction hruns generalizing before with
  | @finished p found =>
      rcases finish_cases p with ⟨_, -, hp⟩ | ⟨_, -, ⟨_, -, hp⟩ | ⟨_, -, hp⟩⟩
      all_goals
        rw [hp] at hresult
        cases hresult
  | step first rest ih =>
      obtain ⟨skipped, -, -, -, hq, -⟩ := hsound.step first
      exact ih hresult _ hq
  | stopped found refused =>
      cases hresult
      exact hsound.read_fault hlines found refused
  | misplaced | unreadable => cases hresult

/-! ### The lexemes of a run -/

/-- The lexemes are pieces of the text behind `before`, one behind the other. -/
inductive Pieces (text : List Char) : List Char → List (Lexeme Terminal) → Prop
  | nil {before : List Char} : Pieces text before []
  | cons {l : Lexeme Terminal} {ls : List (Lexeme Terminal)} {before skipped after : List Char}
      (piece : Lexer.Piece l text (before ++ skipped) after) (taken : Lexer.TakenByKind l after)
      (visible : l.text.toList ≠ []) (behind : Pieces text (before ++ skipped ++ l.text.toList) ls) :
      Pieces text before (l :: ls)

theorem Pieces.of_append {text before more : List Char} {ls : List (Lexeme Terminal)}
    (h : Pieces text (before ++ more) ls) : Pieces text before ls := by
  cases h with
  | nil => exact .nil
  | cons piece taken visible behind =>
      rw [List.append_assoc before more] at piece behind
      exact .cons piece taken visible behind

theorem Pieces.filter {text before : List Char} {ls : List (Lexeme Terminal)}
    (h : Pieces text before ls) (test : Lexeme Terminal → Bool) :
    Pieces text before (ls.filter test) := by
  induction h with
  | nil => exact .nil
  | cons piece taken visible _ ih =>
      rw [List.filter_cons]
      split
      · exact .cons piece taken visible ih
      · rw [List.append_assoc] at ih
        exact ih.of_append

theorem Runs.pieces {p : Progress} {ls : List (Lexeme Terminal)} {result : Except Stop Tree}
    (h : Runs p ls result) {text before : List Char} (hp : p.Sound text before) :
    Pieces text before ls := by
  induction h generalizing before with
  | finished | stopped | misplaced | unreadable => exact .nil
  | step first _ ih =>
      obtain ⟨skipped, hpiece, htaken, htext, hq, -⟩ := hp.step first
      exact .cons hpiece htaken htext (ih hq)

/-- The strings in the tree are those of the run. -/
theorem Runs.strings {p : Progress} {ls : List (Lexeme Terminal)} {tree : Tree}
    (h : Runs p ls (.ok tree)) {text before : List Char} (hp : p.Sound text before) :
    tree.leaves.filter Source.isString = p.stack.strings ++ ls.filter Source.isString := by
  generalize hresult : (Except.ok tree : Except Stop Tree) = result at h
  induction h generalizing before with
  | @finished p found =>
      rcases finish_cases p with ⟨_, -, hfinish⟩ | ⟨stack, hfeed, hfinish⟩
      · rw [hfinish] at hresult
        cases hresult
      · rcases hfinish with ⟨_, hstack, hfinish⟩ | ⟨_, -, hfinish⟩
        · rw [hfinish] at hresult
          cases hresult
          obtain ⟨hbuilt, -, hstrings⟩ := hp.built.feedAll hp.brackets hfeed
          have hnone : ∀ l ∈ p.layout.finish p.lastRead, ¬Source.isString l = true := by
            intro l hl
            simp [Source.isString, kind_of_mem_finish hl]
          rw [hbuilt.strings_finish hstack, hstrings, List.filter_eq_nil_iff.mpr hnone]
          rfl
        · rw [hfinish] at hresult
          cases hresult
  | step first _ ih =>
      obtain ⟨skipped, -, -, -, hq, hstrings⟩ := hp.step first
      rw [ih hq hresult, hstrings, List.append_assoc, ← List.filter_append]
      rfl
  | stopped | misplaced | unreadable => cases hresult

/-- The strings in the tree of a text are pieces of the text, one behind the other. -/
theorem pieces_of_run {entry : Nonterminal} {text : List Char} {tree : Tree}
    (h : run entry text = .ok tree) : Pieces text [] (tree.leaves.filter Source.isString) := by
  obtain ⟨ls, hruns⟩ := run_eq_iff.mp h
  rw [hruns.strings (sound_start entry text)]
  exact (hruns.pieces (sound_start entry text)).filter _

end SyntaxTriage.Parser
