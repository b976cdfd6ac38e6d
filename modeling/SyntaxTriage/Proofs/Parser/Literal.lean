import SyntaxTriage.Proofs.Lexer.OpenString
import SyntaxTriage.Proofs.Parser.Reduction

/-!
Lines that hold a string literal between triple quotes and nothing else are read. In front of the
end of the line the literal is reduced to a statement, and the line is all that there is of the
file.
-/

namespace SyntaxTriage.Parser

open Grammar Lookahead

-- the lookahead sets and the bound on reductions are large, and nothing here should compute them
attribute [local irreducible] Lookahead.sets Lookahead.states

/-! ### The automaton on a literal -/

abbrev fileStart : State := State.start .fileInput

def simpleLine (rest : List Symbol) : Item where
  production := ⟨.simpleStmt, .unwrap "simple_stmt", [.sub .smallStmt, .mark .newline]⟩
  choice := 3
  rest := rest

def fileOfLines (rest : List Symbol) : Item where
  production := ⟨.fileInput, .node "file_input", [.sub .fileLines]⟩
  choice := 0
  rest := rest

theorem literal_facts : fileStart.canRead (.terminal .longString) = true ∧
    climb fileStart .newline 40 (.terminal .longString) = .nonterminal .smallStmt ∧
    simpleLine [.nonterminal .smallStmt, .terminal .newline] ∈ fileStart.opened ∧
    fileOfLines [.nonterminal .fileLines] ∈ fileStart.kernel := by decide +kernel

theorem line_facts :
    let line := (fileStart.goto (.nonterminal .smallStmt)).goto (.terminal .newline)
    (fileStart.goto (.nonterminal .smallStmt)).canRead (.terminal .newline) = true ∧
      line.kernel.filter (·.rest.isEmpty) = [simpleLine []] ∧
      line.opened.filter (·.rest.isEmpty) = [] ∧
      line.canRead (.terminal .endOfInput) = false := by decide +kernel

theorem file_facts :
    let lines := fileStart.goto (.nonterminal .fileLines)
    let whole := fileStart.goto (.nonterminal .fileInput)
    climb fileStart .endOfInput 3 (.nonterminal .simpleStmt) = .nonterminal .fileLines ∧
      lines.kernel.filter (·.rest.isEmpty) = [fileOfLines []] ∧
      lines.opened.filter (·.rest.isEmpty) = [] ∧
      lines.canRead (.terminal .endOfInput) = false ∧ whole.items = [] := by decide +kernel

/-- The characters are a string between triple quotes, and nothing else. -/
structure IsLiteral (body word behind : List Char) (q : Char) : Prop where
  opens : Lexer.Triple (body ++ ['\n']) word q behind
  closed : Lexer.longString (body ++ ['\n']) = some ['\n']

theorem fileStart_within : Within 0 fileStart := .start List.mem_cons_self

theorem fileStart_mem_states : fileStart ∈ states :=
  mem_states_of_short fileStart_within (Nat.zero_le _)

/-- A statement may end with its line. -/
theorem follows_newline : Follows fileStart .newline .smallStmt := by
  obtain ⟨-, -, hopened, -⟩ := literal_facts
  exact mem_sets_of_first fileStart_mem_states (List.mem_append_right _ hopened) rfl
    (mem_firstOf_terminal ..)

/-- A file may end with its lines. -/
theorem follows_endOfInput : Follows fileStart .endOfInput .fileLines := by
  obtain ⟨-, -, -, hkernel⟩ := literal_facts
  exact mem_sets_of_call fileStart_mem_states (mem_placed_kernel hkernel) rfl rfl
    (endOfInput_mem_sets List.mem_cons_self hkernel)

/-- In front of the end of the input, a line is reduced to a statement. -/
theorem reduction?_line : reduction? ((fileStart.goto (.nonterminal .smallStmt)).goto
    (.terminal .newline)) .endOfInput = some (simpleLine []).production := by
  obtain ⟨-, -, hopened, -⟩ := literal_facts
  obtain ⟨-, hkernel, hnone, -⟩ := line_facts
  obtain ⟨hclimb, -⟩ := file_facts
  have hfollows : Follows fileStart .endOfInput .simpleStmt :=
    follows_of_climb fileStart_mem_states follows_endOfInput hclimb
  exact @reduction?_of_opened _ _ _ (simpleLine []) _ [_] fileStart_within (by decide) hopened
    hfollows hkernel hnone

/-- In front of the end of the input, the lines are reduced to a file. -/
theorem reduction?_lines : reduction? (fileStart.goto (.nonterminal .fileLines)) .endOfInput =
    some (fileOfLines []).production := by
  obtain ⟨-, -, -, hstart⟩ := literal_facts
  obtain ⟨-, hkernel, hnone, -⟩ := file_facts
  exact @reduction?_of_kernel _ _ (fileOfLines []) _ [_] fileStart_within (by decide) hstart
    (endOfInput_mem_sets List.mem_cons_self hstart) hkernel hnone

/-! ### A line with a literal -/

namespace Stack

variable {base : Stack} (hbase : base.state = fileStart)

include hbase

/-- A literal is read at the beginning. -/
theorem feed_literal {l : Lexeme Terminal} (hl : l.kind = .longString) :
    base.feed l = .ok (base.push (.terminal .longString) [.leaf l]) := by
  obtain ⟨hread, -⟩ := literal_facts
  rw [← hbase, ← hl] at hread
  rw [← hl]
  exact feed_of_canRead hread

/-- The end of the line makes a statement of the literal. -/
theorem feed_lineEnd {n : Lexeme Terminal} (hn : n.kind = .newline) (trees : List Tree) :
    ∃ trees', (base.push (.terminal .longString) trees).feed n =
      .ok ((base.push (.nonterminal .smallStmt) trees').push (.terminal .newline) [.leaf n]) := by
  obtain ⟨-, hclimb, -⟩ := literal_facts
  obtain ⟨hread, -⟩ := line_facts
  have hstates : base.state ∈ states := hbase ▸ fileStart_mem_states
  have hfollows : Follows base.state .newline .smallStmt := hbase ▸ follows_newline
  rw [← hbase] at hclimb hread
  obtain ⟨trees', count, hcount, hleads⟩ := exists_leads_of_climb hstates hfollows hclimb trees
  rw [← hn] at hleads hread ⊢
  exact ⟨trees', hleads.feed_eq (by omega) hread⟩

/-- The end of the input makes a file of the line: first a statement, then lines, then the file. -/
theorem settle_line (trees trees' : List Tree) :
    ∃ file, ((base.push (.nonterminal .smallStmt) trees).push (.terminal .newline) trees').settle
      .endOfInput = base.push (.nonterminal .fileInput) [file] := by
  obtain ⟨-, -, -, hread⟩ := line_facts
  obtain ⟨hclimb, -, -, hreadLines, hitems⟩ := file_facts
  have hstates : base.state ∈ states := hbase ▸ fileStart_mem_states
  have hfollows : Follows base.state .endOfInput .fileLines := hbase ▸ follows_endOfInput
  have hline := reduction?_line
  have hlines := reduction?_lines
  have hfile := reduction?_of_nil hitems .endOfInput
  rw [← hbase] at hread hclimb hreadLines hline hlines hfile
  rw [← state_push base _ trees, ← state_push _ _ trees'] at hread hline
  have hstatement := Leads.of_reduction hread hline
  rw [reduce_push_push rfl] at hstatement
  obtain ⟨lines, count, hcount, hclimbed⟩ := exists_leads_of_climb hstates hfollows hclimb
    ((simpleLine []).production.shape.apply (childrenOf (simpleLine []).production
      ((base.push (.nonterminal .smallStmt) trees).push (.terminal .newline) trees').frames))
  rw [← state_push base _ lines] at hreadLines hlines
  have hwhole := Leads.of_reduction hreadLines hlines
  obtain ⟨file, htrees⟩ : ∃ file, (fileOfLines []).production.shape.apply
      (childrenOf (fileOfLines []).production (base.push (.nonterminal .fileLines) lines).frames) =
        [file] := ⟨_, rfl⟩
  rw [reduce_push rfl, htrees] at hwhole
  exact ⟨file, ((hstatement.trans hclimbed).trans hwhole).settle_eq (by omega) hfile⟩

end Stack

/-- A stack takes a literal with the end of its line, and the input can end behind them. -/
theorem Stack.exists_of_literal {l n : Lexeme Terminal} (hl : l.kind = .longString)
    (hn : n.kind = .newline) : ∃ s s' tree, (Stack.empty .fileInput).feed l = .ok s ∧
      s.feed n = .ok s' ∧ s'.finish = .ok tree := by
  have hstart : (empty .fileInput).state = fileStart := by rw [state_empty]
  obtain ⟨trees, hfed⟩ := feed_lineEnd hstart hn [.leaf l]
  obtain ⟨file, hfile⟩ := settle_line hstart trees [.leaf n]
  exact ⟨_, _, file, feed_literal hstart hl, hfed, finish_of_settle hfile⟩

/-! ### A text with a literal -/

attribute [local irreducible] Stack.settle

def literalOf (body : List Char) : Lexeme Terminal :=
  (Lexer.Cursor.take ⟨body ++ ['\n'], {}⟩ .longString body.length).1

def behindLiteral (body : List Char) : Lexer.Cursor :=
  (Lexer.Cursor.take ⟨body ++ ['\n'], {}⟩ .longString body.length).2

def lineEndOf (body : List Char) : Lexeme Terminal := ((behindLiteral body).take .newline 1).1

theorem rest_behindLiteral (body : List Char) : (behindLiteral body).rest = ['\n'] :=
  List.drop_left

theorem finds_literal {body word behind : List Char} {q : Char} {candidates : TerminalSet}
    (h : IsLiteral body word behind q) (ht : Terminal.longString ∈ candidates) :
    Lexer.Finds candidates ⟨body ++ ['\n'], {}⟩
      (.lexeme (literalOf body) (behindLiteral body)) := by
  have hlength : ['\n'].length < (body ++ ['\n']).length := by
    have htotal := congrArg List.length h.opens.text
    simp only [List.length_append, List.length_cons, List.length_nil] at htotal ⊢
    omega
  have hfirst := h.opens.first?_of_closed h.closed hlength ht
  rw [List.length_append, Nat.add_sub_cancel] at hfirst
  exact .lexeme hfirst rfl

/-- A line with nothing but a string between triple quotes is read, and the string is what is found
in it. -/
theorem run_literal {body word behind : List Char} {q : Char}
    (h : IsLiteral body word behind q) :
    ∃ tree, run .fileInput (body ++ ['\n']) = .ok tree ∧
      tree.leaves.filter Source.isString = [literalOf body] := by
  obtain ⟨hread, -⟩ := literal_facts
  have hliteral : Terminal.longString ∈ candidates fileStart ∪ Lexer.always :=
    BitSet.mem_union.mpr (.inl (mem_candidates.mpr (.inl hread)))
  obtain ⟨s, s', tree, hfeed, hfeed', hfinish⟩ :=
    @Stack.exists_of_literal (literalOf body) (lineEndOf body) rfl rfl
  have hfirst : Steps (.start .fileInput (body ++ ['\n'])) (literalOf body)
      ⟨behindLiteral body, {}, some (literalOf body), s, some (literalOf body)⟩ :=
    .of_feed (Lexer.next_eq_iff.mpr (finds_literal h hliteral)) rfl hfeed
  have hline : Runs ⟨behindLiteral body, {}, some (literalOf body), s, some (literalOf body)⟩
      [lineEndOf body] (.ok tree) :=
    .of_lastLine rfl (rest_behindLiteral body) hfeed' hfinish
  have hruns := Runs.step hfirst hline
  refine ⟨tree, run_eq_iff.mpr ⟨_, hruns⟩, ?_⟩
  rw [hruns.strings (sound_start .fileInput _), List.filter_cons_of_pos rfl,
    List.filter_cons_of_neg Bool.false_ne_true]
  rfl

end SyntaxTriage.Parser
