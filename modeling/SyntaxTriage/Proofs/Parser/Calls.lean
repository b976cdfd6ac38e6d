import SyntaxTriage.Proofs.Grammar.Opening
import SyntaxTriage.Proofs.Lexer.Delimiters
import SyntaxTriage.Proofs.Parser.Reduction

/-!
Empty parentheses in a row. The first pair is a tuple, and each pair behind it calls what stands in
front of it. Between the parentheses a line may end, with a comment; layout leaves it out.
-/

namespace SyntaxTriage.Parser

open Grammar Lookahead

-- the lookahead sets and the bound on reductions are large, and nothing here should compute them
attribute [local irreducible] Lookahead.sets Lookahead.states

/-! ### The automaton on parentheses -/

abbrev evalStart : State := State.start .evalInput

def emptyTuple (rest : List Symbol) : Item where
  production := ⟨.atom, .node "tuple", [.mark .leftParen, .mark .rightParen]⟩
  choice := 1
  rest := rest

def emptyCall (rest : List Symbol) : Item where
  production := ⟨.atomExpr, .node "funccall",
    [.sub .atomExpr, .mark .leftParen, .absent, .mark .rightParen]⟩
  choice := 1
  rest := rest

def wholeInput (rest : List Symbol) : Item where
  production := ⟨.evalInput, .node "eval_input", [.sub .testList, .sub .emptyLines]⟩
  choice := 0
  rest := rest

/-- What may stand behind empty parentheses here: those of a call, or the end of the line. -/
def behindCall : List Terminal := [.leftParen, .newline]

theorem start_facts : evalStart.canRead (.terminal .leftParen) = true ∧
    emptyTuple [.terminal .leftParen, .terminal .rightParen] ∈ evalStart.opened ∧
    emptyCall [.nonterminal .atomExpr, .terminal .leftParen, .terminal .rightParen] ∈
      evalStart.opened ∧
    wholeInput [.nonterminal .testList, .nonterminal .emptyLines] ∈ evalStart.kernel := by
  decide +kernel

theorem climb_facts :
    (∀ t ∈ behindCall, climb evalStart t 1 (.nonterminal .atom) = .nonterminal .atomExpr) ∧
    climb evalStart .newline 20 (.nonterminal .atomExpr) = .nonterminal .testList := by
  decide +kernel

theorem tuple_facts :
    let opened := evalStart.goto (.terminal .leftParen)
    let closed := opened.goto (.terminal .rightParen)
    opened.canRead (.terminal .rightParen) = true ∧
      closed.kernel.filter (·.rest.isEmpty) = [emptyTuple []] ∧
      closed.opened.filter (·.rest.isEmpty) = [] ∧
      ∀ t ∈ behindCall, closed.canRead (.terminal t) = false := by decide +kernel

theorem call_facts :
    let called := evalStart.goto (.nonterminal .atomExpr)
    let opened := called.goto (.terminal .leftParen)
    let closed := opened.goto (.terminal .rightParen)
    called.canRead (.terminal .leftParen) = true ∧ opened.canRead (.terminal .rightParen) = true ∧
      closed.kernel.filter (·.rest.isEmpty) = [emptyCall []] ∧
      closed.opened.filter (·.rest.isEmpty) = [] ∧
      ∀ t ∈ behindCall, closed.canRead (.terminal t) = false := by decide +kernel

theorem whole_facts :
    let tests := evalStart.goto (.nonterminal .testList)
    let lines := tests.goto (.nonterminal .emptyLines)
    tests.canRead (.terminal .newline) = true ∧
      climb tests .endOfInput 3 (.terminal .newline) = .nonterminal .emptyLines ∧
      lines.kernel.filter (·.rest.isEmpty) = [wholeInput []] ∧
      lines.opened.filter (·.rest.isEmpty) = [] ∧
      lines.canRead (.terminal .endOfInput) = false ∧
      (evalStart.goto (.nonterminal .evalInput)).items = [] := by decide +kernel

/-- In front of what may stand behind a call the stack is reduced to one expression. -/
structure Stack.IsCall (base s : Stack) : Prop where
  leads : ∀ t ∈ behindCall, ∃ trees count, count ≤ 2 ∧
    Stack.Leads t count s (base.push (.nonterminal .atomExpr) trees)
  callable : Terminal.leftParen ∈ candidates s.state

structure Stack.TakesParentheses (base s : Stack) : Prop where
  opens : Terminal.leftParen ∈ candidates s.state
  feed : ∀ l r : Lexeme Terminal, l.kind = .leftParen → r.kind = .rightParen → ∃ s' s'',
    s.feed l = .ok s' ∧ Terminal.rightParen ∈ candidates s'.state ∧ s'.feed r = .ok s'' ∧
      Stack.IsCall base s''

theorem evalStart_within : Within 0 evalStart := .start (by decide)

theorem evalStart_mem_states : evalStart ∈ states :=
  mem_states_of_short evalStart_within (Nat.zero_le _)

/-- Empty lines begin with the end of a line. -/
theorem newline_mem_firstOf : Terminal.newline ∈ firstOf [.nonterminal .emptyLines] := by
  have hexposed : Symbol.terminal .newline ∈ exposedIn .emptyLines := by decide +kernel
  refine mem_firstOf.mpr ⟨_, ?_, mem_first_nonterminal.mpr ⟨_, .refl, hexposed⟩⟩
  rw [exposed]
  split <;> exact List.mem_cons_self

/-- A call may be called, and may end with its line. -/
theorem follows_call {t : Terminal} (ht : t ∈ behindCall) : Follows evalStart t .atomExpr := by
  obtain ⟨-, -, hcall, hwhole⟩ := start_facts
  simp only [behindCall, List.mem_cons, List.not_mem_nil, or_false] at ht
  rcases ht with rfl | rfl
  · exact mem_sets_of_first evalStart_mem_states (List.mem_append_right _ hcall) rfl
      (mem_firstOf_terminal ..)
  · have htests : Follows evalStart .newline .testList :=
      mem_sets_of_first evalStart_mem_states (List.mem_append_left _ hwhole) rfl newline_mem_firstOf
    exact follows_of_climb evalStart_mem_states htests climb_facts.2

/-- Empty parentheses are a tuple. -/
theorem reduction?_tuple {t : Terminal} (ht : t ∈ behindCall) :
    reduction? ((evalStart.goto (.terminal .leftParen)).goto (.terminal .rightParen)) t =
      some (emptyTuple []).production := by
  obtain ⟨-, htuple, -, -⟩ := start_facts
  obtain ⟨-, hkernel, hopened, -⟩ := tuple_facts
  have hfollows : Follows evalStart t .atom :=
    follows_of_climb evalStart_mem_states (follows_call ht) (climb_facts.1 t ht)
  exact @reduction?_of_opened _ _ _ (emptyTuple []) _ [_] evalStart_within (by decide) htuple
    hfollows hkernel hopened

/-- Behind an expression empty parentheses are a call. -/
theorem reduction?_call {t : Terminal} (ht : t ∈ behindCall) :
    reduction? (((evalStart.goto (.nonterminal .atomExpr)).goto (.terminal .leftParen)).goto
      (.terminal .rightParen)) t = some (emptyCall []).production := by
  obtain ⟨-, -, hcall, -⟩ := start_facts
  obtain ⟨-, -, hkernel, hopened, -⟩ := call_facts
  exact @reduction?_of_opened _ _ _ (emptyCall []) _ [_, _] evalStart_within (by decide) hcall
    (follows_call ht) hkernel hopened

/-- Lines may end with the input. -/
theorem follows_emptyLines :
    Follows (evalStart.goto (.nonterminal .testList)) .endOfInput .emptyLines := by
  obtain ⟨-, -, -, hwhole⟩ := start_facts
  have hread := canRead_of_mem_items (i := wholeInput []) (List.mem_append_left _ hwhole)
  have hstates := mem_states_of_short (evalStart_within.goto hread) (by decide)
  have hadvance := advance?_cons (wholeInput []) (.nonterminal .testList) [.nonterminal .emptyLines]
  have hkernel := mem_kernel_goto (List.mem_append_left _ hwhole) hadvance
  refine mem_sets_of_call hstates (mem_placed_kernel hkernel) rfl rfl ?_
  exact mem_sets_of_move evalStart_mem_states (mem_placed_kernel hwhole) hadvance
    (endOfInput_mem_sets (by decide) hwhole)

/-- An expression and the end of its line are the whole input. -/
theorem reduction?_whole : reduction? ((evalStart.goto (.nonterminal .testList)).goto
    (.nonterminal .emptyLines)) .endOfInput = some (wholeInput []).production := by
  obtain ⟨-, -, -, hwhole⟩ := start_facts
  obtain ⟨-, -, hkernel, hopened, -⟩ := whole_facts
  exact @reduction?_of_kernel _ _ (wholeInput []) _ [_, _] evalStart_within (by decide) hwhole
    (endOfInput_mem_sets (by decide) hwhole) hkernel hopened

/-! ### Parentheses on the stack -/

namespace Stack

variable {base s : Stack}

section

variable (hbase : base.state = evalStart)

include hbase

theorem isCall_tuple (trees trees' : List Tree) :
    IsCall base ((base.push (.terminal .leftParen) trees).push (.terminal .rightParen) trees') := by
  obtain ⟨-, -, -, hread⟩ := tuple_facts
  have hreduction (t : Terminal) (ht : t ∈ behindCall) := reduction?_tuple ht
  rw [← hbase, ← state_push base _ trees, ← state_push _ _ trees'] at hread hreduction
  refine ⟨fun t ht => ?_, mem_candidates_of_reduction? (hreduction .leftParen (by decide))⟩
  have hatom := Leads.of_reduction (hread t ht) (hreduction t ht)
  rw [reduce_push_push rfl] at hatom
  have hstates : base.state ∈ states := hbase ▸ evalStart_mem_states
  have hfollows : Follows base.state t .atomExpr := hbase ▸ follows_call ht
  have hclimb := climb_facts.1 t ht
  rw [← hbase] at hclimb
  obtain ⟨trees, count, hcount, hleads⟩ := exists_leads_of_climb hstates hfollows hclimb _
  exact ⟨trees, 1 + count, by omega, hatom.trans hleads⟩

theorem isCall_call (trees trees' trees'' : List Tree) :
    IsCall base (((base.push (.nonterminal .atomExpr) trees).push (.terminal .leftParen)
      trees').push (.terminal .rightParen) trees'') := by
  obtain ⟨-, -, -, -, hread⟩ := call_facts
  have hreduction (t : Terminal) (ht : t ∈ behindCall) := reduction?_call ht
  rw [← hbase, ← state_push base _ trees, ← state_push _ _ trees', ← state_push _ _ trees'']
    at hread hreduction
  refine ⟨fun t ht => ?_, mem_candidates_of_reduction? (hreduction .leftParen (by decide))⟩
  have hcall := Leads.of_reduction (hread t ht) (hreduction t ht)
  rw [reduce_push_push_push rfl] at hcall
  exact ⟨_, 1, by decide, hcall⟩

/-- At the beginning parentheses are a tuple. -/
theorem takesParentheses_start : TakesParentheses base base := by
  obtain ⟨hopens, -⟩ := start_facts
  obtain ⟨hcloses, -⟩ := tuple_facts
  rw [← hbase] at hopens hcloses
  refine ⟨mem_candidates.mpr (.inl hopens), fun l r hl hr => ?_⟩
  rw [← state_push base _ [.leaf l]] at hcloses
  refine ⟨_, _, feed_of_canRead (hl ▸ hopens), ?_, feed_of_canRead ?_, ?_⟩
  · rw [hl]
    exact mem_candidates.mpr (.inl hcloses)
  · rw [hl, hr]
    exact hcloses
  · rw [hl, hr]
    exact isCall_tuple hbase _ _

/-- Behind a call parentheses are another one. -/
theorem IsCall.takesParentheses (h : IsCall base s) : TakesParentheses base s := by
  obtain ⟨hopens, hcloses, -⟩ := call_facts
  rw [← hbase] at hopens hcloses
  refine ⟨h.callable, fun l r hl hr => ?_⟩
  obtain ⟨trees, count, hcount, hleads⟩ := h.leads .leftParen (by decide)
  rw [← state_push base _ trees] at hopens hcloses
  rw [← state_push _ _ [.leaf l]] at hcloses
  rw [← hl] at hleads
  refine ⟨_, _, hleads.feed_eq (by omega) (hl ▸ hopens), ?_, feed_of_canRead ?_, ?_⟩
  · rw [hl]
    exact mem_candidates.mpr (.inl hcloses)
  · rw [hl, hr]
    exact hcloses
  · rw [hl, hr]
    exact isCall_call hbase _ _ _

/-- A call takes the end of its line. -/
theorem IsCall.feed_lineEnd (h : IsCall base s) {n : Lexeme Terminal} (hn : n.kind = .newline) :
    ∃ trees, s.feed n =
      .ok ((base.push (.nonterminal .testList) trees).push (.terminal .newline) [.leaf n]) := by
  obtain ⟨-, -, -, hwhole⟩ := start_facts
  obtain ⟨hread, -⟩ := whole_facts
  have hclimb := climb_facts.2
  obtain ⟨trees, count, hcount, hleads⟩ := h.leads .newline (by decide)
  have hstates : base.state ∈ states := hbase ▸ evalStart_mem_states
  have hfollows : Follows base.state .newline .testList := by
    rw [hbase]
    exact mem_sets_of_first evalStart_mem_states (List.mem_append_left _ hwhole) rfl
      newline_mem_firstOf
  rw [← hbase] at hread hclimb
  obtain ⟨trees', count', hcount', hclimbed⟩ := exists_leads_of_climb hstates hfollows hclimb trees
  have hall := hleads.trans hclimbed
  rw [← state_push base _ trees'] at hread
  rw [← hn] at hall hread ⊢
  exact ⟨trees', hall.feed_eq (by omega) hread⟩

/-- The end of the input makes the whole of an expression and the end of its line. -/
theorem settle_whole (trees trees' : List Tree) :
    ∃ whole, ((base.push (.nonterminal .testList) trees).push (.terminal .newline) trees').settle
      .endOfInput = base.push (.nonterminal .evalInput) [whole] := by
  obtain ⟨-, -, -, hwhole⟩ := start_facts
  obtain ⟨-, hclimb, -, -, hread, hitems⟩ := whole_facts
  have hfollows := follows_emptyLines
  have hreduction := reduction?_whole
  have hdone := reduction?_of_nil hitems .endOfInput
  have hreadTests := canRead_of_mem_items (i := wholeInput []) (List.mem_append_left _ hwhole)
  have hstates := mem_states_of_short (evalStart_within.goto hreadTests) (by decide)
  rw [← hbase] at hdone
  rw [← hbase, ← state_push base _ trees] at hclimb hfollows hreduction hread hstates
  obtain ⟨lines, count, hcount, hlines⟩ := exists_leads_of_climb hstates hfollows hclimb trees'
  rw [← state_push _ _ lines] at hread hreduction
  have hall := Leads.of_reduction hread hreduction
  rw [reduce_push_push rfl] at hall
  exact ⟨_, (hlines.trans hall).settle_eq (by omega) hdone⟩

end

/-- The input may end behind the line of a call. -/
theorem IsCall.exists_tree (h : IsCall (empty .evalInput) s) {n : Lexeme Terminal}
    (hn : n.kind = .newline) : ∃ s' tree, s.feed n = .ok s' ∧ s'.finish = .ok tree := by
  have hstart : (empty .evalInput).state = evalStart := by rw [state_empty]
  obtain ⟨trees, hfeed⟩ := h.feed_lineEnd hstart hn
  obtain ⟨tree, hwhole⟩ := settle_whole hstart trees [.leaf n]
  exact ⟨_, tree, hfeed, finish_of_settle hwhole⟩

end Stack

/-! ### Parentheses in a text -/

attribute [local irreducible] Stack.settle

def pairText (comment : List Char) : List Char := '(' :: '#' :: (comment ++ ['\n', ')'])

def callText (comments : List (List Char)) : List Char := comments.flatMap pairText ++ ['\n']

theorem callText_cons (comment : List Char) (comments : List (List Char)) :
    callText (comment :: comments) = pairText comment ++ callText comments := by
  simp [callText]

section

variable (c : Lexer.Cursor) (comment : List Char)

def openingAt : Lexeme Terminal := (c.take .leftParen 1).1

def behindOpening : Lexer.Cursor := (c.take .leftParen 1).2

def lineAt : Lexeme Terminal := ((behindOpening c).take .newline (comment.length + 2)).1

def behindLine : Lexer.Cursor := ((behindOpening c).take .newline (comment.length + 2)).2

def closingAt : Lexeme Terminal := ((behindLine c comment).take .rightParen 1).1

def behindPair : Lexer.Cursor := ((behindLine c comment).take .rightParen 1).2

def pairLexemes : List (Lexeme Terminal) := [openingAt c, lineAt c comment, closingAt c comment]

end

def callLexemes : Lexer.Cursor → List (List Char) → List (Lexeme Terminal)
  | c, [] => [(c.take .newline 1).1]
  | c, comment :: comments =>
    pairLexemes c comment ++ callLexemes (behindPair c comment) comments

variable {comment text : List Char}

section

variable {c : Lexer.Cursor} {ts : TerminalSet} (hrest : c.rest = pairText comment ++ text)

include hrest

theorem rest_behindOpening :
    (behindOpening c).rest = '#' :: (comment ++ '\n' :: ')' :: text) := by
  show c.rest.drop 1 = _
  rw [hrest]
  simp [pairText]

theorem rest_behindLine : (behindLine c comment).rest = ')' :: text := by
  show (behindOpening c).rest.drop (comment.length + 2) = _
  rw [rest_behindOpening hrest]
  simp [← List.drop_drop]

theorem rest_behindPair : (behindPair c comment).rest = text := by
  show (behindLine c comment).rest.drop 1 = _
  rw [rest_behindLine hrest]
  rfl

theorem next_opening (ht : Terminal.leftParen ∈ ts) :
    Lexer.next ts c = .lexeme (openingAt c) (behindOpening c) := by
  refine Lexer.next_of_first? ?_ rfl
  rw [hrest]
  exact Lexer.Parenthesis.left.first?_eq (BitSet.mem_union.mpr (.inl ht)) _

theorem next_line (hcomment : '\n' ∉ comment) :
    Lexer.next ts (behindOpening c) = .lexeme (lineAt c comment) (behindLine c comment) := by
  refine Lexer.next_of_first? ?_ rfl
  rw [rest_behindOpening hrest]
  exact Lexer.first?_comment hcomment (Lexer.newline_mem ts) text

theorem next_closing (ht : Terminal.rightParen ∈ ts) :
    Lexer.next ts (behindLine c comment) =
      .lexeme (closingAt c comment) (behindPair c comment) := by
  refine Lexer.next_of_first? ?_ rfl
  rw [rest_behindLine hrest]
  exact Lexer.Parenthesis.right.first?_eq (BitSet.mem_union.mpr (.inl ht)) text

end

variable {base : Stack} {p : Progress}

/-- A run goes on behind parentheses that the stack takes, with one expression on the stack. -/
theorem exists_behindPair (hstack : Stack.TakesParentheses base p.stack) (hlayout : p.layout = {})
    (hcomment : '\n' ∉ comment) (hrest : p.cursor.rest = pairText comment ++ text) :
    ∃ q : Progress, q.cursor = behindPair p.cursor comment ∧ q.layout = {} ∧
      Stack.IsCall base q.stack ∧
      ∀ ls result, Runs q ls result → Runs p (pairLexemes p.cursor comment ++ ls) result := by
  obtain ⟨s, s', hopening, hcloses, hclosing, hcall⟩ :=
    hstack.feed (openingAt p.cursor) (closingAt p.cursor comment) rfl rfl
  -- layout takes the parentheses, and leaves out the line break between them
  have hfirst : Steps p (openingAt p.cursor) ⟨behindOpening p.cursor, { brackets := 1 },
      some (openingAt p.cursor), s, some (openingAt p.cursor)⟩ :=
    .of_feed (next_opening hrest hstack.opens) (by rw [hlayout]; rfl) hopening
  have hsecond : Steps ⟨behindOpening p.cursor, { brackets := 1 }, some (openingAt p.cursor), s,
      some (openingAt p.cursor)⟩ (lineAt p.cursor comment)
      ⟨behindLine p.cursor comment, { brackets := 1 }, some (lineAt p.cursor comment), s,
        some (openingAt p.cursor)⟩ :=
    .of_silent (next_line hrest hcomment) rfl
  have hthird : Steps ⟨behindLine p.cursor comment, { brackets := 1 },
      some (lineAt p.cursor comment), s, some (openingAt p.cursor)⟩ (closingAt p.cursor comment)
      ⟨behindPair p.cursor comment, {}, some (closingAt p.cursor comment), s',
        some (closingAt p.cursor comment)⟩ :=
    .of_feed (next_closing hrest hcloses) rfl hclosing
  exact ⟨_, rfl, rfl, hcall, fun ls result hrun => .step hfirst (.step hsecond (.step hthird hrun))⟩

/-- A run over the rest of a line of parentheses. -/
theorem exists_runs_behindCall {comments : List (List Char)}
    (hstack : Stack.IsCall (.empty .evalInput) p.stack) (hlayout : p.layout = {})
    (hcomments : ∀ comment ∈ comments, '\n' ∉ comment)
    (hrest : p.cursor.rest = callText comments) :
    ∃ tree, Runs p (callLexemes p.cursor comments) (.ok tree) := by
  induction comments generalizing p with
  | nil =>
      obtain ⟨s, tree, hfeed, hfinish⟩ :=
        @Stack.IsCall.exists_tree _ hstack (p.cursor.take .newline 1).1 rfl
      exact ⟨tree, .of_lastLine hlayout hrest hfeed hfinish⟩
  | cons comment comments ih =>
      obtain ⟨hcomment, hcomments⟩ := List.forall_mem_cons.mp hcomments
      rw [callText_cons] at hrest
      have hstart : (Stack.empty .evalInput).state = evalStart := by rw [Stack.state_empty]
      obtain ⟨q, hcursor, hlayout, hcall, hruns⟩ :=
        exists_behindPair (hstack.takesParentheses hstart) hlayout hcomment hrest
      obtain ⟨tree, hrun⟩ := ih hcall hlayout hcomments (by rw [hcursor, rest_behindPair hrest])
      rw [hcursor] at hrun
      exact ⟨tree, hruns _ _ hrun⟩

/-- A line of parentheses is an expression: a tuple and any number of calls. -/
theorem exists_runs_calls {comments : List (List Char)} (hne : comments ≠ [])
    (hcomments : ∀ comment ∈ comments, '\n' ∉ comment) :
    ∃ tree, Runs (.start .evalInput (callText comments))
      (callLexemes ⟨callText comments, {}⟩ comments) (.ok tree) := by
  cases comments with
  | nil => contradiction
  | cons comment comments =>
      obtain ⟨hcomment, hcomments⟩ := List.forall_mem_cons.mp hcomments
      have hstart : (Stack.empty .evalInput).state = evalStart := by rw [Stack.state_empty]
      obtain ⟨q, hcursor, hlayout, hcall, hruns⟩ :=
        @exists_behindPair _ _ _ (.start .evalInput (callText (comment :: comments)))
          (Stack.takesParentheses_start hstart) rfl hcomment (callText_cons comment comments)
      obtain ⟨tree, hrun⟩ := exists_runs_behindCall hcall hlayout hcomments
        (by rw [hcursor]; exact rest_behindPair (callText_cons comment comments))
      rw [hcursor] at hrun
      exact ⟨tree, hruns _ _ hrun⟩

/-- There are no strings in such a line. -/
theorem filter_isString_callLexemes (c : Lexer.Cursor) (comments : List (List Char)) :
    (callLexemes c comments).filter Source.isString = [] := by
  induction comments generalizing c with
  | nil => rfl
  | cons comment comments ih =>
      rw [callLexemes, List.filter_append, ih]
      rfl

end SyntaxTriage.Parser
