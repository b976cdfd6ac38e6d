import SyntaxTriage.Proofs.Parser.Continuation
import SyntaxTriage.Proofs.Source.Enclosure
import SyntaxTriage.Proofs.Source.Prefix

/-!
What a verdict of incompleteness is worth. There are four stops of the parser behind it: the end of
the input, an indentation that is refused, anything in the place of an indented block, and a line
that returns to no open level. A source with this verdict is the beginning of a valid one if it is
read to its end and holds no malformed string: from there a completion can be written. No other
lines are: what stops the parser in front of the end stays there, whatever follows.
-/

namespace SyntaxTriage

open Grammar

namespace Parser

/-! ### Stops -/

/-- How the parser may stop. -/
theorem Runs.stop_cases {p : Progress} {ls : List (Lexeme Terminal)} {stop : Stop}
    (h : Runs p ls (.error stop)) :
    (∃ s l, stop = .rejected (rejectionOf s l)) ∨
      (∃ c line column, stop = .rejected (.character c line column)) ∨
        ∃ fault, stop = .fault fault := by
  generalize hresult : (Except.error stop : Except Stop Tree) = result at h
  induction h with
  | @finished p found =>
      rcases finish_cases p with ⟨_, hfeed, hp⟩ | ⟨_, -, ⟨_, -, hp⟩ | ⟨s, -, hp⟩⟩
      · cases hresult.trans hp
        obtain ⟨s, l, -, rfl⟩ := feedAll_eq_error hfeed
        exact .inl ⟨s, l, rfl⟩
      · cases hresult.trans hp
      · cases hresult.trans hp
        exact .inl ⟨s, _, rfl⟩
  | step _ _ ih => exact ih hresult
  | @stopped p l behind stop found refused =>
      cases hresult
      cases hfeed : feedAll p.stack (p.layout.read tabSize l).emitted with
      | error rejection =>
          cases refused.symm.trans (read_of_feedAll_error behind hfeed)
          obtain ⟨s, l, -, rfl⟩ := feedAll_eq_error hfeed
          exact .inl ⟨s, l, rfl⟩
      | ok stack =>
          cases hlayout : (p.layout.read tabSize l).next with
          | error fault =>
              unfold Progress.read at refused
              simp only [hfeed, hlayout] at refused
              cases refused
              exact .inr (.inr ⟨fault, rfl⟩)
          | ok layout => cases refused.symm.trans (read_eq_ok_iff.mpr ⟨_, _, hfeed, hlayout, rfl⟩)
  | @misplaced p l found =>
      cases hresult
      exact .inl ⟨p.stack, l, rfl⟩
  | unreadable found =>
      cases hresult
      exact .inr (.inl ⟨_, _, _, rfl⟩)

/-- What the parser stops at if more input is said to be needed. -/
inductive CallsForMore : Stop → Prop
  /-- The input ends too early. -/
  | endOfInput (s : Stack) {l : Lexeme Terminal} (kind : l.kind = .endOfInput) :
      CallsForMore (.rejected (rejectionOf s l))
  /-- A line is indented that must not be. -/
  | indent {s : Stack} {l : Lexeme Terminal} (kind : l.kind = .indent)
      (reported : s.reported ≠ [.endOfInput]) : CallsForMore (.rejected (rejectionOf s l))
  /-- An indented block has to come. -/
  | block {s : Stack} (l : Lexeme Terminal) (reported : s.reported = [.indent]) :
      CallsForMore (.rejected (rejectionOf s l))
  /-- A line returns to a level that is not open. -/
  | level (location : Location) :
      CallsForMore (.fault (.lexical ⟨.indentationError, location⟩))

theorem CallsForMore.isIncomplete {rejection : Rejection}
    (h : CallsForMore (.rejected rejection)) : rejection.isIncomplete = true := by
  cases h with
  | endOfInput s kind => exact (isIncomplete_rejectionOf s _).mpr (.inl kind)
  | @indent s l kind reported =>
      exact (isIncomplete_rejectionOf s l).mpr (.inr (.inl ⟨kind, reported⟩))
  | @block s l reported => exact (isIncomplete_rejectionOf s l).mpr (.inr (.inr reported))

theorem callsForMore_of_isIncomplete {s : Stack} {l : Lexeme Terminal}
    (h : (rejectionOf s l).isIncomplete = true) :
    CallsForMore (.rejected (rejectionOf s l)) := by
  rcases (isIncomplete_rejectionOf s l).mp h with hkind | ⟨hkind, hreported⟩ | hreported
  · exact .endOfInput s hkind
  · exact .indent hkind hreported
  · exact .block l hreported

end Parser

namespace Source

/-! ### Verdicts -/

/-- The source is refused, and the verdict is that more input is needed. -/
def Incomplete (mode : Mode) (source : String) : Prop :=
  ∃ error, (parse mode source).result = .error (.invalid error) ∧
    error.reason.isIncomplete = true

/-- With some more input the source is valid. -/
def CanContinue (mode : Mode) (source : String) : Prop :=
  ∃ more tree, (parse mode (source ++ more)).result = .ok tree

theorem incomplete_of_stop {mode : Mode} {source : String} {stop : Parser.Stop}
    (hrun : Parser.run mode.entry (complete source.toList) = .error stop)
    (h : Parser.CallsForMore stop) : Incomplete mode source := by
  cases stop with
  | rejected rejection =>
      refine ⟨_, judged_iff.mpr (.refused hrun rfl), ?_⟩
      rw [Rejection.reason_toFailure]
      exact h.isIncomplete
  | fault fault =>
      cases h with
      | level location => exact ⟨_, judged_iff.mpr (.refused hrun rfl), rfl⟩

/-- Only the parser finds that more input is needed, for one of four reasons. -/
theorem incomplete_iff {mode : Mode} {source : String} :
    Incomplete mode source ↔ ∃ stop,
      Parser.run mode.entry (complete source.toList) = .error stop ∧ Parser.CallsForMore stop := by
  refine ⟨?_, fun ⟨stop, hrun, h⟩ => incomplete_of_stop hrun h⟩
  rintro ⟨error, hparse, hincomplete⟩
  generalize hresult : (Except.error (.invalid error) : Except Halt Tree) = result at hparse
  cases judged_iff.mp hparse with
  | string =>
      cases hresult
      cases hincomplete
  | valid => cases hresult
  | @refused stop failure run shape =>
      cases hresult
      refine ⟨stop, run, ?_⟩
      obtain ⟨ls, hruns⟩ := Parser.run_eq_iff.mp run
      rcases hruns.stop_cases with ⟨s, l, rfl⟩ | ⟨c, line, column, rfl⟩ | ⟨fault, rfl⟩
      · cases shape
        rw [Rejection.reason_toFailure] at hincomplete
        exact Parser.callsForMore_of_isIncomplete hincomplete
      · cases shape
        cases hincomplete
      · cases fault with
        | lexical error =>
            cases shape
            obtain ⟨reason, location⟩ := error
            obtain rfl : reason = .indentationError := by
              simpa [Failure.toParseError, ParseReason.isIncomplete, ParseReason.isIndentation]
                using hincomplete
            exact .level location
        | unopenedBracket | noLineBreak => cases shape

/-! ### Sources that can be continued -/

/-- The source is read to its end, nothing is to be said against its strings, and then the input
ends too early, or a level of indentation where an indented block has to come. -/
structure StopsShort (mode : Mode) (source : String) : Prop where
  all : Parser.ReadsAll (.start mode.entry (complete source.toList))
  refused : ∃ ls s l, Parser.Runs (.start mode.entry (complete source.toList)) ls
    (.error (.rejected (Parser.rejectionOf s l))) ∧ (∀ k ∈ ls.filter isString, Sound k) ∧
      (l.kind = .endOfInput ∨ l.kind = .dedent ∧ s.reported = [.indent])

/-- A source that stops short counts as incomplete. -/
theorem StopsShort.incomplete {mode : Mode} {source : String} (h : StopsShort mode source) :
    Incomplete mode source := by
  obtain ⟨ls, s, l, hruns, -, hkind⟩ := h.refused
  have hrun := Parser.run_eq_iff.mpr ⟨ls, hruns⟩
  rcases hkind with hend | ⟨-, hreported⟩
  · exact incomplete_of_stop hrun (.endOfInput s hend)
  · exact incomplete_of_stop hrun (.block l hreported)

/-- A source that stops short is the beginning of a valid one, if its last line holds more than what
joins it to the next one. -/
theorem StopsShort.canContinue {mode : Mode} {source : String} (h : StopsShort mode source)
    (hjoins : ¬Lexer.JoinsBlank (complete source.toList)) : CanContinue mode source := by
  obtain ⟨ls, s, l, hruns, hsound, hkind⟩ := h.refused
  have hentry : mode.entry ∈ Lookahead.entries := by cases mode <;> decide
  have hwhole := wholeLines_complete source.toList
  obtain ⟨b, ls', tree, hb, hruns', hstrings⟩ := hruns.exists_completion hkind h.all
    (Parser.ready_start hentry _) (Parser.sound_start mode.entry _)
    (.inr (.inl (Lexer.Lines.endsBlank (.inl rfl)))) hwhole hwhole.ne_nil hjoins
  have hrun : Parser.run mode.entry (complete source.toList ++ b) = .ok tree :=
    Parser.run_eq_iff.mpr ⟨ls', hruns'⟩
  have hlines : Lexer.WholeLines (complete source.toList ++ b) := by
    rcases hb with rfl | hb
    · rw [List.append_nil]
      exact hwhole
    · exact hb.append_left _
  obtain ⟨ending, hending⟩ := exists_complete_append source.toList []
  rw [List.append_nil] at hending
  have hsource : (source ++ String.ofList (ending ++ b)).toList = complete source.toList ++ b := by
    rw [String.toList_append, String.toList_ofList, hending, List.append_assoc]
  rw [← complete_of_wholeLines hlines, ← hsource] at hrun
  refine ⟨String.ofList (ending ++ b), tree, judged_iff.mpr (.valid hrun fun k hk => hsound k ?_)⟩
  -- nothing has come to the strings
  have hfound := hruns'.strings (Parser.sound_start mode.entry (complete source.toList ++ b))
  rw [stringsIn, hfound, hstrings] at hk
  exact hk

/-- Lines that count as incomplete are the beginning of a valid source only if they stop short. -/
theorem Incomplete.stopsShort {mode : Mode} {source : String} (h : Incomplete mode source)
    (hlines : Lexer.WholeLines source.toList) (hcan : CanContinue mode source) :
    StopsShort mode source := by
  obtain ⟨more, tree, hwhole⟩ := hcan
  obtain ⟨hrun', hsound⟩ := run_of_ok hwhole
  obtain ⟨b, hb⟩ := exists_complete_append source.toList more.toList
  rw [String.toList_append, hb, ← complete_of_wholeLines hlines] at hrun'
  obtain ⟨ls', hruns'⟩ := Parser.run_eq_iff.mp hrun'
  obtain ⟨stop, hrun, hmore⟩ := incomplete_iff.mp h
  obtain ⟨ls, hruns⟩ := Parser.run_eq_iff.mp hrun
  have hstart := Parser.sound_start mode.entry (complete source.toList)
  generalize hresult : (Except.error stop : Except Parser.Stop Tree) = result at hruns
  rcases hruns.of_extend (b := b) hruns' hstart (wholeLines_complete source.toList) with
    ⟨-, rejection, rfl, hfinal⟩ | ⟨-, hend, others, hothers⟩
  · cases hresult
    exact absurd (hmore.isIncomplete.symm.trans hfinal) Bool.true_eq_false.mp
  · cases hend with
    | read found => cases hresult
    | refused s kind all =>
        cases hresult
        refine ⟨all, ls, s, _, hruns, fun k hk => hsound k ?_, ?_⟩
        · -- the strings that have been read stay in front of those behind them
          rw [stringsIn, hruns'.strings (Parser.sound_start mode.entry _), hothers,
            ← List.append_assoc]
          exact List.mem_append_left others hk
        · rcases kind with hkind | hkind
          · exact .inl hkind
          · rcases (Parser.isIncomplete_rejectionOf s _).mp hmore.isIncomplete with h | ⟨h, -⟩ | h
            · exact .inl h
            · rw [hkind] at h
              cases h
            · exact .inr ⟨hkind, h⟩

/-- More input is of no use where the parser stops at anything but the end and the levels that end
there. -/
theorem Incomplete.not_canContinue {mode : Mode} {source : String} {stop : Parser.Stop}
    (h : Incomplete mode source) (hlines : Lexer.WholeLines source.toList)
    (hrun : Parser.run mode.entry (complete source.toList) = .error stop)
    (hstop : ∀ s l, stop = .rejected (Parser.rejectionOf s l) →
      l.kind ≠ .endOfInput ∧ l.kind ≠ .dedent) : ¬CanContinue mode source := by
  intro hcan
  obtain ⟨ls, s, l, hruns, -, hkind⟩ := (h.stopsShort hlines hcan).refused
  have hrun' := Parser.run_eq_iff.mpr ⟨ls, hruns⟩
  rw [hrun] at hrun'
  obtain ⟨hend, hdedent⟩ := hstop s l (Except.error.inj hrun')
  rcases hkind with hkind | ⟨hkind, -⟩
  · exact hend hkind
  · exact hdedent hkind

/-- A source that stops short counts as incomplete, and it is the beginning of a valid one. Of
whole lines that count as incomplete, only those that stop short are. -/
theorem honest_iff_stopsShort {mode : Mode} {source : String}
    (hjoins : ¬Lexer.JoinsBlank (complete source.toList)) :
    (StopsShort mode source → Incomplete mode source ∧ CanContinue mode source) ∧
      (Lexer.WholeLines source.toList → Incomplete mode source → CanContinue mode source →
        StopsShort mode source) :=
  ⟨fun h => ⟨h.incomplete, h.canContinue hjoins⟩,
    fun hlines h hcan => h.stopsShort hlines hcan⟩

end Source

namespace Parser

-- the lookahead sets and the bound on reductions are large, and nothing here should compute them
attribute [local irreducible] Lookahead.sets Lookahead.states Stack.settle

/-- Inside brackets the input cannot end. -/
theorem Progress.Ready.finish_inside {p : Progress} (h : p.Ready) (hinside : 0 < p.layout.brackets)
    (hlevels : p.layout.levels.dropLast = []) :
    ∃ s l, l.kind = .endOfInput ∧ p.finish = .error (.rejected (rejectionOf s l)) := by
  have hfeed : feedAll p.stack (p.layout.finish p.lastRead) = .ok p.stack := by
    unfold Layout.finish
    rw [hlevels]
    rfl
  rcases finish_cases p with ⟨_, hrejected, -⟩ | ⟨stack, hfed, hend⟩
  · cases hfeed.symm.trans hrejected
  · cases hfeed.symm.trans hfed
    rcases hend with ⟨tree, hfinish, -⟩ | ⟨s, -, hp⟩
    · -- no bracket is open on a stack that is one tree
      obtain ⟨state, hframes⟩ := Stack.finish_eq_ok_iff.mp hfinish
      have hbrackets := (h.live.built.settle .endOfInput).2
      rw [h.brackets, Stack.symbols, hframes] at hbrackets
      have hnone : 0 = p.layout.brackets := Option.some.inj hbrackets
      omega
    · exact ⟨s, _, kind_endLexeme _, hp⟩

/-- A parenthesis is open where the input ends. -/
theorem runs_openParenthesis : ReadsAll (.start .evalInput ['(', '\n']) ∧
    ∃ ls s l, Runs (.start .evalInput ['(', '\n']) ls (.error (.rejected (rejectionOf s l))) ∧
      ls.filter Source.isString = [] ∧ l.kind = .endOfInput := by
  let p := Progress.start .evalInput ['(', '\n']
  let opening := (p.cursor.take .leftParen 1).1
  let c := (p.cursor.take .leftParen 1).2
  have hstart : (Stack.empty .evalInput).state = evalStart := by rw [Stack.state_empty]
  obtain ⟨hopens, hfeed⟩ := Stack.takesParentheses_start hstart
  obtain ⟨s, -, hfeed, -⟩ := hfeed opening (.unplaced .rightParen "") rfl rfl
  let q : Progress := ⟨c, { brackets := 1 }, some opening, s, some opening⟩
  have hfirst : Steps p opening q := .of_feed (Lexer.next_of_first?
    (Lexer.Parenthesis.left.first?_eq (BitSet.mem_union.mpr (.inl hopens)) _) rfl) rfl hfeed
  have hq : q.Ready := (ready_start (by decide) _).step hfirst
  have hnext : Lexer.next (candidates q.stack.state) q.cursor =
      .lexeme (c.take .newline 1).1 (c.take .newline 1).2 :=
    Lexer.next_of_first? (Lexer.first?_lineEnd (Lexer.newline_mem _)) rfl
  let r : Progress := ⟨(c.take .newline 1).2, q.layout, some (c.take .newline 1).1, s, q.lastFed⟩
  have hsecond : Steps q _ r := ⟨_, hnext, Progress.read_inside rfl Nat.zero_lt_one _⟩
  obtain ⟨t, k, hk, hfinish⟩ := (hq.step hsecond).finish_inside Nat.zero_lt_one rfl
  have hend : Lexer.next (candidates r.stack.state) r.cursor = .finished :=
    Lexer.next_eq_iff.mpr (.finished rfl)
  have hruns : Runs r [] (.error (.rejected (rejectionOf t k))) := hfinish ▸ .finished hend
  exact ⟨.step hfirst (.lineEnd hnext rfl rfl), _, t, k, .step hfirst (.step hsecond hruns), rfl, hk⟩

end Parser

namespace Source

theorem stopsShort_openParenthesis : StopsShort .statement "(\n" := by
  obtain ⟨hall, ls, s, l, hruns, hstrings, hl⟩ := Parser.runs_openParenthesis
  refine ⟨hall, ls, s, l, hruns, ?_, .inl hl⟩
  rw [hstrings]
  exact fun k hk => absurd hk List.not_mem_nil

/-- A line with an open parenthesis counts as incomplete, and can go on. -/
theorem honest_iff_stopsShort_openParenthesis :
    ¬Lexer.JoinsBlank (complete "(\n".toList) ∧ StopsShort .statement "(\n" ∧
      Incomplete .statement "(\n" ∧ CanContinue .statement "(\n" := by
  have hjoins : ¬Lexer.JoinsBlank (complete "(\n".toList) := Lexer.not_joinsBlank (by decide)
  exact ⟨hjoins, stopsShort_openParenthesis,
    (honest_iff_stopsShort hjoins).1 stopsShort_openParenthesis⟩

end Source

namespace Parser

open Lookahead

-- the lookahead sets and the bound on reductions are large, and nothing here should compute them
attribute [local irreducible] Lookahead.sets Lookahead.states Stack.settle

/-! ### An indented line behind an empty one -/

def moreLines (rest : List Symbol) : Item where
  production := ⟨.fileLines, .splice, [.sub .fileLines, .mark .newline]⟩
  choice := 2
  rest := rest

theorem emptyLine_facts :
    let behind := fileStart.goto (.terminal .newline)
    fileStart.canRead (.terminal .newline) = true ∧ behind.canRead (.terminal .indent) = false ∧
      climb fileStart .newline 1 (.terminal .newline) = .nonterminal .fileLines ∧
      (fileStart.goto (.nonterminal .fileLines)).canRead (.terminal .newline) = true ∧
      moreLines [.nonterminal .fileLines, .terminal .newline] ∈ fileStart.opened := by
  decide +kernel

/-- Behind an empty line at the beginning another one can be read. -/
theorem Stack.reported_emptyLine {base : Stack} (hbase : base.state = fileStart) (trees : List Tree) :
    (base.push (.terminal .newline) trees).reported ≠ [.endOfInput] := by
  obtain ⟨-, -, hclimb, hread, hopened⟩ := emptyLine_facts
  have hfollows : Follows fileStart .newline .fileLines :=
    mem_sets_of_first fileStart_mem_states (List.mem_append_right _ hopened) rfl
      (mem_firstOf_terminal ..)
  have hstates := fileStart_mem_states
  rw [← hbase] at hclimb hread hfollows hstates
  obtain ⟨trees', count, hcount, hleads⟩ := exists_leads_of_climb hstates hfollows hclimb trees
  have hfeed := @Leads.feed_eq _ _ (.unplaced .newline "") _ hleads (by omega) hread
  intro h
  have haccepted := mem_accepted (mem_candidates_of_feed hfeed) (by decide) hfeed
  rw [reported, if_neg (by simp [List.ne_nil_of_mem haccepted])] at h
  rw [h, List.mem_singleton] at haccepted
  cases haccepted

def indentedText : List Char := "\n  x\n".toList

theorem first?_indentedText (ts : TerminalSet) :
    Lexer.first? (ts ∪ Lexer.always) indentedText = some (.newline, 3) := by
  have hall : Terminal.all = Terminal.all.take 8 ++ .newline :: Terminal.all.drop 9 := rfl
  have hbefore : ∀ u ∈ Terminal.all.take 8, u.read indentedText = none := by decide
  have hread : Terminal.newline.read indentedText = some ['x', '\n'] := rfl
  rw [Lexer.first?_of_earliest hall hbefore hread (by decide) (Lexer.newline_mem ts) rfl,
    Lexer.kindOf_of_ne (by decide)]
  rfl

def indentedLine : Lexeme Terminal := (Lexer.Cursor.take ⟨indentedText, {}⟩ .newline 3).1

/-- Where a file begins, the indentation is refused. -/
theorem read_indentedLine {p : Progress} (hstate : p.stack.state = fileStart)
    (hlayout : p.layout = {}) (behind : Lexer.Cursor) :
    ∃ s l, l.kind = .indent ∧ s.reported ≠ [.endOfInput] ∧
      p.read indentedLine behind = .error (.rejected (rejectionOf s l)) := by
  obtain ⟨hread, hindent, -⟩ := emptyLine_facts
  have hemitted : (p.layout.read tabSize indentedLine).emitted =
      [indentedLine, indentedLine.borrow LayoutKind.indent "  "] := by
    rw [hlayout]
    rfl
  rw [← hstate] at hread
  have hfirst : p.stack.feed indentedLine =
      .ok (p.stack.push (.terminal .newline) [.leaf indentedLine]) := Stack.feed_of_canRead hread
  have hsecond := @Stack.feed_indent
    (p.stack.push (.terminal .newline) [.leaf indentedLine])
    (indentedLine.borrow LayoutKind.indent "  ") rfl
    (by rw [Stack.state_push, hstate]; exact hindent)
  refine ⟨_, indentedLine.borrow LayoutKind.indent "  ", rfl,
    Stack.reported_emptyLine hstate [.leaf indentedLine], read_of_feedAll_error behind ?_⟩
  rw [hemitted, feedAll_cons_of_ok _ hfirst, feedAll_cons_of_error [] hsecond]

/-- The indentation is refused. -/
theorem runs_indentedText : ∃ s l, l.kind = .indent ∧ s.reported ≠ [.endOfInput] ∧
    Runs (.start .fileInput indentedText) [] (.error (.rejected (rejectionOf s l))) := by
  have hstart : (Stack.empty .fileInput).state = fileStart := by rw [Stack.state_empty]
  obtain ⟨s, l, hl, hreported, hread⟩ := @read_indentedLine (.start .fileInput indentedText)
    hstart rfl (Lexer.Cursor.take ⟨indentedText, {}⟩ .newline 3).2
  exact ⟨s, l, hl, hreported, .stopped (Lexer.next_of_first? (first?_indentedText _) rfl) hread⟩

end Parser

namespace Source

/-- An indentation that nothing calls for is said to be incomplete, and no more input can make it
valid. -/
theorem not_canContinue_indented :
    Incomplete .program "\n  x\n" ∧ ¬CanContinue .program "\n  x\n" := by
  obtain ⟨s, l, hl, hreported, hruns⟩ := Parser.runs_indentedText
  have htext : complete "\n  x\n".toList = Parser.indentedText := rfl
  have hrun := Parser.run_eq_iff.mpr ⟨_, hruns⟩
  rw [← htext] at hrun
  have hincomplete : Incomplete .program "\n  x\n" :=
    @incomplete_of_stop .program _ _ hrun (.indent hl hreported)
  refine ⟨hincomplete, hincomplete.not_canContinue rfl hrun fun s' l' hstop => ?_⟩
  -- what is refused is the indentation
  have hkind := Parser.kind_of_rejectionOf_eq (Parser.Stop.rejected.inj hstop)
  rw [← hkind, hl]
  decide

end Source

end SyntaxTriage
