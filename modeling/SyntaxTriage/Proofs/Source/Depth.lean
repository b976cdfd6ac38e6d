import SyntaxTriage.Proofs.Reason.Cause
import SyntaxTriage.Proofs.Source.Verdict

/-!
How deep sources stand in sources. Every source that is read for the sake of another one is shorter
by three characters, so that no more expressions can be nested than a third of the characters. The
number of expressions that an error is reported through is bounded in the same way.
-/

namespace SyntaxTriage

def Reason.isInvalidExpression : Reason → Bool
  | .formatString (.invalidExpression _) => true
  | _ => false

/-- How many expressions the reason is reported through. -/
def ParseReason.nesting (reason : ParseReason) : Nat :=
  reason.causes.countP Reason.isInvalidExpression

/-! ### Reasons that rest on no expression -/

theorem ParseReason.nesting_lexical {reason : LexicalReason} (h : reason.cause = none) :
    (ParseReason.lexical reason).nesting = 0 := by
  rw [nesting, causes, LexicalReason.causes_of_cause h]
  rfl

theorem ParseReason.nesting_formatString {reason : FStringReason} (h : reason.cause = none) :
    (ParseReason.lexical (.formatString reason)).nesting = 0 := by
  rw [nesting, causes, LexicalReason.causes, FStringReason.causes_of_cause h]
  cases reason with
  | invalidExpression => contradiction
  | _ => rfl

/-- An expression adds one to the nesting of what is wrong with it. -/
theorem ParseReason.nesting_invalidExpression (reason : ParseReason) :
    (ParseReason.lexical (.formatString (.invalidExpression reason))).nesting =
      reason.nesting + 1 := by
  rw [nesting, causes, LexicalReason.causes, FStringReason.causes, List.countP_cons,
    List.countP_cons, List.countP_cons]
  rfl

theorem Rejection.nesting_toFailure (fallback : Option Location) (r : Rejection) :
    (r.toFailure fallback).toParseError.reason.nesting = 0 := by
  cases r with
  | character => exact ParseReason.nesting_lexical rfl
  | lexeme l expected accepted =>
      obtain ⟨shown, h | h | h⟩ := toFailure_lexeme l expected accepted fallback
      all_goals
        rw [h]
        rfl
  | endOfInput | other => rfl

namespace FString

theorem cause_of_expression {source : List Char} {reason : FStringReason}
    (h : expression source = .error reason) : reason.cause = none := by
  unfold expression at h
  simp only at h
  split at h
  · cases h
    rfl
  · contradiction

theorem cause_of_readExpression {depth : Nat} {closers seen : List Char} {quote : Option Char}
    {c : Char} {reason : FStringReason}
    (h : readExpression depth closers quote seen c = .error reason) : reason.cause = none := by
  rw [readExpression_eq] at h
  split at h
  · contradiction
  · cases h
    rfl

/-- The scanner does not look into expressions. -/
theorem cause_of_scanFrom {mode : Mode} {text : List Char} {reason : FStringReason}
    (h : scanFrom mode text = .error reason) : reason.cause = none := by
  fun_induction scanFrom mode text
  case case13 depth _ _ seen c rest _ ih =>
    cases hfound : expression seen.reverse with
    | error =>
        rw [hfound] at h
        cases h
        exact cause_of_expression hfound
    | ok =>
        cases hrest : scanFrom (.afterExpression depth c) rest with
        | error =>
            rw [hfound, hrest] at h
            cases h
            exact ih hrest
        | ok =>
            rw [hfound, hrest] at h
            cases h
  case case14 depth closers quote seen c rest _ ih =>
    cases hmode : readExpression depth closers quote seen c with
    | error =>
        rw [hmode] at h
        cases h
        exact cause_of_readExpression hmode
    | ok mode =>
        rw [hmode] at h
        exact ih mode h
  -- elsewhere the text is given up for a reason of its own, or scanned on
  all_goals first | (cases h <;> rfl) | (rename_i ih; exact ih h)

theorem cause_of_scan {body : List Char} {location : Location} {error : FStringError}
    (h : scan body location = .error error) : error.reason.cause = none := by
  unfold scan at h
  cases hscan : scanFrom .text body with
  | ok =>
      rw [hscan] at h
      cases h
  | error reason =>
      rw [hscan] at h
      cases h
      exact cause_of_scanFrom hscan

end FString

namespace Source

theorem nesting_of_run {mode : Mode} {source : List Char} {stop : Parser.Stop} {failure : Failure}
    (h : Parser.run mode.entry (complete source) = .error stop)
    (hshape : faultOf (complete source) stop = .failure failure) :
    failure.toParseError.reason.nesting = 0 := by
  cases stop with
  | rejected rejection =>
      cases hshape
      exact rejection.nesting_toFailure _
  | fault fault =>
      obtain ⟨error, rfl, hcause⟩ := Parser.run_fault (wholeLines_complete source) h
      cases hshape
      exact ParseReason.nesting_lexical hcause

theorem nesting_le (mode : Mode) (source : String) {error : ParseError}
    (h : (parse mode source).result = .error (.invalid error)) :
    3 * error.reason.nesting ≤ source.toList.length := by
  generalize hlength : source.toList.length = length
  induction length using Nat.strong_induction_on generalizing mode source error with
  | _ length ih =>
      generalize hresult : Except.error (Halt.invalid error) = result at h
      cases judged_iff.mp h with
      | refused run shape =>
          cases hresult
          rw [nesting_of_run run shape]
          omega
      | valid => cases hresult
      | @string tree l reason run first =>
          cases hresult
          have hl := first.mem
          obtain ⟨_, _, -, -, hrefused⟩ := first
          cases hrefused with
          | scan _ _ malformed =>
              rw [errorAt, ParseReason.nesting_formatString (FString.cause_of_scan malformed)]
              omega
          | @expression es es' e inner found _ invalid =>
              have hinner := Hands.length_le ⟨tree, l, _, e, run, hl, found, by simp, rfl⟩
              have hnested := ih (parenthesized e).length (by omega) .statement
                (String.ofList (parenthesized e)) invalid (by rw [String.toList_ofList])
              rw [errorAt, ParseReason.nesting_invalidExpression]
              omega

/-! ### The first expression -/

theorem events_prefix_bind {ε α β : Type} (x : Traced ε α) (f : α → Traced ε β) :
    x.events <+: (x >>= f).events := by
  change x.events <+: (Traced.bind x f).events
  unfold Traced.bind
  cases x.result with
  | ok a => exact List.prefix_append _ _
  | error e => exact List.prefix_rfl

theorem events_prefix_conclude (mode : Mode) (source : List Char) (t : Traced Fault Tree) :
    t.events <+: (conclude mode source t).events := List.prefix_append _ _

/-- The first expression of the first string is read before anything is logged. -/
theorem events_prefix_parseOnce {read : Reader} {mode : Mode} {source e : List Char}
    {es : List (List Char)} {tree : Tree} {l : Lexeme Terminal} {ls : List (Lexeme Terminal)}
    (hrun : Parser.run mode.entry (complete source) = .ok tree)
    (hstrings : tree.leaves.filter isString = l :: ls) (h : Interpolates l (e :: es)) :
    (read (parenthesized e)).events <+: (parseOnce read mode source).events := by
  obtain ⟨literal, hliteral, hformat, hscan⟩ := h
  have hexpression : (read (parenthesized e)).events <+:
      (checkExpression read (start l) e).events := List.prefix_append _ _
  have hstring : (read (parenthesized e)).events <+: (checkString read l).events := by
    rw [checkString, hliteral]
    simp only [if_pos hformat]
    rw [start] at hscan
    rw [hscan]
    exact hexpression.trans (events_prefix_bind _ _)
  have htree : (read (parenthesized e)).events <+: (checkStrings read tree).events := by
    rw [checkStrings, hstrings]
    exact hstring.trans (events_prefix_bind _ _)
  rw [parseOnce, hrun]
  exact htree.trans (events_prefix_bind _ _)

/-- Sources in sources are read as they are read on their own. -/
theorem parse_eq_conclude (mode : Mode) (source : String) :
    parse mode source = conclude mode source.toList
      (parseOnce (fun inner => parse .statement (String.ofList inner)) mode source.toList) := by
  rw [parse, parseWithin]
  congr 1
  refine parseOnce_congr fun inner hinner => ?_
  rw [parse, String.toList_ofList]
  exact parseWithin_fuel hinner.length_lt (Nat.lt_succ_self inner.length)

/-! ### Main result -/

/-- The sources that are read for the sake of a source are shorter than it by three characters, and
nothing else is asked of the reader of sources. So reading ends, and what it comes to rests on at
most a third as many expressions as there are characters. -/
theorem nested_sources_shrink (mode : Mode) (source : String) :
    (∀ inner, Hands mode source.toList inner → inner.length + 3 ≤ source.toList.length) ∧
      (∀ read read' : Reader, (∀ inner, Hands mode source.toList inner → read inner = read' inner) →
        parseOnce read mode source.toList = parseOnce read' mode source.toList) ∧
      parse mode source = conclude mode source.toList
        (parseOnce (fun inner => parse .statement (String.ofList inner)) mode source.toList) ∧
      (parse mode source).result ≠ .error (.defect .endless) ∧
      ∀ error, (parse mode source).result = .error (.invalid error) →
        3 * error.reason.causes.countP Reason.isInvalidExpression ≤ source.toList.length := by
  refine ⟨fun _ h => h.length_le, fun _ _ h => parseOnce_congr h, parse_eq_conclude mode source,
    (judged_iff.mp rfl).not_defect .endless, fun error h => nesting_le mode source h⟩

/-- The expression in the string is read with parentheses around it, and what is logged of that comes
first in the log of the whole source. -/
theorem nested_sources_shrink_name :
    Hands .program "f\"\"\"\x7bx\x7d\"\"\"".toList ['(', 'x', ')'] ∧
      ['(', 'x', ')'].length + 3 ≤ "f\"\"\"\x7bx\x7d\"\"\"".toList.length ∧
      (parse .statement "(x)").events <+: (parse .program "f\"\"\"\x7bx\x7d\"\"\"").events := by
  have htriple : Lexer.Triple ("f\"\"\"\x7bx\x7d\"\"\"".toList ++ ['\n']) ['f'] '"'
      "\x7bx\x7d\"\"\"\n".toList := ⟨rfl, rfl, rfl, by simp [Lexer.isQuote]⟩
  obtain ⟨tree, hrun, hstrings⟩ := Parser.run_literal ⟨htriple, rfl⟩
  have hinterpolates : Interpolates
      (Parser.literalOf "f\"\"\"\x7bx\x7d\"\"\"".toList) [['x']] := ⟨_, rfl, rfl, rfl⟩
  have hhands : Hands .program "f\"\"\"\x7bx\x7d\"\"\"".toList ['(', 'x', ')'] :=
    ⟨tree, _, _, ['x'], hrun, by rw [hstrings]; exact List.mem_singleton_self _,
      hinterpolates, List.mem_singleton_self _, rfl⟩
  obtain ⟨hlength, -, hparse, -⟩ :=
    nested_sources_shrink .program "f\"\"\"\x7bx\x7d\"\"\""
  refine ⟨hhands, hlength _ hhands, ?_⟩
  have hinner : String.ofList (parenthesized ['x']) = "(x)" := by decide
  have hfirst := @events_prefix_parseOnce (fun inner => parse .statement (String.ofList inner))
    .program "f\"\"\"\x7bx\x7d\"\"\"".toList ['x'] [] tree _ [] hrun hstrings hinterpolates
  rw [hinner] at hfirst
  rw [hparse]
  exact hfirst.trans (events_prefix_conclude .program "f\"\"\"\x7bx\x7d\"\"\"".toList _)

end Source

end SyntaxTriage
