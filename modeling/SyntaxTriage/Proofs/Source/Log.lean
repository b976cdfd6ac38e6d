import SyntaxTriage.CommandLine.Run
import SyntaxTriage.Proofs.Source.Depth

/-!
What the log of reading a source holds. A source that is read in full is logged behind all the
expressions in it, and these are logged in the same way, so the log of a valid source goes through
its expressions from the inside outwards. A source that is refused is logged once and last, directly
behind the expression that it is refused for, if it is refused for one: a log that ends in refusals
holds one for each level, again from the inside outwards.
-/

namespace SyntaxTriage

namespace Event

end Event

/-! ### The log of checks -/

namespace Traced

variable {ε ε' α β : Type}

end Traced

namespace Source

/-! ### The expressions in a source -/

section

variable {mode : Mode} {source : List Char} {tree : Tree}

end

/-- The error of a source that is refused, and behind it the errors of the expression in the source
that it is refused for, and so on inwards, up to one that is refused for a reason of its own. -/
inductive RefusedThrough : Mode → List Char → ParseError → List ParseError → Prop
  | last {mode : Mode} {source : List Char} {error : ParseError}
      (refused : (parse mode (String.ofList source)).result = .error (.invalid error))
      (own : error.reason.nesting = 0) : RefusedThrough mode source error []
  | inside {mode : Mode} {source inner : List Char} {error cause : ParseError}
      {later : List ParseError}
      (refused : (parse mode (String.ofList source)).result = .error (.invalid error))
      (hands : Hands mode source inner)
      (reason : error.reason = .lexical (.formatString (.invalidExpression cause.reason)))
      (behind : RefusedThrough .statement inner cause later) :
      RefusedThrough mode source error (cause :: later)

/-- Three steps lead from the reason against a source to the reason against an expression in it. -/
theorem follow_invalidExpression (n : Nat) (reason : ParseReason) :
    follow Reason.cause (n + 3)
        (.parse (.lexical (.formatString (.invalidExpression reason)))) =
      follow Reason.cause n (.parse reason) := rfl

theorem follow_of_nesting {reason : ParseReason} (h : reason.nesting = 0) (n : Nat) :
    follow Reason.cause (n + 3) (.parse reason) = none := by
  cases reason with
  | lexical reason =>
      cases reason with
      | formatString reason =>
          cases reason with
          | invalidExpression reason =>
              rw [ParseReason.nesting_invalidExpression] at h
              contradiction
          | _ => rfl
      | _ => rfl
  | _ => rfl

section

variable {mode : Mode} {source : List Char} {error : ParseError} {causes : List ParseError}

/-- The levels of a refusal are the parser's reasons in the chain of causes. -/
theorem RefusedThrough.follow_eq (h : RefusedThrough mode source error causes) (i : Nat) :
    follow Reason.cause (3 * i) (.parse error.reason) =
      (error :: causes)[i]?.map fun e => .parse e.reason := by
  induction h generalizing i with
  | last refused own =>
      cases i with
      | zero => rfl
      | succ i => exact follow_of_nesting own (3 * i)
  | inside refused hands reason behind ih =>
      cases i with
      | zero => rfl
      | succ i => rw [reason, Nat.mul_succ, follow_invalidExpression, ih, List.getElem?_cons_succ]

end

/-! ### The log of a source -/

section

variable {l : Lexeme Terminal} {es es' : List (List Char)} {e : List Char}

end

/-! ### One source -/

section

variable {mode : Mode} {source : List Char} {tree : Tree}

end

end Source

namespace Source

/-! ### Main result -/

end Source

end SyntaxTriage
