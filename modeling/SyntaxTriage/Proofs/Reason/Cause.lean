import SyntaxTriage.Failure
import SyntaxTriage.Proofs.Reason.Record

/-!
Reasons and what they rest on. A reason that rests on another one says something of its own in front
of the words of that one, and what it says is told by its family. The words of a reason are therefore
those of the last reason of its chain, behind all that is said on the way there.
-/

namespace SyntaxTriage

/-- Where `n` steps lead, if there are so many. -/
def follow {α : Type} (next : α → Option α) : Nat → α → Option α
  | 0, a => some a
  | n + 1, a => (next a).bind (follow next n)

def Record.cause : Record → Option Record
  | lexical (.of _ _ inner _) => inner.map formatString
  | formatString (.of _ inner) => inner.map parse
  | parse (.of _ _ _ inner) => inner.map lexical

/-! ### Reasons that rest on none -/

theorem LexicalReason.causes_of_cause {reason : LexicalReason} (h : reason.cause = none) :
    reason.causes = [] := by
  cases reason with
  | formatString => contradiction
  | _ => rfl

theorem FStringReason.causes_of_cause {reason : FStringReason} (h : reason.cause = none) :
    reason.causes = [] := by
  cases reason with
  | invalidExpression => contradiction
  | _ => rfl

theorem ParseReason.causes_of_cause {reason : ParseReason} (h : reason.cause = none) :
    reason.causes = [] := by
  cases reason with
  | lexical => contradiction
  | _ => rfl

namespace Reason

/-- The first reason rests on the second one, and says something in front of its words. -/
inductive Wraps : Reason → Reason → String → Prop
  | lexical (reason : LexicalReason) : Wraps (.parse (.lexical reason)) (.lexical reason) ""
  | formatString (reason : FStringReason) :
      Wraps (.lexical (.formatString reason)) (.formatString reason) "Got error in f-string: "
  | invalidExpression (reason : ParseReason) :
      Wraps (.formatString (.invalidExpression reason)) (.parse reason) "Invalid expression: "

/-- A chain of reasons from the first to the last one. Each of them rests on the next, and the last
one on none; `openings` is what is said on the way. -/
inductive Chain : Reason → List Reason → List String → Reason → Prop
  | last {reason : Reason} (h : reason.cause = none) : Chain reason [] [] reason
  | link {reason cause last : Reason} {opening : String} {later : List Reason}
      {openings : List String} (h : Wraps reason cause opening)
      (behind : Chain cause later openings last) :
      Chain reason (cause :: later) (opening :: openings) last

variable {reason cause last : Reason} {opening : String} {later : List Reason}
  {openings : List String}

/-! ### One step -/

theorem Wraps.causes_eq (h : Wraps reason cause opening) : reason.causes = cause :: cause.causes := by
  cases h <;> rfl

theorem Wraps.message_eq (h : Wraps reason cause opening) :
    reason.message = opening ++ cause.message := by
  cases h with
  | lexical => exact String.empty_append.symm
  | formatString | invalidExpression => rfl

theorem exists_wraps (h : reason.cause = some cause) : ∃ opening, Wraps reason cause opening := by
  cases reason with
  | lexical reason =>
      cases reason <;> cases h
      exact ⟨_, .formatString _⟩
  | formatString reason =>
      cases reason <;> cases h
      exact ⟨_, .invalidExpression _⟩
  | parse reason =>
      cases reason <;> cases h
      exact ⟨_, .lexical _⟩

theorem causes_of_cause_eq_none (h : reason.cause = none) : reason.causes = [] := by
  cases reason with
  | lexical => exact LexicalReason.causes_of_cause (Option.map_eq_none_iff.mp h)
  | formatString => exact FStringReason.causes_of_cause (Option.map_eq_none_iff.mp h)
  | parse => exact ParseReason.causes_of_cause (Option.map_eq_none_iff.mp h)

/-! ### Chains -/

theorem exists_chain (reason : Reason) :
    ∃ openings last, Chain reason reason.causes openings last := by
  -- the causes get shorter with each step
  induction hcauses : reason.causes generalizing reason with
  | nil =>
      cases hcause : reason.cause with
      | none => exact ⟨[], reason, .last hcause⟩
      | some cause =>
          obtain ⟨opening, hwraps⟩ := exists_wraps hcause
          rw [hwraps.causes_eq] at hcauses
          contradiction
  | cons nearest later ih =>
      cases hcause : reason.cause with
      | none =>
          rw [causes_of_cause_eq_none hcause] at hcauses
          contradiction
      | some cause =>
          obtain ⟨opening, hwraps⟩ := exists_wraps hcause
          rw [hwraps.causes_eq] at hcauses
          cases hcauses
          obtain ⟨openings, last, hchain⟩ := ih nearest rfl
          exact ⟨opening :: openings, last, .link hwraps hchain⟩

theorem Chain.message_eq (h : Chain reason later openings last) :
    reason.message = String.join openings ++ last.message := by
  induction h with
  | last => rw [String.join_nil, String.empty_append]
  | link hwraps _ ih => rw [hwraps.message_eq, ih, String.join_cons, String.append_assoc]

theorem Chain.message_suffix (h : Chain reason later openings last) :
    ∀ r ∈ later, r.message.toList <:+ reason.message.toList := by
  induction h with
  | last => simp
  | @link reason cause _ opening _ _ hwraps _ ih =>
      have hcause : cause.message.toList <:+ reason.message.toList := by
        rw [hwraps.message_eq, String.toList_append]
        exact List.suffix_append _ _
      intro r hr
      rcases List.mem_cons.mp hr with rfl | hr
      · exact hcause
      · exact (ih r hr).trans hcause

end Reason

/-! ### Steps and lists -/

theorem follow_eq {α : Type} {next : α → Option α} {behind : α → List α}
    (hnone : ∀ a, next a = none → behind a = [])
    (hsome : ∀ a b, next a = some b → behind a = b :: behind b) (n : Nat) (a : α) :
    follow next n a = (a :: behind a)[n]? := by
  induction n generalizing a with
  | zero => rfl
  | succ n ih =>
      rw [follow, List.getElem?_cons_succ]
      cases hnext : next a with
      | none =>
          rw [hnone a hnext]
          rfl
      | some b =>
          rw [hsome a b hnext]
          exact ih b

theorem Reason.follow_cause (n : Nat) (reason : Reason) :
    follow Reason.cause n reason = (reason :: reason.causes)[n]? := by
  refine follow_eq (fun _ => causes_of_cause_eq_none) (fun r cause h => ?_) n reason
  obtain ⟨_, hwraps⟩ := exists_wraps h
  exact hwraps.causes_eq

theorem Record.follow_cause (n : Nat) (record : Record) :
    follow Record.cause n record = (record :: record.inside)[n]? := by
  refine follow_eq (fun r h => ?_) (fun r inner h => ?_) n record
  · rcases r with ⟨_, _, _ | _, _⟩ | ⟨_, _ | _⟩ | ⟨_, _, _, _ | _⟩ <;> first | rfl | cases h
  · rcases r with ⟨_, _, _ | _, _⟩ | ⟨_, _ | _⟩ | ⟨_, _, _, _ | _⟩ <;> cases h <;> rfl

theorem rel_getElem? {α β : Type} {R : α → β → Prop} {as : List α} {bs : List β}
    (h : List.Forall₂ R as bs) (n : Nat) : Option.Rel R as[n]? bs[n]? := by
  induction h generalizing n with
  | nil => exact .none
  | cons hab _ ih =>
      cases n with
      | zero => exact .some hab
      | succ n => exact ih n

/-! ### Main result -/

/-- Main result. Following what a reason rests on comes to an end, from the parser's reasons to the
lexer's, from these to those against format strings and from these to the parser's again. The words
of the reason are those of the last one behind what is said on the way, and end with the words of all
others. The records that make the reasons lead the same way. A malformed format string keeps its
location, its reason and all that this rests on when it is reported by the parser. -/
theorem causes_followed :
    (∀ reason : Reason,
      (∀ n, follow Reason.cause n reason = (reason :: reason.causes)[n]?) ∧
      (∃ openings last, Reason.Chain reason reason.causes openings last ∧
        reason.message = String.join openings ++ last.message) ∧
      ∀ later ∈ reason.causes, later.message.toList <:+ reason.message.toList) ∧
    (∀ record reason, Record.build record = .ok reason → ∀ n,
      Option.Rel Record.Says (follow Record.cause n record) (follow Reason.cause n reason)) ∧
    ∀ e : FStringError, e.toFailure.toParseError.location = e.location ∧
      (Reason.parse e.toFailure.toParseError.reason).causes =
        .lexical (.formatString e.reason) :: .formatString e.reason ::
          (Reason.formatString e.reason).causes := by
  refine ⟨fun reason => ?_, fun record reason h n => ?_, fun e => ⟨rfl, rfl⟩⟩
  · obtain ⟨openings, last, hchain⟩ := reason.exists_chain
    exact ⟨fun n => reason.follow_cause n, ⟨openings, last, hchain, hchain.message_eq⟩,
      hchain.message_suffix⟩
  · rw [Record.follow_cause, Reason.follow_cause]
    exact rel_getElem? (record.forall₂_says h) n

def cutShort : ParseRecord :=
  .of .lexical none none (some (.of .formatString none
    (some (.of .invalidExpression (some (.of .endOfFile none none none)))) none))

theorem causes_followed_cutShort :
    (Record.parse cutShort).build =
        .ok (.parse (.lexical (.formatString (.invalidExpression .endOfFile)))) ∧
      ∀ n, Option.Rel Record.Says (follow Record.cause n (.parse cutShort))
        (follow Reason.cause n
          (.parse (.lexical (.formatString (.invalidExpression .endOfFile))))) := by
  have hbuild : (Record.parse cutShort).build =
      .ok (.parse (.lexical (.formatString (.invalidExpression .endOfFile)))) := rfl
  obtain ⟨-, hrecords, -⟩ := causes_followed
  exact ⟨hbuild, hrecords _ _ hbuild⟩

end SyntaxTriage
