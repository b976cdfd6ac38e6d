import Mathlib.Logic.Basic
import SyntaxTriage.Proofs.Reason

/-!
When a kind and payloads make a reason. Every kind has a list of payloads that it takes and a list
of those that it needs. The slots for payloads are judged in order, and the first one that is filled
though the kind does not take it, or empty though the kind needs it, is what is reported. Only then
the length of the text of a token counts.
-/

namespace SyntaxTriage

structure Slot where
  name : String
  filled : Bool

structure Demands where
  kind : String
  takes : List String
  needs : List String

namespace Demands

/-- The slot is filled in vain, or empty though it is needed. -/
def IsBroken (d : Demands) (s : Slot) : Prop :=
  s.filled = true ∧ s.name ∉ d.takes ∨ s.filled = false ∧ s.name ∈ d.needs

def complaint (d : Demands) (s : Slot) : PayloadError :=
  if s.filled then .unexpected d.kind s.name else .missing d.kind s.name

structure Met (d : Demands) (slots : List Slot) : Prop where
  taken : ∀ s ∈ slots, s.filled = true → s.name ∈ d.takes
  given : ∀ s ∈ slots, s.name ∈ d.needs → s.filled = true

def FirstBroken (d : Demands) (slots : List Slot) (error : PayloadError) : Prop :=
  ∃ before s after, slots = before ++ s :: after ∧ (∀ b ∈ before, ¬d.IsBroken b) ∧
    d.IsBroken s ∧ error = d.complaint s

/-- Whether a reason is made, and otherwise why not, is told by the slots and, if nothing can be
said against these, by the length of the text of a token. -/
structure Govern {ρ : Type} (d : Demands) (slots : List Slot) (tok : Option String)
    (made : Except PayloadError ρ) : Prop where
  succeeds : (∃ reason, made = .ok reason) ↔
    d.Met slots ∧ ∀ text, tok = some text → text.length = 1
  fails : ∀ error, made = .error error ↔ d.FirstBroken slots error ∨
    d.Met slots ∧ ∃ text, tok = some text ∧ text.length ≠ 1 ∧ error = .notOneCharacter text

/-! ### The slots in order -/

def check (d : Demands) (s : Slot) : Except PayloadError Unit :=
  if s.filled then (if s.name ∈ d.takes then .ok () else .error (d.complaint s))
  else if s.name ∈ d.needs then .error (d.complaint s) else .ok ()

def judge (d : Demands) : List Slot → Except PayloadError Unit
  | [] => .ok ()
  | s :: slots => (d.check s).bind fun _ => d.judge slots

def checkLength : Option String → Except PayloadError Unit
  | some text => if text.length = 1 then .ok () else .error (.notOneCharacter text)
  | none => .ok ()

variable {d : Demands} {slots : List Slot} {tok : Option String}

theorem check_eq (d : Demands) (s : Slot) :
    d.IsBroken s ∧ d.check s = .error (d.complaint s) ∨ ¬d.IsBroken s ∧ d.check s = .ok () := by
  unfold IsBroken check
  cases s.filled <;> by_cases htakes : s.name ∈ d.takes <;> by_cases hneeds : s.name ∈ d.needs <;>
    simp [htakes, hneeds]

theorem judge_eq_ok_iff : d.judge slots = .ok () ↔ d.Met slots := by
  induction slots with
  | nil => exact iff_of_true rfl ⟨by simp, by simp⟩
  | cons s slots ih =>
      rw [judge]
      rcases check_eq d s with ⟨hbroken, hcheck⟩ | ⟨hfine, hcheck⟩
      · rw [hcheck]
        refine iff_of_false (fun h => by cases h) fun hmet => ?_
        rcases hbroken with ⟨hfilled, hname⟩ | ⟨hempty, hname⟩
        · exact hname (hmet.taken s List.mem_cons_self hfilled)
        · rw [hmet.given s List.mem_cons_self hname] at hempty
          contradiction
      · rw [hcheck, Except.bind, ih]
        rw [IsBroken, not_or, not_and, not_not, not_and', Bool.not_eq_false] at hfine
        constructor
        · rintro ⟨htaken, hgiven⟩
          exact ⟨List.forall_mem_cons.mpr ⟨hfine.1, htaken⟩,
            List.forall_mem_cons.mpr ⟨hfine.2, hgiven⟩⟩
        · rintro ⟨htaken, hgiven⟩
          exact ⟨(List.forall_mem_cons.mp htaken).2, (List.forall_mem_cons.mp hgiven).2⟩

theorem judge_eq_error_iff {error : PayloadError} :
    d.judge slots = .error error ↔ d.FirstBroken slots error := by
  induction slots with
  | nil =>
      refine iff_of_false (fun h => by cases h) ?_
      rintro ⟨before, s, after, hsplit, -⟩
      simp at hsplit
  | cons s slots ih =>
      rw [judge]
      rcases check_eq d s with ⟨hbroken, hcheck⟩ | ⟨hfine, hcheck⟩
      · rw [hcheck]
        constructor
        · rintro ⟨⟩
          exact ⟨[], s, slots, rfl, by simp, hbroken, rfl⟩
        · rintro ⟨before, t, after, hsplit, hbefore, -, rfl⟩
          cases before with
          | nil =>
              cases hsplit
              rfl
          | cons b before =>
              cases hsplit
              exact absurd hbroken (hbefore s List.mem_cons_self)
      · rw [hcheck, Except.bind, ih]
        constructor
        · rintro ⟨before, t, after, rfl, hbefore, ht⟩
          exact ⟨s :: before, t, after, rfl, List.forall_mem_cons.mpr ⟨hfine, hbefore⟩, ht⟩
        · rintro ⟨before, t, after, hsplit, hbefore, ht⟩
          cases before with
          | nil =>
              cases hsplit
              exact absurd ht.1 hfine
          | cons b before =>
              cases hsplit
              exact ⟨before, t, after, rfl, (List.forall_mem_cons.mp hbefore).2, ht⟩

theorem checkLength_eq_ok_iff :
    checkLength tok = .ok () ↔ ∀ text, tok = some text → text.length = 1 := by
  cases tok <;> simp [checkLength]

theorem checkLength_eq_error_iff {error : PayloadError} : checkLength tok = .error error ↔
    ∃ text, tok = some text ∧ text.length ≠ 1 ∧ error = .notOneCharacter text := by
  cases tok with
  | none => simp [checkLength]
  | some text =>
      by_cases h : text.length = 1
      · simp [checkLength, h]
      · simp [checkLength, h, eq_comm (a := error)]

/-- What is made after both checks, and not otherwise, is governed by the demands. -/
theorem Govern.of_checks {ρ : Type} {made : Except PayloadError ρ}
    (h : made.map (fun _ => ()) = (d.judge slots).bind fun _ => checkLength tok) :
    d.Govern slots tok made := by
  have hok : (∃ reason, made = .ok reason) ↔
      (d.judge slots).bind (fun _ => checkLength tok) = .ok () := by
    rw [← h]
    cases made <;> simp [Except.map]
  have herror (error : PayloadError) : made = .error error ↔
      (d.judge slots).bind (fun _ => checkLength tok) = .error error := by
    rw [← h]
    cases made <;> simp [Except.map]
  constructor
  · rw [hok, ← judge_eq_ok_iff, ← checkLength_eq_ok_iff]
    cases d.judge slots <;> simp [Except.bind]
  · intro error
    rw [herror, ← judge_eq_error_iff, ← judge_eq_ok_iff, ← checkLength_eq_error_iff]
    cases d.judge slots <;> simp [Except.bind]

end Demands

/-! ### The three families -/

def LexicalKind.takes : LexicalKind → List String
  | .unrecognizedToken => ["tok"]
  | .formatString => ["fstring_error"]
  | .other => ["message"]
  | _ => []

def LexicalKind.demands (kind : LexicalKind) : Demands := ⟨kind.value, kind.takes, kind.takes⟩

def LexicalPayloads.slots (p : LexicalPayloads) : List Slot :=
  [⟨"tok", p.tok.isSome⟩, ⟨"fstring_error", p.fstringError.isSome⟩,
    ⟨"message", p.message.isSome⟩]

def FStringKind.takes : FStringKind → List String
  | .invalidExpression => ["expression_error"]
  | _ => []

def FStringKind.demands (kind : FStringKind) : Demands := ⟨kind.value, kind.takes, kind.takes⟩

def ParseKind.takes : ParseKind → List String
  | .extraToken => ["token"]
  | .unrecognizedToken => ["token", "expected"]
  | .lexical => ["lexical_error"]
  | .endOfFile | .invalidToken => []

def ParseKind.needs : ParseKind → List String
  | .extraToken | .unrecognizedToken => ["token"]
  | .lexical => ["lexical_error"]
  | .endOfFile | .invalidToken => []

def ParseKind.demands (kind : ParseKind) : Demands := ⟨kind.value, kind.takes, kind.needs⟩

def ParsePayloads.slots (p : ParsePayloads) : List Slot :=
  [⟨"token", p.token.isSome⟩, ⟨"expected", p.expected.isSome⟩,
    ⟨"lexical_error", p.lexicalError.isSome⟩]

theorem LexicalReason.govern_ofPayloads (kind : LexicalKind) (p : LexicalPayloads) :
    kind.demands.Govern p.slots p.tok (ofPayloads kind p) := by
  apply Demands.Govern.of_checks
  obtain ⟨tok, fstringError, message⟩ := p
  cases kind
  case unrecognizedToken =>
    cases tok with
    | none => cases fstringError <;> cases message <;> rfl
    | some text =>
        cases fstringError <;> cases message <;> try rfl
        -- the only payloads that are left to the length of the text
        have hjudge : (LexicalKind.demands .unrecognizedToken).judge
            (LexicalPayloads.slots { tok := some text }) = .ok () := rfl
        have hlength : text.length = text.toList.length := String.length_toList.symm
        rw [hjudge]
        rcases htext : text.toList with _ | ⟨c, _ | ⟨c', cs⟩⟩ <;>
          simp [ofPayloads, demand, forbid, bind, Except.bind, pure, Except.pure, throw, throwThe,
            MonadExceptOf.throw, Except.map, Demands.checkLength, hlength, htext]
  all_goals cases tok <;> cases fstringError <;> cases message <;> rfl

theorem FStringReason.govern_ofPayloads (kind : FStringKind) (reason : Option ParseReason) :
    kind.demands.Govern [⟨"expression_error", reason.isSome⟩] none (ofPayloads kind reason) := by
  apply Demands.Govern.of_checks
  cases kind <;> cases reason <;> rfl

theorem ParseReason.govern_ofPayloads (kind : ParseKind) (p : ParsePayloads) :
    kind.demands.Govern p.slots none (ofPayloads kind p) := by
  apply Demands.Govern.of_checks
  obtain ⟨token, expected, lexicalError⟩ := p
  cases kind <;> cases token <;> cases expected <;> cases lexicalError <;> rfl

end SyntaxTriage
