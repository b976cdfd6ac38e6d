import Mathlib.Data.List.Forall2
import SyntaxTriage.Proofs.Reason.Payload
import SyntaxTriage.Reason.Debug
import SyntaxTriage.Reason.Message

/-!
Records of reasons: a kind, and a place for every payload that a kind of the family may have. What a
record says is looked up: the wording in a table that does not hold all kinds, and the rest in
payloads that may not be there. Nothing that is looked up is missing in a record from which a reason
can be made, nor in the records inside it.
-/

namespace SyntaxTriage

mutual

inductive LexicalRecord where
  | of (kind : LexicalKind) (tok : Option String) (fstringError : Option FStringRecord)
      (message : Option String)

inductive FStringRecord where
  | of (kind : FStringKind) (expressionError : Option ParseRecord)

inductive ParseRecord where
  | of (kind : ParseKind) (token : Option Token) (expected : Option String)
      (lexicalError : Option LexicalRecord)

end

inductive Record where
  | lexical (record : LexicalRecord)
  | formatString (record : FStringRecord)
  | parse (record : ParseRecord)

/-! ### Reasons made of records -/

mutual

/-- The reason that a record makes, if those inside it make reasons. -/
def LexicalRecord.build : LexicalRecord → Except PayloadError LexicalReason
  | .of kind tok none message => LexicalReason.ofPayloads kind { tok, message }
  | .of kind tok (some inner) message => do
    LexicalReason.ofPayloads kind { tok, fstringError := some (← inner.build), message }

def FStringRecord.build : FStringRecord → Except PayloadError FStringReason
  | .of kind none => FStringReason.ofPayloads kind none
  | .of kind (some inner) => do FStringReason.ofPayloads kind (some (← inner.build))

def ParseRecord.build : ParseRecord → Except PayloadError ParseReason
  | .of kind token expected none => ParseReason.ofPayloads kind { token, expected }
  | .of kind token expected (some inner) => do
    ParseReason.ofPayloads kind { token, expected, lexicalError := some (← inner.build) }

end

def Record.build : Record → Except PayloadError Reason
  | lexical record => record.build.map .lexical
  | formatString record => record.build.map .formatString
  | parse record => record.build.map .parse

/-! ### What records say -/

def LexicalKind.wording? : LexicalKind → Option String
  | .stringError => some "Got unexpected string"
  | .unicodeError => some "Got unexpected unicode"
  | .nestingError => some "Got unexpected nesting"
  | .indentationError => some "unindent does not match any outer indentation level"
  | .tabError => some "inconsistent use of tabs and spaces in indentation"
  | .defaultArgumentError => some "non-default argument follows default argument"
  | .positionalArgumentError => some "positional argument follows keyword argument"
  | .duplicateKeywordArgumentError => some "keyword argument repeated"
  | .lineContinuationError => some "unexpected character after line continuation character"
  | .endOfFile => some "unexpected EOF while parsing"
  | .unrecognizedToken | .formatString | .other => none

def FStringKind.wording? : FStringKind → Option String
  | .unclosedBrace => some "Unclosed '\x7b'"
  | .unopenedBrace => some "Unopened '\x7d'"
  | .expectedBrace => some "Expected '\x7d' after conversion flag."
  | .invalidConversionFlag => some "Invalid conversion flag"
  | .emptyExpression => some "Empty expression"
  | .mismatchedDelimiter => some "Mismatched delimiter"
  | .nestedTooDeeply => some "expressions nested too deeply"
  | .invalidExpression => none

mutual

/-- The words of a record, if everything that they are made of is there. -/
def LexicalRecord.message? : LexicalRecord → Option String
  | .of .formatString _ (some inner) _ => inner.message?.map ("Got error in f-string: " ++ ·)
  | .of .formatString _ none _ => none
  | .of .unrecognizedToken tok _ _ => tok.map ("Got unexpected token " ++ ·)
  | .of .other _ _ message => message
  | .of kind _ _ _ => kind.wording?

def FStringRecord.message? : FStringRecord → Option String
  | .of .invalidExpression (some inner) => inner.message?.map ("Invalid expression: " ++ ·)
  | .of kind _ => kind.wording?

def ParseRecord.message? : ParseRecord → Option String
  | .of .endOfFile _ _ _ => some "Got unexpected EOF"
  | .of .extraToken token _ _ => token.map fun token => "Got extraneous token: " ++ token.debug
  | .of .invalidToken _ _ _ => some "Got invalid token"
  | .of .unrecognizedToken token expected _ => token.map fun token =>
    if token = .indent then "unexpected indent"
    else if expected = some Token.indent.kind then "expected an indented block"
    else "Got unexpected token " ++ token.message
  | .of .lexical _ _ (some inner) => inner.message?
  | .of .lexical _ _ none => none

end

mutual

def LexicalRecord.debug : LexicalRecord → String
  | .of kind tok none message =>
    debugLexical kind ((tok.map Text.quoted).getD debugNothing) debugNothing
      ((message.map Text.quoted).getD debugNothing)
  | .of kind tok (some inner) message =>
    debugLexical kind ((tok.map Text.quoted).getD debugNothing) inner.debug
      ((message.map Text.quoted).getD debugNothing)

def FStringRecord.debug : FStringRecord → String
  | .of kind none => debugFString kind debugNothing
  | .of kind (some inner) => debugFString kind inner.debug

def ParseRecord.debug : ParseRecord → String
  | .of kind token expected none =>
    debugParse kind ((token.map Token.debug).getD debugNothing)
      ((expected.map Text.quoted).getD debugNothing) debugNothing
  | .of kind token expected (some inner) =>
    debugParse kind ((token.map Token.debug).getD debugNothing)
      ((expected.map Text.quoted).getD debugNothing) inner.debug

end

mutual

/-- The records inside a record, the nearest first. -/
def LexicalRecord.inside : LexicalRecord → List Record
  | .of _ _ none _ => []
  | .of _ _ (some inner) _ => .formatString inner :: inner.inside

def FStringRecord.inside : FStringRecord → List Record
  | .of _ none => []
  | .of _ (some inner) => .parse inner :: inner.inside

def ParseRecord.inside : ParseRecord → List Record
  | .of _ _ _ none => []
  | .of _ _ _ (some inner) => .lexical inner :: inner.inside

end

def LexicalRecord.kind : LexicalRecord → LexicalKind
  | .of kind _ _ _ => kind

def ParseRecord.isIndentation? : ParseRecord → Option Bool
  | .of .lexical _ _ inner => inner.map (·.kind = .indentationError)
  | .of .unrecognizedToken token expected _ =>
    some (token = some .indent || expected = some Token.indent.kind)
  | .of _ _ _ _ => some false

def ParseRecord.isTab? : ParseRecord → Option Bool
  | .of .lexical _ _ inner => inner.map (·.kind = .tabError)
  | .of _ _ _ _ => some false

namespace Record

def message? : Record → Option String
  | lexical record => record.message?
  | formatString record => record.message?
  | parse record => record.message?

def debug : Record → String
  | lexical record => record.debug
  | formatString record => record.debug
  | parse record => record.debug

def inside : Record → List Record
  | lexical record => record.inside
  | formatString record => record.inside
  | parse record => record.inside

/-- The record makes the reason, and says of itself what the reason says. -/
structure Says (record : Record) (reason : Reason) : Prop where
  build : record.build = .ok reason
  message : record.message? = some reason.message
  debug : record.debug = reason.debug
  flags : ∀ r, record = .parse r → ∃ q, reason = .parse q ∧
    r.isIndentation? = some q.isIndentation ∧ r.isTab? = some q.isTab

end Record

/-! ### What is made keeps what it is made of -/

theorem LexicalReason.eq_of_ofPayloads {kind : LexicalKind} {p : LexicalPayloads}
    {reason : LexicalReason} (h : ofPayloads kind p = .ok reason) :
    reason.kind = kind ∧ reason.payloads = p := by
  have hlength := ((govern_ofPayloads kind p).succeeds.mp ⟨reason, h⟩).2
  obtain ⟨tok, fstringError, message⟩ := p
  cases kind
  case unrecognizedToken =>
    cases tok with
    | none => cases h
    | some text =>
        cases fstringError <;> cases message <;> try cases h
        have hone : text.toList.length = 1 := String.length_toList.trans (hlength text rfl)
        obtain ⟨c, hc⟩ := List.length_eq_one_iff.mp hone
        obtain rfl : text = c.toString := String.toList_inj.mp (by simp [hc, Char.toString])
        rw [ofPayloads_unrecognizedToken hc] at h
        cases h
        exact ⟨rfl, rfl⟩
  all_goals
    cases tok <;> cases fstringError <;> cases message <;> cases h
    exact ⟨rfl, rfl⟩

theorem FStringReason.eq_of_ofPayloads {kind : FStringKind} {p : Option ParseReason}
    {reason : FStringReason} (h : ofPayloads kind p = .ok reason) :
    reason.kind = kind ∧ reason.payload = p := by
  cases kind <;> cases p <;> cases h <;> exact ⟨rfl, rfl⟩

theorem ParseReason.eq_of_ofPayloads {kind : ParseKind} {p : ParsePayloads}
    {reason : ParseReason} (h : ofPayloads kind p = .ok reason) :
    reason.kind = kind ∧ reason.payloads = p := by
  obtain ⟨token, expected, lexicalError⟩ := p
  cases kind <;> cases token <;> cases expected <;> cases lexicalError <;> cases h
  all_goals exact ⟨rfl, rfl⟩

theorem LexicalReason.eq_indentationError_iff {reason : LexicalReason} :
    reason = .indentationError ↔ reason.kind = .indentationError := by
  cases reason <;> simp [kind]

theorem LexicalReason.eq_tabError_iff {reason : LexicalReason} :
    reason = .tabError ↔ reason.kind = .tabError := by
  cases reason <;> simp [kind]

theorem exists_of_bind_eq_ok {ε α β : Type} {x : Except ε α} {f : α → Except ε β} {b : β}
    (h : x >>= f = .ok b) : ∃ a, x = .ok a ∧ f a = .ok b := by
  cases x with
  | error e => cases h
  | ok a => exact ⟨a, rfl, h⟩

theorem exists_of_map_eq_ok {ε α β : Type} {x : Except ε α} {f : α → β} {b : β}
    (h : x.map f = .ok b) : ∃ a, x = .ok a ∧ f a = b := by
  cases x with
  | error e => cases h
  | ok a => exact ⟨a, rfl, Except.ok.inj h⟩

theorem LexicalRecord.kind_of_build {record : LexicalRecord} {reason : LexicalReason}
    (h : record.build = .ok reason) : reason.kind = record.kind := by
  obtain ⟨kind, tok, _ | inner, message⟩ := record
  · exact (LexicalReason.eq_of_ofPayloads h).1
  · obtain ⟨made, -, hmade⟩ := exists_of_bind_eq_ok h
    exact (LexicalReason.eq_of_ofPayloads hmade).1

/-! ### Records say what their reasons say -/

namespace Record

theorem build_lexical {record : LexicalRecord} {reason : LexicalReason}
    (h : record.build = .ok reason) : (lexical record).build = .ok (.lexical reason) := by
  rw [build, h]
  rfl

theorem build_formatString {record : FStringRecord} {reason : FStringReason}
    (h : record.build = .ok reason) :
    (formatString record).build = .ok (.formatString reason) := by
  rw [build, h]
  rfl

theorem build_parse {record : ParseRecord} {reason : ParseReason}
    (h : record.build = .ok reason) : (parse record).build = .ok (.parse reason) := by
  rw [build, h]
  rfl

end Record

mutual

-- The induction follows the records, not the reasons: the payloads of a record decide which one
-- of the reasons it makes, and with it which of the places are looked into.

theorem LexicalRecord.forall₂_says : (record : LexicalRecord) → {reason : LexicalReason} →
    record.build = .ok reason → List.Forall₂ Record.Says
      (.lexical record :: record.inside) (.lexical reason :: reason.causes)
  | .of kind tok none message, reason, h => by
      have hbuild := Record.build_lexical h
      obtain ⟨rfl, hpayloads⟩ := LexicalReason.eq_of_ofPayloads h
      cases reason <;> cases hpayloads
      all_goals exact .cons ⟨hbuild, rfl, rfl, fun _ hr => by cases hr⟩ .nil
  | .of kind tok (some inner) message, reason, h => by
      have hbuild := Record.build_lexical h
      obtain ⟨made, hmade, hof⟩ := exists_of_bind_eq_ok h
      obtain ⟨rfl, hpayloads⟩ := LexicalReason.eq_of_ofPayloads hof
      have ih := inner.forall₂_says hmade
      have hinner := (List.forall₂_cons.mp ih).1
      have hmessage : inner.message? = some made.message := hinner.message
      have hdebug : inner.debug = made.debug := hinner.debug
      cases reason <;> cases hpayloads
      refine .cons ⟨hbuild, ?_, ?_, fun _ hr => by cases hr⟩ ih
      · simp only [Record.message?, LexicalRecord.message?, LexicalReason.kind, hmessage]
        rfl
      · simp only [Record.debug, LexicalRecord.debug, hdebug]
        rfl

theorem FStringRecord.forall₂_says : (record : FStringRecord) → {reason : FStringReason} →
    record.build = .ok reason → List.Forall₂ Record.Says
      (.formatString record :: record.inside) (.formatString reason :: reason.causes)
  | .of kind none, reason, h => by
      have hbuild := Record.build_formatString h
      obtain ⟨rfl, hpayload⟩ := FStringReason.eq_of_ofPayloads h
      cases reason <;> cases hpayload
      all_goals exact .cons ⟨hbuild, rfl, rfl, fun _ hr => by cases hr⟩ .nil
  | .of kind (some inner), reason, h => by
      have hbuild := Record.build_formatString h
      obtain ⟨made, hmade, hof⟩ := exists_of_bind_eq_ok h
      obtain ⟨rfl, hpayload⟩ := FStringReason.eq_of_ofPayloads hof
      have ih := inner.forall₂_says hmade
      have hinner := (List.forall₂_cons.mp ih).1
      have hmessage : inner.message? = some made.message := hinner.message
      have hdebug : inner.debug = made.debug := hinner.debug
      cases reason <;> cases hpayload
      refine .cons ⟨hbuild, ?_, ?_, fun _ hr => by cases hr⟩ ih
      · simp only [Record.message?, FStringRecord.message?, FStringReason.kind, hmessage]
        rfl
      · simp only [Record.debug, FStringRecord.debug, hdebug]
        rfl

theorem ParseRecord.forall₂_says : (record : ParseRecord) → {reason : ParseReason} →
    record.build = .ok reason → List.Forall₂ Record.Says
      (.parse record :: record.inside) (.parse reason :: reason.causes)
  | .of kind token expected none, reason, h => by
      have hbuild := Record.build_parse h
      obtain ⟨rfl, hpayloads⟩ := ParseReason.eq_of_ofPayloads h
      cases reason <;> cases hpayloads
      all_goals
        refine .cons ⟨hbuild, rfl, rfl, fun _ hr => ?_⟩ .nil
        cases hr
        exact ⟨_, rfl, by simp [ParseRecord.isIndentation?, ParseReason.isIndentation,
          ParseReason.kind], rfl⟩
  | .of kind token expected (some inner), reason, h => by
      have hbuild := Record.build_parse h
      obtain ⟨made, hmade, hof⟩ := exists_of_bind_eq_ok h
      obtain ⟨rfl, hpayloads⟩ := ParseReason.eq_of_ofPayloads hof
      have ih := inner.forall₂_says hmade
      have hinner := (List.forall₂_cons.mp ih).1
      have hmessage : inner.message? = some made.message := hinner.message
      have hdebug : inner.debug = made.debug := hinner.debug
      have hkind : made.kind = inner.kind := LexicalRecord.kind_of_build hmade
      cases reason <;> cases hpayloads
      refine .cons ⟨hbuild, ?_, ?_, fun _ hr => ?_⟩ ih
      · simp only [Record.message?, ParseRecord.message?, ParseReason.kind, hmessage]
        rfl
      · simp only [Record.debug, ParseRecord.debug, hdebug]
        rfl
      · cases hr
        refine ⟨_, rfl, ?_⟩
        simp [ParseRecord.isIndentation?, ParseRecord.isTab?, ParseReason.isIndentation,
          ParseReason.isTab, ParseReason.kind, LexicalReason.eq_indentationError_iff,
          LexicalReason.eq_tabError_iff, hkind]

end

theorem Record.forall₂_says : (record : Record) → {reason : Reason} →
    record.build = .ok reason → List.Forall₂ Says (record :: record.inside) (reason :: reason.causes)
  | lexical record, reason, h => by
      obtain ⟨made, hmade, rfl⟩ := exists_of_map_eq_ok h
      exact record.forall₂_says hmade
  | formatString record, reason, h => by
      obtain ⟨made, hmade, rfl⟩ := exists_of_map_eq_ok h
      exact record.forall₂_says hmade
  | parse record, reason, h => by
      obtain ⟨made, hmade, rfl⟩ := exists_of_map_eq_ok h
      exact record.forall₂_says hmade

/-- The demands of its kind, and the length of the text of a token, tell whether a reason is made
and otherwise why not; and what is made always says something. -/
theorem reasons_closed :
    (∀ (kind : LexicalKind) p, kind.demands.Govern p.slots p.tok (LexicalReason.ofPayloads kind p)) ∧
    (∀ (kind : FStringKind) inner, kind.demands.Govern
      [⟨"expression_error", inner.isSome⟩] none (FStringReason.ofPayloads kind inner)) ∧
    (∀ (kind : ParseKind) p, kind.demands.Govern p.slots none (ParseReason.ofPayloads kind p)) ∧
    ∀ record reason, Record.build record = .ok reason →
      List.Forall₂ Record.Says (record :: record.inside) (reason :: reason.causes) :=
  ⟨LexicalReason.govern_ofPayloads, FStringReason.govern_ofPayloads,
    ParseReason.govern_ofPayloads, fun record _ => record.forall₂_says⟩

end SyntaxTriage
