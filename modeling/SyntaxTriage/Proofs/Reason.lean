import SyntaxTriage.Reason.Build

/-!
Reasons and their payloads. Every reason, of whatever family, is the one that its own kind and its
own payloads make.
-/

namespace SyntaxTriage

def LexicalReason.payloads : LexicalReason → LexicalPayloads
  | .unrecognizedToken character => { tok := some character.toString }
  | .formatString reason => { fstringError := some reason }
  | .other message => { message := some message }
  | _ => {}

def FStringReason.payload : FStringReason → Option ParseReason
  | .invalidExpression reason => some reason
  | _ => none

def ParseReason.payloads : ParseReason → ParsePayloads
  | .extraToken token => { token := some token }
  | .unrecognizedToken token expected => { token := some token, expected }
  | .lexical reason => { lexicalError := some reason }
  | _ => {}

/-- The reason can be made from its kind and its payloads. -/
def Reason.Constructed : Reason → Prop
  | .lexical reason => LexicalReason.ofPayloads reason.kind reason.payloads = .ok reason
  | .formatString reason => FStringReason.ofPayloads reason.kind reason.payload = .ok reason
  | .parse reason => ParseReason.ofPayloads reason.kind reason.payloads = .ok reason

theorem LexicalReason.ofPayloads_unrecognizedToken {text : String} {character : Char}
    (h : text.toList = [character]) :
    ofPayloads .unrecognizedToken { tok := some text } = .ok (.unrecognizedToken character) := by
  simp [ofPayloads, demand, forbid, h, bind, Except.bind, pure, Except.pure]

theorem LexicalReason.ofPayloads_payloads (reason : LexicalReason) :
    ofPayloads reason.kind reason.payloads = .ok reason := by
  cases reason with
  | unrecognizedToken character =>
      exact ofPayloads_unrecognizedToken (by simp [Char.toString])
  | _ => rfl

theorem FStringReason.ofPayloads_payload (reason : FStringReason) :
    ofPayloads reason.kind reason.payload = .ok reason := by
  cases reason <;> rfl

theorem ParseReason.ofPayloads_payloads (reason : ParseReason) :
    ofPayloads reason.kind reason.payloads = .ok reason := by
  cases reason <;> rfl

theorem Reason.constructed : (reason : Reason) → reason.Constructed
  | .lexical reason => reason.ofPayloads_payloads
  | .formatString reason => reason.ofPayloads_payload
  | .parse reason => reason.ofPayloads_payloads

end SyntaxTriage
