import SyntaxTriage.Reason.Kind

/-!
The debug form of reasons. It names the kind and every field that a reason of the family can have,
with `None` for a field that the reason does not use.
-/

namespace SyntaxTriage

def debugRecord (name : String) (fields : List (String × String)) : String :=
  name ++ "(" ++ ", ".intercalate (fields.map fun (field, value) => field ++ "=" ++ value) ++ ")"

def debugNothing : String := "None"

def debugLexical (kind : LexicalKind) (tok fstringError message : String) : String :=
  debugRecord "LexicalErrorType" [("kind", kind.debug), ("tok", tok),
    ("fstring_error", fstringError), ("message", message)]

def debugFString (kind : FStringKind) (expressionError : String) : String :=
  debugRecord "FStringErrorType" [("kind", kind.debug), ("expression_error", expressionError)]

def debugParse (kind : ParseKind) (token expected lexicalError : String) : String :=
  debugRecord "ParseErrorType" [("kind", kind.debug), ("token", token), ("expected", expected),
    ("lexical_error", lexicalError)]

mutual

def LexicalReason.debug : LexicalReason → String
  | .unrecognizedToken character =>
    debugLexical .unrecognizedToken (Text.quoted character.toString) debugNothing debugNothing
  | .formatString reason => debugLexical .formatString debugNothing reason.debug debugNothing
  | .other message => debugLexical .other debugNothing debugNothing (Text.quoted message)
  | reason => debugLexical reason.kind debugNothing debugNothing debugNothing

def FStringReason.debug : FStringReason → String
  | .invalidExpression reason => debugFString .invalidExpression reason.debug
  | reason => debugFString reason.kind debugNothing

def ParseReason.debug : ParseReason → String
  | .extraToken token => debugParse .extraToken token.debug debugNothing debugNothing
  | .unrecognizedToken token expected =>
    debugParse .unrecognizedToken token.debug ((expected.map Text.quoted).getD debugNothing)
      debugNothing
  | .lexical reason => debugParse .lexical debugNothing debugNothing reason.debug
  | reason => debugParse reason.kind debugNothing debugNothing debugNothing

end

def Reason.debug : Reason → String
  | .lexical reason => reason.debug
  | .formatString reason => reason.debug
  | .parse reason => reason.debug

end SyntaxTriage
