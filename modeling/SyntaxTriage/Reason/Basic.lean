import SyntaxTriage.Token

/-!
Why a source is refused. There are three families of reasons, and a reason may rest on one of
another family: the parser's on the lexer's, the lexer's on that of a format string, and that of a
format string on the parser's reason against an expression in it.
-/

namespace SyntaxTriage

mutual

inductive LexicalReason where
  | stringError
  | unicodeError
  | nestingError
  | indentationError
  | tabError
  | defaultArgumentError
  | positionalArgumentError
  | duplicateKeywordArgumentError
  | unrecognizedToken (character : Char)
  | formatString (reason : FStringReason)
  | lineContinuationError
  | endOfFile
  | other (message : String)

inductive FStringReason where
  | unclosedBrace
  | unopenedBrace
  | expectedBrace
  | invalidExpression (reason : ParseReason)
  | invalidConversionFlag
  | emptyExpression
  | mismatchedDelimiter
  | nestedTooDeeply

inductive ParseReason where
  | endOfFile
  | extraToken (token : Token)
  | invalidToken
  /-- `expected` is there if only one token could have stood in the place. -/
  | unrecognizedToken (token : Token) (expected : Option String)
  | lexical (reason : LexicalReason)

end

deriving instance DecidableEq for LexicalReason, FStringReason, ParseReason

inductive Reason where
  | lexical (reason : LexicalReason)
  | formatString (reason : FStringReason)
  | parse (reason : ParseReason)
  deriving DecidableEq

namespace LexicalReason

def cause : LexicalReason → Option FStringReason
  | formatString reason => some reason
  | _ => none

end LexicalReason

namespace FStringReason

def cause : FStringReason → Option ParseReason
  | invalidExpression reason => some reason
  | _ => none

end FStringReason

namespace ParseReason

def cause : ParseReason → Option LexicalReason
  | lexical reason => some reason
  | _ => none

/-- Whether the reason lies in the depth of some indentation: a line that is indented without need
or not indented where it should be, or that returns to a level that is not open. -/
def isIndentation : ParseReason → Bool
  | lexical reason => reason = .indentationError
  | unrecognizedToken token expected => token = .indent || expected = some Token.indent.kind
  | _ => false

def isTab : ParseReason → Bool
  | lexical reason => reason = .tabError
  | _ => false

/-- Whether more input could still make the source valid: it stopped short, or an indented block
is still to come. -/
def isIncomplete (reason : ParseReason) : Bool := reason = .endOfFile || reason.isIndentation

end ParseReason

namespace Reason

def cause : Reason → Option Reason
  | lexical reason => reason.cause.map formatString
  | formatString reason => reason.cause.map parse
  | parse reason => reason.cause.map lexical

end Reason

mutual

def LexicalReason.causes : LexicalReason → List Reason
  | .formatString reason => .formatString reason :: reason.causes
  | _ => []

def FStringReason.causes : FStringReason → List Reason
  | .invalidExpression reason => .parse reason :: reason.causes
  | _ => []

def ParseReason.causes : ParseReason → List Reason
  | .lexical reason => .lexical reason :: reason.causes
  | _ => []

end

/-- The reasons that a reason rests on, the nearest first. -/
def Reason.causes : Reason → List Reason
  | lexical reason => reason.causes
  | formatString reason => reason.causes
  | parse reason => reason.causes

end SyntaxTriage
