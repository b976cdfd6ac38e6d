import SyntaxTriage.Diagnostic
import SyntaxTriage.Lexeme

/-!
The shapes in which the parser fails, and what each of them means in the terms of `ParseError`. A
rejection is what the parser itself knows when it stops; it takes one of the shapes here.
-/

namespace SyntaxTriage

structure SpannedToken where
  start : Location
  token : Token
  stop : Location
  deriving DecidableEq

inductive Failure where
  /-- No token could be made at the location. -/
  | invalidToken (location : Location)
  /-- The input goes on behind its end. -/
  | extraToken (token : SpannedToken)
  /-- The lexer, or a check behind it, refused the input. -/
  | user (error : LexicalError)
  /-- No rule takes the token where it stands. -/
  | unrecognizedToken (token : SpannedToken) (expected : List String)
  /-- The input ends where more is needed. -/
  | unrecognizedEof (location : Location) (expected : List String)
  deriving DecidableEq

namespace Failure

def shapeName : Failure → String
  | invalidToken _ => "InvalidToken"
  | extraToken _ => "ExtraToken"
  | user _ => "User"
  | unrecognizedToken _ _ => "UnrecognizedToken"
  | unrecognizedEof _ _ => "UnrecognizedEOF"

/-- The only expected token; several alternatives are not worth showing. -/
def hint : List String → Option String
  | [name] => some name
  | _ => none

/-- A text that cannot be made into tokens is reported as one that stops short. -/
def toParseError : Failure → ParseError
  | invalidToken location => ⟨.endOfFile, location⟩
  | extraToken token => ⟨.extraToken token.token, token.start⟩
  | user error => ⟨.lexical error.reason, error.location⟩
  | unrecognizedToken token expected =>
    ⟨.unrecognizedToken token.token (hint expected), token.start⟩
  | unrecognizedEof location _ => ⟨.endOfFile, location⟩

end Failure

def FStringError.toFailure (e : FStringError) : Failure :=
  .user ⟨.formatString e.reason, e.location⟩

/-- What may be handed over as a failure: one of the shapes, or a text that is none of them. -/
inductive Handover where
  | failure (failure : Failure)
  | text (value : String)
  deriving DecidableEq

structure UnknownFailure where
  value : String

def UnknownFailure.message (e : UnknownFailure) : String :=
  "Unknown engine failure: " ++ Text.quoted e.value

def Handover.toParseError : Handover → Except UnknownFailure ParseError
  | failure f => .ok f.toParseError
  | text value => .error ⟨value⟩

def SpannedToken.ofLexeme (l : Lexeme String) : SpannedToken :=
  let token := Token.ofTerminal l.kind l.text
  let start := Location.ofCoordinates l.line l.column {}
  match l.endLine, l.endColumn with
  | some row, some column =>
    -- the tokens of indentation stand where the line break before them ends
    if token ∈ [Token.indent, Token.dedent] then ⟨⟨row, column⟩, token, ⟨row, column⟩⟩
    else ⟨start, token, ⟨row, column⟩⟩
  | _, _ => ⟨start, token, start⟩

/-- What the parser knows when it stops. A missing position is one that it could not tell. -/
inductive Rejection where
  /-- The lexer has no token that starts with the character. -/
  | character (character : Char) (line column : Option Int)
  /-- The parser cannot go on with the lexeme. `expected` holds what the state calls for, and
  `accepted` what it would indeed go on with, if that is known. -/
  | lexeme (lexeme : Lexeme String) (expected accepted : List String)
  | endOfInput (expected : List String)
  | other (line column : Option Int)

namespace Rejection

def displayNames (names : List String) : List String :=
  (names.map Token.displayName).mergeSort (· ≤ ·)

/-- The shape of a rejection; `fallback` is where the input ends, if that is known. -/
def toFailure (fallback : Option Location) : Rejection → Failure
  | character c line column =>
    .user ⟨.unrecognizedToken c, Location.ofCoordinates line column (fallback.getD {})⟩
  | lexeme l expected accepted =>
    let expected := (if accepted.isEmpty then expected else accepted).eraseDups
    if l.kind = Terminal.name .endOfInput then
      .unrecognizedEof (Location.ofCoordinates l.line l.column (fallback.getD {}))
        (displayNames expected)
    else if expected = [Terminal.name .endOfInput] then .extraToken (SpannedToken.ofLexeme l)
    else .unrecognizedToken (SpannedToken.ofLexeme l) (displayNames expected)
  | endOfInput expected => .unrecognizedEof (fallback.getD {}) (displayNames expected)
  | other line column => .invalidToken (Location.ofCoordinates line column (fallback.getD {}))

end Rejection

end SyntaxTriage
