import SyntaxTriage.Reason.Basic

/-!
The kinds of reasons: what a reason says apart from what it carries along.
-/

namespace SyntaxTriage

structure KindError where
  family : String
  value : String

def KindError.message (e : KindError) : String :=
  Text.quoted e.value ++ " is not a valid " ++ e.family

def debugMember (family member value : String) : String :=
  "<" ++ family ++ "." ++ member ++ ": " ++ Text.quoted value ++ ">"

inductive LexicalKind where
  | stringError
  | unicodeError
  | nestingError
  | indentationError
  | tabError
  | defaultArgumentError
  | positionalArgumentError
  | duplicateKeywordArgumentError
  | unrecognizedToken
  | formatString
  | lineContinuationError
  | endOfFile
  | other
  deriving DecidableEq

namespace LexicalKind

def all : List LexicalKind := [.stringError, .unicodeError, .nestingError, .indentationError,
  .tabError, .defaultArgumentError, .positionalArgumentError, .duplicateKeywordArgumentError,
  .unrecognizedToken, .formatString, .lineContinuationError, .endOfFile, .other]

/-- The name of the kind where reasons are written down. -/
def value : LexicalKind → String
  | stringError => "StringError"
  | unicodeError => "UnicodeError"
  | nestingError => "NestingError"
  | indentationError => "IndentationError"
  | tabError => "TabError"
  | defaultArgumentError => "DefaultArgumentError"
  | positionalArgumentError => "PositionalArgumentError"
  | duplicateKeywordArgumentError => "DuplicateKeywordArgumentError"
  | unrecognizedToken => "UnrecognizedToken"
  | formatString => "FStringError"
  | lineContinuationError => "LineContinuationError"
  | endOfFile => "EOF"
  | other => "OtherError"

/-- The name of the kind among its family, as debug output shows it. -/
def memberName : LexicalKind → String
  | stringError => "STRING_ERROR"
  | unicodeError => "UNICODE_ERROR"
  | nestingError => "NESTING_ERROR"
  | indentationError => "INDENTATION_ERROR"
  | tabError => "TAB_ERROR"
  | defaultArgumentError => "DEFAULT_ARGUMENT_ERROR"
  | positionalArgumentError => "POSITIONAL_ARGUMENT_ERROR"
  | duplicateKeywordArgumentError => "DUPLICATE_KEYWORD_ARGUMENT_ERROR"
  | unrecognizedToken => "UNRECOGNIZED_TOKEN"
  | formatString => "FSTRING_ERROR"
  | lineContinuationError => "LINE_CONTINUATION_ERROR"
  | endOfFile => "EOF"
  | other => "OTHER_ERROR"

def familyName : String := "LexicalErrorKind"

def ofValue (value : String) : Except KindError LexicalKind :=
  match all.find? (·.value = value) with
  | some kind => .ok kind
  | none => .error ⟨familyName, value⟩

def debug (kind : LexicalKind) : String := debugMember familyName kind.memberName kind.value

end LexicalKind

def LexicalReason.kind : LexicalReason → LexicalKind
  | .stringError => .stringError
  | .unicodeError => .unicodeError
  | .nestingError => .nestingError
  | .indentationError => .indentationError
  | .tabError => .tabError
  | .defaultArgumentError => .defaultArgumentError
  | .positionalArgumentError => .positionalArgumentError
  | .duplicateKeywordArgumentError => .duplicateKeywordArgumentError
  | .unrecognizedToken _ => .unrecognizedToken
  | .formatString _ => .formatString
  | .lineContinuationError => .lineContinuationError
  | .endOfFile => .endOfFile
  | .other _ => .other

inductive FStringKind where
  | unclosedBrace
  | unopenedBrace
  | expectedBrace
  | invalidExpression
  | invalidConversionFlag
  | emptyExpression
  | mismatchedDelimiter
  | nestedTooDeeply
  deriving DecidableEq

namespace FStringKind

def all : List FStringKind := [.unclosedBrace, .unopenedBrace, .expectedBrace,
  .invalidExpression, .invalidConversionFlag, .emptyExpression, .mismatchedDelimiter,
  .nestedTooDeeply]

def value : FStringKind → String
  | unclosedBrace => "UnclosedLbrace"
  | unopenedBrace => "UnopenedRbrace"
  | expectedBrace => "ExpectedRbrace"
  | invalidExpression => "InvalidExpression"
  | invalidConversionFlag => "InvalidConversionFlag"
  | emptyExpression => "EmptyExpression"
  | mismatchedDelimiter => "MismatchedDelimiter"
  | nestedTooDeeply => "ExpressionNestedTooDeeply"

def memberName : FStringKind → String
  | unclosedBrace => "UNCLOSED_LBRACE"
  | unopenedBrace => "UNOPENED_RBRACE"
  | expectedBrace => "EXPECTED_RBRACE"
  | invalidExpression => "INVALID_EXPRESSION"
  | invalidConversionFlag => "INVALID_CONVERSION_FLAG"
  | emptyExpression => "EMPTY_EXPRESSION"
  | mismatchedDelimiter => "MISMATCHED_DELIMITER"
  | nestedTooDeeply => "EXPRESSION_NESTED_TOO_DEEPLY"

def familyName : String := "FStringErrorKind"

def ofValue (value : String) : Except KindError FStringKind :=
  match all.find? (·.value = value) with
  | some kind => .ok kind
  | none => .error ⟨familyName, value⟩

def debug (kind : FStringKind) : String := debugMember familyName kind.memberName kind.value

end FStringKind

def FStringReason.kind : FStringReason → FStringKind
  | .unclosedBrace => .unclosedBrace
  | .unopenedBrace => .unopenedBrace
  | .expectedBrace => .expectedBrace
  | .invalidExpression _ => .invalidExpression
  | .invalidConversionFlag => .invalidConversionFlag
  | .emptyExpression => .emptyExpression
  | .mismatchedDelimiter => .mismatchedDelimiter
  | .nestedTooDeeply => .nestedTooDeeply

inductive ParseKind where
  | endOfFile
  | extraToken
  | invalidToken
  | unrecognizedToken
  | lexical
  deriving DecidableEq

namespace ParseKind

def all : List ParseKind := [.endOfFile, .extraToken, .invalidToken, .unrecognizedToken,
  .lexical]

def value : ParseKind → String
  | endOfFile => "EOF"
  | extraToken => "ExtraToken"
  | invalidToken => "InvalidToken"
  | unrecognizedToken => "UnrecognizedToken"
  | lexical => "Lexical"

def memberName : ParseKind → String
  | endOfFile => "EOF"
  | extraToken => "EXTRA_TOKEN"
  | invalidToken => "INVALID_TOKEN"
  | unrecognizedToken => "UNRECOGNIZED_TOKEN"
  | lexical => "LEXICAL"

def familyName : String := "ParseErrorKind"

def ofValue (value : String) : Except KindError ParseKind :=
  match all.find? (·.value = value) with
  | some kind => .ok kind
  | none => .error ⟨familyName, value⟩

def debug (kind : ParseKind) : String := debugMember familyName kind.memberName kind.value

end ParseKind

def ParseReason.kind : ParseReason → ParseKind
  | .endOfFile => .endOfFile
  | .extraToken _ => .extraToken
  | .invalidToken => .invalidToken
  | .unrecognizedToken _ _ => .unrecognizedToken
  | .lexical _ => .lexical

end SyntaxTriage
