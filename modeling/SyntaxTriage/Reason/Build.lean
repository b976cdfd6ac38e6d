import SyntaxTriage.Reason.Kind

/-!
Reasons made from a kind and separate payloads. A kind takes some payloads and needs some of them;
the payloads are judged one after another, and each first by whether the kind takes it at all.
-/

namespace SyntaxTriage

inductive PayloadError where
  | unexpected (kind payload : String)
  | missing (kind payload : String)
  | notOneCharacter (text : String)
  deriving DecidableEq

def PayloadError.message : PayloadError → String
  | unexpected kind payload => kind ++ " does not take a " ++ Text.quoted payload ++ " payload"
  | missing kind payload => kind ++ " requires a " ++ Text.quoted payload ++ " payload"
  | notOneCharacter text =>
    "UnrecognizedToken takes a single character, got " ++ Text.quoted text

def forbid {α : Type} (kind payload : String) : Option α → Except PayloadError Unit
  | none => .ok ()
  | some _ => .error (.unexpected kind payload)

def demand {α : Type} (kind payload : String) : Option α → Except PayloadError α
  | none => .error (.missing kind payload)
  | some value => .ok value

structure LexicalPayloads where
  tok : Option String := none
  fstringError : Option FStringReason := none
  message : Option String := none

def LexicalReason.ofPayloads (kind : LexicalKind) (p : LexicalPayloads) :
    Except PayloadError LexicalReason := do
  let forbidAll (reason : LexicalReason) : Except PayloadError LexicalReason := do
    forbid kind.value "tok" p.tok
    forbid kind.value "fstring_error" p.fstringError
    forbid kind.value "message" p.message
    return reason
  match kind with
  | .unrecognizedToken =>
    let tok ← demand kind.value "tok" p.tok
    forbid kind.value "fstring_error" p.fstringError
    forbid kind.value "message" p.message
    match tok.toList with
    | [character] => return .unrecognizedToken character
    | _ => throw (.notOneCharacter tok)
  | .formatString =>
    forbid kind.value "tok" p.tok
    let reason ← demand kind.value "fstring_error" p.fstringError
    forbid kind.value "message" p.message
    return .formatString reason
  | .other =>
    forbid kind.value "tok" p.tok
    forbid kind.value "fstring_error" p.fstringError
    return .other (← demand kind.value "message" p.message)
  | .stringError => forbidAll .stringError
  | .unicodeError => forbidAll .unicodeError
  | .nestingError => forbidAll .nestingError
  | .indentationError => forbidAll .indentationError
  | .tabError => forbidAll .tabError
  | .defaultArgumentError => forbidAll .defaultArgumentError
  | .positionalArgumentError => forbidAll .positionalArgumentError
  | .duplicateKeywordArgumentError => forbidAll .duplicateKeywordArgumentError
  | .lineContinuationError => forbidAll .lineContinuationError
  | .endOfFile => forbidAll .endOfFile

def FStringReason.ofPayloads (kind : FStringKind) (expressionError : Option ParseReason) :
    Except PayloadError FStringReason := do
  let forbidAll (reason : FStringReason) : Except PayloadError FStringReason := do
    forbid kind.value "expression_error" expressionError
    return reason
  match kind with
  | .invalidExpression =>
    return .invalidExpression (← demand kind.value "expression_error" expressionError)
  | .unclosedBrace => forbidAll .unclosedBrace
  | .unopenedBrace => forbidAll .unopenedBrace
  | .expectedBrace => forbidAll .expectedBrace
  | .invalidConversionFlag => forbidAll .invalidConversionFlag
  | .emptyExpression => forbidAll .emptyExpression
  | .mismatchedDelimiter => forbidAll .mismatchedDelimiter
  | .nestedTooDeeply => forbidAll .nestedTooDeeply

structure ParsePayloads where
  token : Option Token := none
  expected : Option String := none
  lexicalError : Option LexicalReason := none

def ParseReason.ofPayloads (kind : ParseKind) (p : ParsePayloads) :
    Except PayloadError ParseReason := do
  match kind with
  | .extraToken =>
    let token ← demand kind.value "token" p.token
    forbid kind.value "expected" p.expected
    forbid kind.value "lexical_error" p.lexicalError
    return .extraToken token
  | .unrecognizedToken =>
    let token ← demand kind.value "token" p.token
    forbid kind.value "lexical_error" p.lexicalError
    return .unrecognizedToken token p.expected
  | .lexical =>
    forbid kind.value "token" p.token
    forbid kind.value "expected" p.expected
    return .lexical (← demand kind.value "lexical_error" p.lexicalError)
  | .endOfFile =>
    forbid kind.value "token" p.token
    forbid kind.value "expected" p.expected
    forbid kind.value "lexical_error" p.lexicalError
    return .endOfFile
  | .invalidToken =>
    forbid kind.value "token" p.token
    forbid kind.value "expected" p.expected
    forbid kind.value "lexical_error" p.lexicalError
    return .invalidToken

end SyntaxTriage
