import SyntaxTriage.Diagnostic
import SyntaxTriage.Text.Blank

/-!
The replacement fields of a format string. A field stands in braces: an expression, then perhaps a
conversion behind an exclamation mark, then perhaps a format behind a colon, and a format may hold
fields of its own. `scan` reads the body of the string character by character and returns the
texts of the expressions; whether they are expressions is not its concern.
-/

namespace SyntaxTriage.FString

inductive Mode where
  /-- Text outside all fields. -/
  | text
  /-- The format of the innermost of `depth` open fields. -/
  | format (depth : Nat)
  /-- The expression of a field inside `depth` others; `closers` are the brackets that it has to
  close, the innermost first, and `seen` is the expression so far, backwards. -/
  | expression (depth : Nat) (closers : List Char) (quote : Option Char) (seen : List Char)
  /-- The letter of a conversion. -/
  | conversion (depth : Nat)
  /-- What must follow a conversion: a format or the end of the field. -/
  | afterConversion (depth : Nat)

/-- Fields may hold fields, but those may not. -/
def maxDepth : Nat := 2

def closer? : Char → Option Char
  | '(' => some ')'
  | '[' => some ']'
  | '\x7b' => some '\x7d'
  | _ => none

def isCloser (c : Char) : Bool := c = ')' || c = ']' || c = '\x7d'

def isConversion (c : Char) : Bool := c = 's' || c = 'r' || c = 'a'

/-- Whether a character outside quotes and brackets ends the expression, by what follows it. -/
def endsExpression (c : Char) (rest : List Char) : Bool :=
  c = ':' || c = '\x7d' || c = '!' && rest.head? ≠ some '='

/-- An expression without the equals sign that asks for its own text to be shown as well; the
second character of a comparison is no such sign. -/
def dropEcho (source : List Char) : List Char :=
  let trimmed := Text.trimEnd source
  match trimmed.reverse with
  | '=' :: c :: _ => if c ∈ ['=', '!', '<', '>'] then source else trimmed.dropLast
  | ['='] => []
  | _ => source

def expression (source : List Char) : Except FStringReason (List Char) :=
  let source := dropEcho source
  if source.all Text.isBlank then .error .emptyExpression else .ok source

/-- What goes on when the innermost of `depth + 1` fields is closed. -/
def Mode.afterField : (depth : Nat) → Mode
  | 0 => text
  | depth + 1 => format (depth + 1)

def Mode.afterExpression (depth : Nat) (c : Char) : Mode :=
  if c = '!' then conversion depth else if c = ':' then format (depth + 1) else afterField depth

/-- A character of an expression that does not end it. -/
def readExpression (depth : Nat) (closers : List Char) (quote : Option Char) (seen : List Char)
    (c : Char) : Except FStringReason Mode :=
  match quote with
  | some q => .ok (.expression depth closers (if c = q then none else quote) (c :: seen))
  | none =>
    if c = '\'' ∨ c = '"' then .ok (.expression depth closers (some c) (c :: seen))
    else match closer? c with
      | some closer => .ok (.expression depth (closer :: closers) none (c :: seen))
      | none =>
        if isCloser c then
          match closers with
          | closer :: closers =>
            if c = closer then .ok (.expression depth closers none (c :: seen))
            else .error .mismatchedDelimiter
          | [] => .error .mismatchedDelimiter
        else .ok (.expression depth closers none (c :: seen))

/-- The expressions of the fields in a text, in the order of their opening braces. -/
def scanFrom : Mode → List Char → Except FStringReason (List (List Char))
  | .text, [] => .ok []
  | .text, '\x7b' :: '\x7b' :: rest => scanFrom .text rest
  | .text, '\x7b' :: rest => scanFrom (.expression 0 [] none []) rest
  | .text, '\x7d' :: '\x7d' :: rest => scanFrom .text rest
  | .text, '\x7d' :: _ => .error .unopenedBrace
  | .text, _ :: rest => scanFrom .text rest
  | .format _, [] => .error .unclosedBrace
  | .format depth, c :: rest =>
    if c = '\x7b' then
      if maxDepth ≤ depth then .error .nestedTooDeeply
      else scanFrom (.expression depth [] none []) rest
    else if c = '\x7d' then scanFrom (.afterField (depth - 1)) rest
    else scanFrom (.format depth) rest
  | .expression .., [] => .error .unclosedBrace
  | .expression depth closers quote seen, c :: rest =>
    if quote.isNone && closers.isEmpty && endsExpression c rest then do
      let found ← expression seen.reverse
      return found :: (← scanFrom (.afterExpression depth c) rest)
    else do
      let mode ← readExpression depth closers quote seen c
      scanFrom mode rest
  | .conversion _, [] => .error .invalidConversionFlag
  | .conversion depth, c :: rest =>
    if isConversion c then scanFrom (.afterConversion depth) rest
    else .error .invalidConversionFlag
  | .afterConversion depth, c :: rest =>
    if c = ':' then scanFrom (.format (depth + 1)) rest
    else if c = '\x7d' then scanFrom (.afterField depth) rest
    else .error .expectedBrace
  | .afterConversion _, [] => .error .expectedBrace

def scan (body : List Char) (location : Location) : Except FStringError (List (List Char)) :=
  (scanFrom .text body).mapError (⟨·, location⟩)

end SyntaxTriage.FString
