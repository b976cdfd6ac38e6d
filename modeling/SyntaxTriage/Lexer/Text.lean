import SyntaxTriage.Text.Word

/-!
String literals, identifiers, and what stands between tokens. As with numbers, a reader gives the
text behind what it has read, or nothing.
-/

namespace SyntaxTriage.Lexer

/-- The letters that may stand before a string, in lower case, as first and second one. -/
def isKindLetter (c : Char) : Bool := c = 'u' || c = 'b' || c = 'f'

def isStringLetters : List Char → Bool
  | [] => true
  | [c] => c = 'r' || isKindLetter c
  | [c, d] => c = 'r' && isKindLetter d || isKindLetter c && d = 'r'
  | _ => false

def isQuote (c : Char) : Bool := c = '"' || c = '\''

/-- The opening quote and the text behind it, if only the letters of a string stand before it. -/
def opening (text : List Char) : Option (Char × List Char) :=
  let letters := (text.take 2).takeWhile (!isQuote ·)
  match text.drop letters.length with
  | c :: rest =>
    if isQuote c && isStringLetters (letters.map Char.toLower) then some (c, rest) else none
  | [] => none

/-- The text behind the quote that ends a string on one line. A quote counts if the backslashes
right before it are even in number; `escaped` says whether those read so far are odd. -/
def shortBody (quote : Char) (escaped : Bool) : List Char → Option (List Char)
  | [] => none
  | c :: rest =>
    if c = quote && !escaped then some rest
    else if c = '\n' then none
    else shortBody quote (c = '\\' && !escaped) rest

/-- As `shortBody`, for three quotes in a row; the string may go over several lines. -/
def longBody (quote : Char) (escaped : Bool) : List Char → Option (List Char)
  | [] => none
  | c :: rest =>
    if c = quote && !escaped && rest.take 2 = [quote, quote] then some (rest.drop 2)
    else longBody quote (c = '\\' && !escaped) rest

/-- A string between single quotes; three in a row do not begin one. -/
def shortString (text : List Char) : Option (List Char) :=
  (opening text).bind fun (quote, rest) =>
    if rest.take 2 = [quote, quote] then none else shortBody quote false rest

def longString (text : List Char) : Option (List Char) :=
  (opening text).bind fun (quote, rest) =>
    if rest.take 2 = [quote, quote] then longBody quote false (rest.drop 2) else none

def identifier : List Char → Option (List Char)
  | c :: rest => if Text.isWordStart c then some (rest.dropWhile Text.isWord) else none
  | [] => none

def comment : List Char → Option (List Char)
  | '#' :: rest => some (rest.dropWhile (· ≠ '\n'))
  | _ => none

def lineBreak : List Char → Option (List Char)
  | '\n' :: rest | '\r' :: '\n' :: rest => some rest
  | _ => none

/-- A line break with the indentation behind it, or a comment. -/
def emptyLine (text : List Char) : Option (List Char) :=
  ((lineBreak text).map (·.dropWhile fun c => c = '\t' || c = ' ')).or (comment text)

/-- As many empty lines and comments as there are; `fuel` bounds their number. -/
def skipEmptyLines : (fuel : Nat) → List Char → List Char
  | 0, text => text
  | fuel + 1, text =>
    match emptyLine text with
    | some rest => skipEmptyLines fuel rest
    | none => text

def newline (text : List Char) : Option (List Char) :=
  (emptyLine text).map (skipEmptyLines text.length)

def isBlankChar (c : Char) : Bool := c = '\t' || c = ' ' || c = '\x0c'

def blank : List Char → Option (List Char)
  | c :: rest => if isBlankChar c then some (rest.dropWhile isBlankChar) else none
  | [] => none

/-- A backslash that joins a line to the next one. -/
def continuation : List Char → Option (List Char)
  | '\\' :: rest => lineBreak (rest.dropWhile isBlankChar)
  | _ => none

def fixed (expected : List Char) (text : List Char) : Option (List Char) :=
  if expected.isPrefixOf text then some (text.drop expected.length) else none

end SyntaxTriage.Lexer
