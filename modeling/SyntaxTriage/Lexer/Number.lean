/-!
Number literals. Each reader takes the text from the literal's first character on and gives the
text behind the literal, or nothing if no such literal begins the text. Single underscores may
stand between digits.
-/

namespace SyntaxTriage.Lexer

def one (test : Char → Bool) : List Char → Option (List Char)
  | c :: rest => if test c then some rest else none
  | [] => none

/-- Skips digits, each with or without an underscore before it. -/
def skipDigits (digit : Char → Bool) : List Char → List Char
  | '_' :: c :: rest => if digit c then skipDigits digit rest else '_' :: c :: rest
  | c :: rest => if digit c then skipDigits digit rest else c :: rest
  | [] => []

def digits (text : List Char) : Option (List Char) :=
  (one Char.isDigit text).map (skipDigits Char.isDigit)

/-- A zero, a letter for the base, and digits, with or without an underscore before each. -/
def based (letter : Char) (digit : Char → Bool) : List Char → Option (List Char)
  | '0' :: c :: rest =>
    let behind := skipDigits digit rest
    if c.toLower = letter ∧ behind.length < rest.length then some behind else none
  | _ => none

def isHexDigit (c : Char) : Bool :=
  c.isDigit || 'a' ≤ c && c ≤ 'f' || 'A' ≤ c && c ≤ 'F'

def hexadecimal : List Char → Option (List Char) := based 'x' isHexDigit

def octal : List Char → Option (List Char) := based 'o' fun c => '0' ≤ c && c ≤ '7'

def binary : List Char → Option (List Char) := based 'b' fun c => c = '0' || c = '1'

/-- Zeros behind a zero, each with or without an underscore, but without the last of them if a
digit other than zero follows; `before` is the text that the last zero read leaves. -/
def zeros (before : Option (List Char)) (text : List Char) : Option (List Char) :=
  let stop := match text with
    | c :: _ => if '1' ≤ c && c ≤ '9' then before else some text
    | [] => some text
  match text with
  | '_' :: '0' :: rest => zeros (some text) rest
  | '0' :: rest => zeros (some text) rest
  | _ => stop

/-- A decimal integer: either it is all zeros, or it begins with another digit. -/
def decimal : List Char → Option (List Char)
  | '0' :: rest => zeros none rest
  | c :: rest => if c.isDigit then some (skipDigits Char.isDigit rest) else none
  | [] => none

def sign : List Char → List Char
  | '+' :: rest | '-' :: rest => rest
  | text => text

def exponent (text : List Char) : Option (List Char) :=
  (one (fun c => c = 'e' || c = 'E') text).bind fun rest => digits (sign rest)

def pointed (text : List Char) : Option (List Char) :=
  match digits text with
  | some ('.' :: rest) => some ((digits rest).getD rest)
  | some _ => none
  | none => (one (· = '.') text).bind digits

def float (text : List Char) : Option (List Char) :=
  ((digits text).bind exponent).or ((pointed text).map fun rest => (exponent rest).getD rest)

def imaginary (text : List Char) : Option (List Char) :=
  ((float text).or (digits text)).bind (one fun c => c = 'j' || c = 'J')

end SyntaxTriage.Lexer
