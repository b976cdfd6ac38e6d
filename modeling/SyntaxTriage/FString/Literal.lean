import SyntaxTriage.Text.Lowercase

/-!
String literals taken apart: the letters in front of the opening quote, and the text between the
quotes.
-/

namespace SyntaxTriage

structure StringLiteral where
  /-- The letters in front of the quotes, in lower case. -/
  letters : List Char
  body : List Char
  deriving DecidableEq

namespace StringLiteral

def isQuote (c : Char) : Bool := c = '"' || c = '\''

/-- How many quotes stand at either end of a quoted text. -/
def quoteWidth : List Char → Nat
  | '"' :: '"' :: '"' :: _ | '\'' :: '\'' :: '\'' :: _ => 3
  | _ => 1

/-- Takes a literal apart; there is nothing to take apart if it has no quote. -/
def ofText? (text : List Char) : Option StringLiteral :=
  match text.dropWhile (!isQuote ·) with
  | [] => none
  | quoted =>
    let width := quoteWidth quoted
    some {
      letters := Text.lower (text.takeWhile (!isQuote ·))
      body := (quoted.drop width).take (quoted.length - 2 * width) }

def isFormat (l : StringLiteral) : Bool := 'f' ∈ l.letters

end StringLiteral

end SyntaxTriage
