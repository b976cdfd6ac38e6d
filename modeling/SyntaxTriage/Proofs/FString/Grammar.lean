import SyntaxTriage.FString.Scan

/-!
The grammar of format strings. It says which texts are bodies, and which expressions a body
interpolates, without saying how to find out. The scanner is compared with it elsewhere.
-/

namespace SyntaxTriage.FString

def IsQuote (c : Char) : Prop := c = '\'' ∨ c = '"'

/-- Text in which every quote is ended by the same quote and every bracket by its own closer. What
stands between quotes is not looked at. -/
inductive Closed : List Char → Prop
  | nil : Closed []
  | plain {c : Char} {text : List Char} (quote : ¬IsQuote c) (opener : closer? c = none)
      (closer : isCloser c = false) (behind : Closed text) : Closed (c :: text)
  | quoted {q : Char} {inner text : List Char} (quote : IsQuote q) (inside : q ∉ inner)
      (behind : Closed text) : Closed (q :: inner ++ q :: text)
  | bracketed {c closer : Char} {inner text : List Char} (opener : closer? c = some closer)
      (inside : Closed inner) (behind : Closed text) : Closed (c :: inner ++ closer :: text)

/-- A character that ends an expression if it stands outside quotes and brackets. -/
def Ends (c : Char) (behind : List Char) : Prop :=
  c = ':' ∨ c = '\x7d' ∨ c = '!' ∧ ∀ rest, behind ≠ '=' :: rest

/-- The text of an expression goes up to the first character outside quotes and brackets that can
end it; `behind` is what follows in the body. -/
structure ReachesEnd (source behind : List Char) : Prop where
  closed : Closed source
  ends : ∃ c rest, behind = c :: rest ∧ Ends c rest
  first : ∀ before c after, source = before ++ c :: after → Closed before →
    ¬Ends c (after ++ behind)

/-- The text `source` asks to be shown in front of the value of `expression`: it is the expression
with an equals sign behind it, and perhaps blanks, and the sign is not part of a comparison. -/
def Echoes (source expression : List Char) : Prop :=
  ∃ blanks, source = expression ++ '=' :: blanks ∧ (∀ c ∈ blanks, Text.isBlank c) ∧
    ∀ c ∈ expression.getLast?, c ∉ ['=', '!', '<', '>']

structure Denotes (source expression : List Char) : Prop where
  echo : Echoes source expression ∨ expression = source ∧ ∀ e, ¬Echoes source e
  visible : ∃ c ∈ expression, ¬Text.isBlank c

/-- The parts of a body. A field stands inside `depth` others. Its suffix is the format with the
colon in front of it, if there is one. -/
inductive Phrase where
  | body
  | field (depth : Nat)
  | suffix (depth : Nat)
  | format (depth : Nat)

/-- Which texts are phrases, each with the expressions in it, in the order of their opening
braces. -/
inductive Derives : Phrase → List Char → List (List Char) → Prop
  | bodyEnd : Derives .body [] []
  | bodyPlain {c : Char} {text : List Char} {found : List (List Char)}
      (opener : c ≠ '\x7b') (closer : c ≠ '\x7d') (behind : Derives .body text found) :
      Derives .body (c :: text) found
  | bodyOpener {text : List Char} {found : List (List Char)} (behind : Derives .body text found) :
      Derives .body ('\x7b' :: '\x7b' :: text) found
  | bodyCloser {text : List Char} {found : List (List Char)} (behind : Derives .body text found) :
      Derives .body ('\x7d' :: '\x7d' :: text) found
  /-- Two braces in a row are one character of the body, and do not begin a field. -/
  | bodyField {inner text : List Char} {here found : List (List Char)}
      (field : Derives (.field 0) ('\x7b' :: inner) here) (single : inner.head? ≠ some '\x7b')
      (behind : Derives .body text found) :
      Derives .body ('\x7b' :: inner ++ text) (here ++ found)
  | field {depth : Nat} {source expression conversion suffix : List Char}
      {found : List (List Char)} (shallow : depth < 2)
      (reach : ReachesEnd source (conversion ++ suffix ++ ['\x7d']))
      (denotes : Denotes source expression)
      (letter : conversion ∈ [[], ['!', 's'], ['!', 'r'], ['!', 'a']])
      (format : Derives (.suffix depth) suffix found) :
      Derives (.field depth) ('\x7b' :: source ++ conversion ++ suffix ++ ['\x7d'])
        (expression :: found)
  | noFormat {depth : Nat} : Derives (.suffix depth) [] []
  | withFormat {depth : Nat} {text : List Char} {found : List (List Char)}
      (format : Derives (.format (depth + 1)) text found) :
      Derives (.suffix depth) (':' :: text) found
  | formatEnd {depth : Nat} : Derives (.format depth) [] []
  | formatPlain {depth : Nat} {c : Char} {text : List Char} {found : List (List Char)}
      (opener : c ≠ '\x7b') (closer : c ≠ '\x7d') (behind : Derives (.format depth) text found) :
      Derives (.format depth) (c :: text) found
  | formatField {depth : Nat} {inner text : List Char} {here found : List (List Char)}
      (field : Derives (.field depth) inner here)
      (behind : Derives (.format depth) text found) :
      Derives (.format depth) (inner ++ text) (here ++ found)

/-- The expressions are slices of the text, each right behind an opening brace, and the braces of
those further on in the list stand further on in the text. -/
def SlicesOf : List (List Char) → List Char → Prop
  | [], _ => True
  | e :: es, text => ∃ before after, text = before ++ '\x7b' :: e ++ after ∧ SlicesOf es (e ++ after)

end SyntaxTriage.FString
