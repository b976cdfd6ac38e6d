import SyntaxTriage.Grammar.Terminal
import SyntaxTriage.Lexeme
import SyntaxTriage.Lexer.Number
import SyntaxTriage.Lexer.Text
import SyntaxTriage.Location

/-!
The lexer. It is asked for one lexeme at a time, together with the terminals that the parser could
go on with, and takes the first of these, in the order of `Terminal.all`, that begins the rest of
the source. What may be a keyword is read as an identifier first wherever the parser takes one; it
is the keyword only if its whole text is, and only if the parser takes the keyword as well.
-/

namespace SyntaxTriage

/-- The text behind a terminal, if the terminal begins the given text. -/
def Terminal.read (t : Terminal) (text : List Char) : Option (List Char) :=
  match t with
  | .imaginary => Lexer.imaginary text
  | .float => Lexer.float text
  | .hexadecimal => Lexer.hexadecimal text
  | .binary => Lexer.binary text
  | .octal => Lexer.octal text
  | .shortString => Lexer.shortString text
  | .longString => Lexer.longString text
  | .decimal => Lexer.decimal text
  | .newline => Lexer.newline text
  | .continuation => Lexer.continuation text
  | .identifier => Lexer.identifier text
  | .comment => Lexer.comment text
  | .blank => Lexer.blank text
  | t => t.text?.bind fun fixed => Lexer.fixed fixed.toList text

def Terminal.isSkipped : Terminal → Bool
  | .continuation | .comment | .blank => true
  | _ => false

/-- Whether the fixed text of a terminal could be an identifier. -/
def Terminal.isKeyword (t : Terminal) : Bool :=
  t.text?.any fun fixed => Lexer.identifier fixed.toList = some []

namespace Lexer

def keywords : List Terminal := Terminal.all.filter Terminal.isKeyword

/-- The terminals that are always looked for: those that are skipped, and line breaks, which layout
needs to see. -/
def always : TerminalSet := .ofList [.newline, .continuation, .comment, .blank]

def everything : TerminalSet := .ofList Terminal.all

def keyword? (candidates : TerminalSet) (word : List Char) : Option Terminal :=
  keywords.find? fun k => k ∈ candidates && k.text? = some (String.ofList word)

def tried (candidates : TerminalSet) : List Terminal :=
  candidates.toList.filter fun t => !(.identifier ∈ candidates && t.isKeyword)

/-- The first candidate that begins the text, and the length of what it takes. -/
def first? (candidates : TerminalSet) (text : List Char) : Option (Terminal × Nat) := do
  let (t, rest) ← (tried candidates).findSome? fun t => (t.read text).map (t, ·)
  let length := text.length - rest.length
  if length = 0 then none
  else if t = .identifier then
    some ((keyword? candidates (text.take length)).getD .identifier, length)
  else some (t, length)

structure Cursor where
  rest : List Char
  location : Location

def Cursor.take (c : Cursor) (t : Terminal) (length : Nat) : Lexeme Terminal × Cursor :=
  let text := c.rest.take length
  let stop := c.location.advance text
  (⟨t, String.ofList text, c.location.row, c.location.column, stop.row, stop.column⟩,
    ⟨c.rest.drop length, stop⟩)

inductive Next where
  | lexeme (lexeme : Lexeme Terminal) (behind : Cursor)
  | finished
  /-- The source goes on with a lexeme that the parser cannot go on with. -/
  | misplaced (lexeme : Lexeme Terminal)
  /-- No lexeme begins with the character. -/
  | unreadable (character : Char) (location : Location)

/-- The next lexeme that is not skipped; `fuel` bounds the number of those that are. -/
def nextFrom (candidates : TerminalSet) : (fuel : Nat) → Cursor → Next
  | 0, _ => .finished
  | fuel + 1, cursor =>
    match cursor.rest with
    | [] => .finished
    | c :: _ =>
      match first? candidates cursor.rest with
      | some (t, length) =>
        let (lexeme, behind) := cursor.take t length
        if t.isSkipped then nextFrom candidates fuel behind else .lexeme lexeme behind
      | none =>
        match first? everything cursor.rest with
        | some (t, length) => .misplaced (cursor.take t length).1
        | none => .unreadable c cursor.location

def next (candidates : TerminalSet) (cursor : Cursor) : Next :=
  nextFrom (candidates ∪ always) (cursor.rest.length + 1) cursor

end Lexer

end SyntaxTriage
