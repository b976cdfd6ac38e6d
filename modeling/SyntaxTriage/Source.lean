import SyntaxTriage.FString.Literal
import SyntaxTriage.FString.Scan
import SyntaxTriage.Parser.Basic
import SyntaxTriage.Traced

/-!
Sources read in full: the parser makes a tree, and then every expression in every format string of
the tree is read in the same way, as a source of its own in parentheses. A source is refused for
the first string, in the order of the source, that is malformed or holds a malformed expression.
-/

namespace SyntaxTriage.Source

/-- What the parts of the library never do to each other. -/
inductive Defect where
  /-- A closing bracket was read that closes nothing. -/
  | unopenedBracket
  /-- A line break was read that holds none. -/
  | noLineBreak
  /-- A string literal was read that has no quotes. -/
  | noQuote
  /-- Expressions were nested deeper than the source is long. -/
  | endless
  deriving DecidableEq

inductive Fault where
  | failure (failure : Failure)
  | defect (defect : Defect)
  deriving DecidableEq

inductive Halt where
  | invalid (error : ParseError)
  | defect (defect : Defect)
  deriving DecidableEq

def faultOf (text : List Char) : Parser.Stop → Fault
  | .rejected rejection => .failure (rejection.toFailure (some (Location.endOf text)))
  | .fault (.lexical error) => .failure (.user error)
  | .fault .unopenedBracket => .defect .unopenedBracket
  | .fault .noLineBreak => .defect .noLineBreak

/-- The text that the parser reads: every line has its end. -/
def complete (source : List Char) : List Char :=
  if source.getLast? = some '\n' then source else source ++ ['\n']

abbrev Reader := List Char → Traced Halt Tree

def parenthesized (expression : List Char) : List Char := '(' :: expression ++ [')']

def checkExpression (read : Reader) (location : Location) (expression : List Char) :
    Traced Fault Unit :=
  (read (parenthesized expression)).handle
    (fun
      | .invalid error =>
        .ofExcept (.error (.failure
          (FStringError.toFailure ⟨.invalidExpression error.reason, location⟩)))
      | .defect defect => .ofExcept (.error (.defect defect)))
    (fun _ => .ofExcept (.ok ()))

def isString (l : Lexeme Terminal) : Bool := l.kind = .shortString || l.kind = .longString

/-- Checks a string literal; only format strings have anything to check. -/
def checkString (read : Reader) (l : Lexeme Terminal) : Traced Fault Unit :=
  match StringLiteral.ofText? l.text.toList with
  | none => .ofExcept (.error (.defect .noQuote))
  | some literal =>
    if literal.isFormat then
      let location := Location.ofCoordinates l.line l.column {}
      match FString.scan literal.body location with
      | .error error => .ofExcept (.error (.failure error.toFailure))
      | .ok expressions => expressions.forM (checkExpression read location)
    else .ofExcept (.ok ())

def checkStrings (read : Reader) (tree : Tree) : Traced Fault Unit :=
  (tree.leaves.filter isString).forM (checkString read)

def parseOnce (read : Reader) (mode : Mode) (source : List Char) : Traced Fault Tree := do
  let text := complete source
  let tree ← .ofExcept ((Parser.run mode.entry text).mapError (faultOf text))
  checkStrings read tree
  return tree

def conclude (mode : Mode) (source : List Char) (t : Traced Fault Tree) : Traced Halt Tree :=
  t.handle
    (fun
      | .failure failure => do
        .log (.translated failure)
        .ofExcept (.error (.invalid failure.toParseError))
      | .defect defect => .ofExcept (.error (.defect defect)))
    (fun tree => do
      .log (.parsed source.length mode)
      return tree)

/-- Reads a source in which expressions are nested less than `fuel` deep. -/
def parseWithin : (fuel : Nat) → Mode → Reader
  | 0, _, _ => .ofExcept (.error (.defect .endless))
  | fuel + 1, mode, source =>
    conclude mode source (parseOnce (parseWithin fuel .statement) mode source)

/-- The tree of a source. An expression is shorter than the source that it stands in, even with
parentheses around it, so the length of the source bounds the nesting. -/
def parse (mode : Mode) (source : String) : Traced Halt Tree :=
  parseWithin (source.toList.length + 1) mode source.toList

/-- A thread in which sources are read. It has its own parser, from its first source on. -/
structure Thread where
  name : String
  built : Bool

def Thread.preparation (thread : Thread) : List Event :=
  if thread.built then [] else [.building thread.name]

def parseIn (thread : Thread) (mode : Mode) (source : String) : Traced Halt Tree :=
  let parsed := parse mode source
  { parsed with events := thread.preparation ++ parsed.events }

end SyntaxTriage.Source
