import SyntaxTriage.Diagnostic
import SyntaxTriage.Lexeme

/-!
Layout: the indentation of logical lines as lexemes of its own. Line breaks inside brackets are
left out. Behind every other line break the indentation of the next line is compared with the open
levels, and an opening lexeme or as many closing ones as levels end are put in.

Indentation is measured in two ways. The levels count every tab as `tabSize` columns. The check for
mixed tabs and blanks moves to the next tab stop, and refuses a line whose order relative to the
line before depends on how wide a tab is.
-/

namespace SyntaxTriage

structure Layout where
  /-- How many brackets are open. -/
  brackets : Nat := 0
  /-- The open levels of indentation, the innermost first; the last one is the left margin. -/
  levels : List Nat := [0]
  /-- The indentation of the line before. -/
  previous : List Char := []
  deriving DecidableEq

inductive LayoutFault where
  | lexical (error : LexicalError)
  /-- More brackets are closed than opened. -/
  | unopenedBracket
  /-- The text of a line break holds none. -/
  | noLineBreak
  deriving DecidableEq

/-- What reading one lexeme gives: the lexemes to hand on, and how it goes on after them. -/
structure LayoutStep (κ : Type) where
  emitted : List (Lexeme κ)
  next : Except LayoutFault Layout

namespace Layout

def lastLine? (text : List Char) : Option (List Char) :=
  if '\n' ∈ text then some (text.reverse.takeWhile (· ≠ '\n')).reverse else none

def isIndentChar (c : Char) : Bool := c = ' ' || c = '\t'

def indentation (text : List Char) : List Char :=
  ((lastLine? text).getD text).takeWhile isIndentChar

/-- The column behind an indentation, where tabs move to the next multiple of `tabSize`. -/
def width (tabSize : Nat) (indentation : List Char) : Nat :=
  indentation.foldl
    (fun column c => if c = '\t' then (column / tabSize + 1) * tabSize else column + 1) 0

/-- Whether two indentations are ordered in one way with the given tabs and in another way with
tabs of one column. -/
def inconsistent (tabSize : Nat) (indentation previous : List Char) : Bool :=
  compare (width tabSize indentation) (width tabSize previous) ≠
    compare (width 1 indentation) (width 1 previous)

/-- The measure of levels, where every tab counts the same. -/
def level (tabSize : Nat) (line : List Char) : Nat :=
  line.count ' ' + tabSize * line.count '\t'

variable {κ : Type}

/-- A coordinate, or one if it is unknown or zero. -/
def coordinate : Option Int → Int
  | some n => if n = 0 then 1 else n
  | none => 1

def endLocation (l : Lexeme κ) : Location := ⟨coordinate l.endLine, coordinate l.endColumn⟩

variable [LayoutKind κ]

def readNewline (tabSize : Nat) (s : Layout) (l : Lexeme κ) : LayoutStep κ :=
  if 0 < s.brackets then ⟨[], .ok s⟩
  else
    let text := l.text.toList
    let indent := indentation text
    if inconsistent tabSize indent s.previous then
      ⟨[], .error (.lexical ⟨.tabError, endLocation l⟩)⟩
    else match lastLine? text with
      | none => ⟨[l], .error .noLineBreak⟩
      | some line =>
        let new := level tabSize line
        if s.levels.head?.any (· < new) then
          ⟨[l, l.borrow LayoutKind.indent (String.ofList line)],
            .ok { s with levels := new :: s.levels, previous := indent }⟩
        else
          let ended := s.levels.takeWhile (new < ·)
          let levels := s.levels.dropWhile (new < ·)
          ⟨l :: ended.map fun _ => l.borrow LayoutKind.dedent (String.ofList line),
            if levels.head? = some new then .ok { s with levels, previous := indent }
            else .error (.lexical ⟨.indentationError, endLocation l⟩)⟩

def read (tabSize : Nat) (s : Layout) (l : Lexeme κ) : LayoutStep κ :=
  match LayoutKind.role l.kind with
  | .newline => readNewline tabSize s l
  | .opening => ⟨[l], .ok { s with brackets := s.brackets + 1 }⟩
  | .closing =>
    ⟨[l], if s.brackets = 0 then .error .unopenedBracket
      else .ok { s with brackets := s.brackets - 1 }⟩
  | .other => ⟨[l], .ok s⟩

/-- The lexemes that close all levels at the end of the input. They take the positions of the last
lexeme; one without text has none to give. -/
def finish (s : Layout) (last : Option (Lexeme κ)) : List (Lexeme κ) :=
  let dedent := match last with
    | some l =>
      if l.text = "" then ⟨LayoutKind.dedent, "", some 0, some 0, some 0, some 0⟩
      else l.borrow LayoutKind.dedent ""
    | none => ⟨LayoutKind.dedent, "", some 0, some 0, some 0, some 0⟩
  s.levels.dropLast.map fun _ => dedent

/-- Reads lexemes from some state on; `last` is the lexeme before them. -/
def readFrom (tabSize : Nat) (s : Layout) (last : Option (Lexeme κ)) :
    List (Lexeme κ) → List (Lexeme κ) × Option LayoutFault
  | [] => (s.finish last, none)
  | l :: rest =>
    let step := s.read tabSize l
    match step.next with
    | .error fault => (step.emitted, some fault)
    | .ok s =>
      let (emitted, fault) := readFrom tabSize s (some l) rest
      (step.emitted ++ emitted, fault)

def readAll (tabSize : Nat) (input : List (Lexeme κ)) :
    List (Lexeme κ) × Option LayoutFault :=
  readFrom tabSize {} none input

/-- Reads an input with a reader that has been used before. The state that it is in is left over
from another input, and everything in it is set anew. -/
def process (tabSize : Nat) (used : Layout) (input : List (Lexeme κ)) :
    List (Lexeme κ) × Option LayoutFault :=
  readFrom tabSize { used with brackets := 0, levels := [0], previous := [] } none input

/-- Reads one input after another with the same reader. The state in which an input leaves it, or in
which it is given up, is told by `left`. -/
def processAll (tabSize : Nat) (left : Layout → List (Lexeme κ) → Layout) (used : Layout) :
    List (List (Lexeme κ)) → List (List (Lexeme κ) × Option LayoutFault)
  | [] => []
  | input :: inputs =>
    process tabSize used input :: processAll tabSize left (left used input) inputs

end Layout

end SyntaxTriage
