/-!
Positions in a text. Rows and columns count from one; a position stands before the character it
names, so the position after a text is the one that the next character would have.
-/

namespace SyntaxTriage

structure Location where
  row : Int := 1
  column : Int := 1
  deriving DecidableEq, Inhabited

namespace Location

/-- Earlier row, or earlier column in the same row. -/
instance : LT Location := ⟨fun a b => a.row < b.row ∨ a.row = b.row ∧ a.column < b.column⟩

instance : LE Location := ⟨fun a b => a.row < b.row ∨ a.row = b.row ∧ a.column ≤ b.column⟩

instance (a b : Location) : Decidable (a < b) :=
  inferInstanceAs (Decidable (a.row < b.row ∨ a.row = b.row ∧ a.column < b.column))

instance (a b : Location) : Decidable (a ≤ b) :=
  inferInstanceAs (Decidable (a.row < b.row ∨ a.row = b.row ∧ a.column ≤ b.column))

def sort (locations : List Location) : List Location := locations.mergeSort (· ≤ ·)

/-- A location made of two coordinates, if both are known and positive; otherwise the fallback. -/
def ofCoordinates (line column : Option Int) (fallback : Location) : Location :=
  match line, column with
  | some row, some column => if 0 < row ∧ 0 < column then ⟨row, column⟩ else fallback
  | _, _ => fallback

def step (l : Location) (c : Char) : Location :=
  if c = '\n' then ⟨l.row + 1, 1⟩ else ⟨l.row, l.column + 1⟩

def advance (l : Location) (text : List Char) : Location := text.foldl step l

/-- The position behind the last character of a text: the row is told by the number of line breaks,
the column by the length of the last line. -/
def endOf (text : List Char) : Location where
  row := text.count '\n' + 1
  column := (text.reverse.takeWhile (· ≠ '\n')).length + 1

def message (l : Location) : String := s!"line {l.row} column {l.column}"

def debug (l : Location) : String := s!"Location(row={l.row}, column={l.column})"

end Location

end SyntaxTriage
