import SyntaxTriage.Grammar.Terminal

/-!
Lexemes: pieces of a source with their kind and the positions between which they stand. The kinds
are terminals in the parser and names in reports; what layout needs to know of them is their role.
-/

namespace SyntaxTriage

/-- A piece of a source. A position is missing where the lexeme was made by hand. -/
structure Lexeme (κ : Type) where
  kind : κ
  text : String
  line : Option Int
  column : Option Int
  endLine : Option Int
  endColumn : Option Int
  deriving DecidableEq

namespace Lexeme

variable {κ : Type}

/-- A lexeme that takes all positions from another one. -/
def borrow (l : Lexeme κ) (kind : κ) (text : String) : Lexeme κ := { l with kind, text }

def unplaced (kind : κ) (text : String) : Lexeme κ := ⟨kind, text, none, none, none, none⟩

def mapKind {κ' : Type} (f : κ → κ') (l : Lexeme κ) : Lexeme κ' := { l with kind := f l.kind }

end Lexeme

inductive LayoutRole where
  | newline
  | opening
  | closing
  | other
  deriving DecidableEq

/-- Kinds of lexemes that layout can be read from and written in. -/
class LayoutKind (κ : Type) where
  role : κ → LayoutRole
  indent : κ
  dedent : κ

instance : LayoutKind Terminal where
  role
    | .newline => .newline
    | .leftParen | .leftBracket | .leftBrace => .opening
    | .rightParen | .rightBracket | .rightBrace => .closing
    | _ => .other
  indent := .indent
  dedent := .dedent

instance : LayoutKind String where
  role name :=
    if name = Terminal.name .newline then .newline
    else if name ∈ [Terminal.name .leftParen, Terminal.name .leftBracket,
      Terminal.name .leftBrace] then .opening
    else if name ∈ [Terminal.name .rightParen, Terminal.name .rightBracket,
      Terminal.name .rightBrace] then .closing
    else .other
  indent := Terminal.name .indent
  dedent := Terminal.name .dedent

end SyntaxTriage
