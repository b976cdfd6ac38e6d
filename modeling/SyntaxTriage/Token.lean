import SyntaxTriage.Lexeme
import SyntaxTriage.Text.Quoted

/-!
Tokens as messages show them: a kind, and the text for kinds whose text says anything.
-/

namespace SyntaxTriage

structure Token where
  kind : String
  value : String := ""
  deriving DecidableEq

namespace Token

/-- The terminals of layout, with the names that readers know them by. -/
def layoutNames : List (String × String) := [
  (Terminal.name .indent, "Indent"), (Terminal.name .dedent, "Dedent"),
  (Terminal.name .newline, "Newline"), (Terminal.name .endOfInput, "EndOfFile")]

def displayName (name : String) : String := (layoutNames.lookup name).getD name

def indent : Token := ⟨"Indent", ""⟩

def dedent : Token := ⟨"Dedent", ""⟩

def newline : Token := ⟨"Newline", ""⟩

def endOfFile : Token := ⟨"EndOfFile", ""⟩

/-- Layout is told by its kind alone: the text of such a token is white space. -/
def isLayoutKind (kind : String) : Bool := (layoutNames.map (·.2)).contains kind

def ofTerminal (name text : String) : Token :=
  let kind := displayName name
  if isLayoutKind kind then ⟨kind, ""⟩ else ⟨kind, text⟩

def unknownKind : String := "UNKNOWN"

def message (t : Token) : String := if t.value = "" then t.kind else "'" ++ t.value ++ "'"

def debug (t : Token) : String :=
  if t.value = "" then t.kind else t.kind ++ "(" ++ Text.quoted t.value ++ ")"

end Token

end SyntaxTriage
