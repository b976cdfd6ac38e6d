import SyntaxTriage.Grammar.Nonterminal

/-!
What kind of input a source is read as.
-/

namespace SyntaxTriage

inductive Mode where
  /-- Any number of statements. -/
  | program
  /-- One expression, which may be followed by empty lines. -/
  | statement
  deriving DecidableEq

namespace Mode

inductive NameError where
  | unknown

def NameError.message : NameError → String
  | .unknown => "mode should be \"exec\", \"eval\", or \"single\""

def ofName (name : String) : Except NameError Mode :=
  if name = "exec" ∨ name = "single" then .ok program
  else if name = "eval" then .ok statement
  else .error .unknown

def name : Mode → String
  | program => "PROGRAM"
  | statement => "STATEMENT"

def entry : Mode → Nonterminal
  | program => .fileInput
  | statement => .evalInput

/-- The label of the root of every tree that is read in the mode. -/
def startRule : Mode → String
  | program => "file_input"
  | statement => "eval_input"

end Mode

end SyntaxTriage
