import SyntaxTriage.Lexeme

/-!
Syntax trees, and their outline.
-/

namespace SyntaxTriage

inductive Tree where
  | node (label : String) (children : List Tree)
  | leaf (lexeme : Lexeme Terminal)
  /-- Stands for an optional part that is not there. -/
  | absent

namespace Tree

mutual

def leaves : Tree → List (Lexeme Terminal)
  | node _ children => leavesOfAll children
  | leaf lexeme => [lexeme]
  | absent => []

def leavesOfAll : List Tree → List (Lexeme Terminal)
  | [] => []
  | t :: ts => leaves t ++ leavesOfAll ts

end

def indentation (depth : Nat) : String := String.ofList (List.replicate (2 * depth) ' ')

def text? : Tree → Option String
  | node _ _ => none
  | leaf lexeme => some lexeme.text
  | absent => some "None"

mutual

/-- A node takes a line for its label, and its children follow, one level deeper. A child without
siblings that is no node stands on the line of its parent. -/
def outlineAt (depth : Nat) : Tree → String
  | node label [child] =>
    indentation depth ++ label ++ match child.text? with
      | some text => "\t" ++ text ++ "\n"
      | none => "\n" ++ outlineAt (depth + 1) child
  | node label children =>
    indentation depth ++ label ++ "\n" ++ outlineOfAll (depth + 1) children
  | leaf lexeme => indentation depth ++ lexeme.text ++ "\n"
  | absent => indentation depth ++ "None\n"

def outlineOfAll (depth : Nat) : List Tree → String
  | [] => ""
  | t :: ts => outlineAt depth t ++ outlineOfAll depth ts

end

def outline (t : Tree) : String := outlineAt 0 t

end Tree

end SyntaxTriage
