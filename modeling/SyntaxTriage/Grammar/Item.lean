import SyntaxTriage.Grammar.Basic

/-!
Items: productions with a dot that separates what has been read from what is still to come.
-/

namespace SyntaxTriage

structure Item where
  production : Production
  /-- The place of the production among those of its head. -/
  choice : Nat
  /-- The symbols behind the dot. -/
  rest : List Symbol
  deriving DecidableEq

namespace Item

def head (i : Item) : Nonterminal := i.production.head

def next? (i : Item) : Option Symbol := i.rest.head?

def advance? (x : Symbol) (i : Item) : Option Item :=
  match i.rest with
  | [] => none
  | y :: rest => if y = x then some { i with rest } else none

def called? (i : Item) : Option Nonterminal :=
  match i.rest with
  | .nonterminal n :: _ => some n
  | _ => none

/-- Tells an item from all others, and gives the items an order. -/
def key (i : Item) : List Nat := [Numbered.index i.head, i.choice, i.rest.length]

def insert (i : Item) : List Item → List Item
  | [] => [i]
  | j :: rest => if (compare i.key j.key).isLE then i :: j :: rest else j :: insert i rest

def sort (items : List Item) : List Item := items.foldr insert []

end Item

namespace Grammar

/-- The items of a nonterminal with nothing read. -/
def initialItems (n : Nonterminal) : List Item :=
  (productionsOf n).zipIdx.map fun (p, choice) => ⟨p, choice, p.symbols⟩

end Grammar

end SyntaxTriage
