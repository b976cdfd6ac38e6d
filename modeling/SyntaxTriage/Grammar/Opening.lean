import SyntaxTriage.Grammar.Beginning
import SyntaxTriage.Grammar.Item

/-!
What a dot before a nonterminal calls for: the items with nothing read of that nonterminal and of
all nonterminals that may come first in it.
-/

namespace SyntaxTriage.Grammar

/-- Nonterminals with all that may begin them. -/
structure Opening where
  heads : NonterminalSet
  items : List Item

def Opening.empty : Opening := ⟨∅, []⟩

/-- Adds the items of new heads. -/
def Opening.union (o p : Opening) : Opening :=
  ⟨o.heads ∪ p.heads, o.items ++ p.items.filter (·.head ∉ o.heads)⟩

def openingTable : Array Opening :=
  (Nonterminal.all.map fun n =>
    let heads := leads n
    ⟨heads, heads.toList.flatMap initialItems⟩).toArray

def openingOf (n : Nonterminal) : Opening := openingTable[Numbered.index n]?.getD .empty

def opening (ns : List Nonterminal) : Opening :=
  ns.foldl (fun o n => if n ∈ o.heads then o else o.union (openingOf n)) .empty

end SyntaxTriage.Grammar
