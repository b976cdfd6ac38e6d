import SyntaxTriage.Grammar.Opening

/-!
The automaton that reads the beginnings of right-hand sides. A state holds the items that what has
been read allows: those whose dot has been moved, and with a dot before a nonterminal everything
that may begin that nonterminal.
-/

namespace SyntaxTriage

structure State where
  /-- The items that reading has led to, in order. They determine the others. -/
  kernel : List Item
  /-- The items of the nonterminals that the kernel calls for, with nothing read. -/
  opened : List Item

namespace State

def ofKernel (kernel : List Item) : State :=
  ⟨kernel, (Grammar.opening (kernel.filterMap Item.called?)).items⟩

def start (n : Nonterminal) : State := ofKernel (Grammar.initialItems n)

def items (s : State) : List Item := s.kernel ++ s.opened

/-- Tells a state from all others. -/
def key (s : State) : List Nat := s.kernel.flatMap Item.key

def canRead (s : State) (x : Symbol) : Bool := s.items.any (·.next? = some x)

def goto (s : State) (x : Symbol) : State := ofKernel (Item.sort (s.items.filterMap (·.advance? x)))

def nextSymbols (s : State) : BitSet Symbol := .ofList (s.items.filterMap Item.next?)

def shiftable (s : State) : TerminalSet :=
  .ofList (Grammar.terminalsOf (s.items.filterMap Item.next?))

end State

end SyntaxTriage
