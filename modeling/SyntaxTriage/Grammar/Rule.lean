import SyntaxTriage.Grammar.Nonterminal
import SyntaxTriage.Grammar.Terminal

/-!
Productions, and the rules that they are written down as. A rule gives alternatives place by place;
its productions are all the ways to choose one alternative at every place.
-/

namespace SyntaxTriage

inductive Symbol where
  | terminal (t : Terminal)
  | nonterminal (n : Nonterminal)
  deriving DecidableEq

namespace Symbol

def all : List Symbol := Terminal.all.map terminal ++ Nonterminal.all.map nonterminal

/-- Nonterminals are numbered behind the terminals. -/
def index : Symbol → Nat
  | terminal t => Numbered.index t
  | nonterminal n => Terminal.all.length + Numbered.index n

instance : Numbered Symbol := ⟨all, index⟩

end Symbol

inductive Part where
  /-- A terminal whose token stays in the tree. -/
  | token (t : Terminal)
  /-- A terminal that leaves nothing in the tree. -/
  | mark (t : Terminal)
  | sub (n : Nonterminal)
  /-- Reads nothing, and shows in the tree that an optional part is not there. -/
  | absent
  deriving DecidableEq

def Part.symbol? : Part → Option Symbol
  | .token t | .mark t => some (.terminal t)
  | .sub n => some (.nonterminal n)
  | .absent => none

/-- What becomes of the children of a finished right-hand side. -/
inductive Shape where
  /-- They hang below a node with this label. -/
  | node (label : String)
  /-- As `node`, but a child without siblings takes the place of the node. -/
  | unwrap (label : String)
  /-- They join the children of the parent. -/
  | splice
  deriving DecidableEq

structure Production where
  head : Nonterminal
  shape : Shape
  parts : List Part
  deriving DecidableEq

def Production.symbols (p : Production) : List Symbol := p.parts.filterMap Part.symbol?

structure Rule where
  shape : Shape
  /-- The alternatives for each place of the right-hand side. -/
  places : List (List (List Part))

namespace Rule

def node (label : String) (places : List (List (List Part))) : Rule := ⟨.node label, places⟩

def unwrap (label : String) (places : List (List (List Part))) : Rule := ⟨.unwrap label, places⟩

def splice (places : List (List (List Part))) : Rule := ⟨.splice, places⟩

/-- A run of one or more of the items, which join the children of the rule that uses it. -/
def run (head : Nonterminal) (items : List (List Part)) : Rule :=
  splice [items ++ items.map (.sub head :: ·)]

def token (t : Terminal) : List (List Part) := [[.token t]]

def mark (t : Terminal) : List (List Part) := [[.mark t]]

def sub (n : Nonterminal) : List (List Part) := [[.sub n]]

def optional (parts : List Part) : List (List Part) := [parts, []]

/-- The parts or a sign of their absence. -/
def orAbsent (parts : List Part) : List (List Part) := [parts, [.absent]]

/-- All ways to choose one alternative at every place. -/
def choices (places : List (List (List Part))) : List (List Part) :=
  places.foldr (fun place rest => place.flatMap fun parts => rest.map (parts ++ ·)) [[]]

def productions (head : Nonterminal) (r : Rule) : List Production :=
  (choices r.places).map (⟨head, r.shape, ·⟩)

end Rule

end SyntaxTriage
