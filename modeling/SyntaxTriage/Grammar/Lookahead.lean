import SyntaxTriage.Grammar.Automaton
import SyntaxTriage.Grammar.Inclusion

/-!
Which terminals let a production be reduced. Every item of a state has a set of terminals that may
follow its head. Moving the dot hands the set on to the state behind the symbol; a dot before a
nonterminal gives the items of that nonterminal what may begin the rest of the right-hand side, and
its own set too if the rest may be empty. The sets are the least ones that satisfy all this in all
states.
-/

namespace SyntaxTriage.Lookahead

open Grammar

/-- Notes a state and queues it, unless it is known. -/
def visit (found : Std.TreeMap (List Nat) State × List State) (s : State) :
    Std.TreeMap (List Nat) State × List State :=
  if found.1.contains s.key then found else (found.1.insert s.key s, s :: found.2)

def successors (s : State) : List State := s.nextSymbols.toList.map s.goto

/-- All states within `fuel` symbols of the queued ones, and those that are known. -/
def explore : (fuel : Nat) → Std.TreeMap (List Nat) State × List State →
    Std.TreeMap (List Nat) State
  | 0, found => found.1
  | fuel + 1, (known, queue) =>
    match queue with
    | [] => known
    | _ => explore fuel ((queue.flatMap successors).foldl visit (known, []))

def entries : List Nonterminal := [.fileInput, .evalInput]

def itemCount : Nat :=
  (Nonterminal.all.flatMap initialItems).foldl (fun count i => count + i.rest.length + 1) 0

/-- The states that can be reached. There are no more of them than sets of items, and every round
but the last finds one. -/
def states : List State :=
  (explore (Nat.pow 2 itemCount) ((entries.map State.start).foldl visit (∅, []))).values

/-- The name of the set of an item in the kernel of a state. -/
def kernelPlace (s : State) (i : Item) : List Nat := 0 :: i.key ++ s.key

/-- The name of the set that the items of `n` with nothing read have in a state. -/
def openedPlace (s : State) (n : Nonterminal) : List Nat := 1 :: Numbered.index n :: s.key

def placed (s : State) : List (Item × List Nat) :=
  s.kernel.map (fun i => (i, kernelPlace s i)) ++ s.opened.map fun i => (i, openedPlace s i.head)

/-- What moving the dot over a symbol hands on. -/
def movesOver (s : State) (x : Symbol) : List (List Nat × List Nat) :=
  let next := s.goto x
  (placed s).filterMap fun (i, place) => (i.advance? x).map fun j => (place, kernelPlace next j)

/-- What an item hands on to the nonterminal that its dot calls for. -/
def callsOf (s : State) (i : Item) (place : List Nat) : List (List Nat × List Nat) :=
  match i.rest with
  | .nonterminal n :: rest => if rest.all isNullable then [(place, openedPlace s n)] else []
  | _ => []

/-- What may be read behind the nonterminal that the dot of an item calls for. -/
def givenBy (s : State) (i : Item) : List (List Nat × TerminalSet) :=
  match i.rest with
  | .nonterminal n :: rest => [(openedPlace s n, firstOf rest)]
  | _ => []

def givenAtStart (n : Nonterminal) : List (List Nat × TerminalSet) :=
  let s := State.start n
  s.kernel.map fun i => (kernelPlace s i, {.endOfInput})

def inclusions : Inclusions Terminal where
  given := entries.flatMap givenAtStart ++ states.flatMap fun s => s.items.flatMap (givenBy s)
  included := states.flatMap fun s =>
    s.nextSymbols.toList.flatMap (movesOver s) ++
      (placed s).flatMap fun (i, place) => callsOf s i place

def sets : Inclusions.Sets Terminal := inclusions.solve

/-- The productions that can be reduced in a state, each with the terminals it is reduced on. -/
def reductions (s : State) : List (Production × TerminalSet) :=
  (s.kernel.filter (·.rest.isEmpty)).map (fun i =>
      (i.production, sets.getD (kernelPlace s i) ∅)) ++
    (s.opened.filter (·.rest.isEmpty)).map fun i =>
      (i.production, sets.getD (openedPlace s i.head) ∅)

end SyntaxTriage.Lookahead
