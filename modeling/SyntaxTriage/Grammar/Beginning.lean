import SyntaxTriage.Grammar.Basic

/-!
How the texts of a nonterminal may begin: which nonterminals come first in it, whether it may be
empty, and which terminals may be read first.
-/

namespace SyntaxTriage.Grammar

/-- Notes a nonterminal and queues it, unless it is known. -/
def visit (found : NonterminalSet × List Nonterminal) (n : Nonterminal) :
    NonterminalSet × List Nonterminal :=
  if n ∈ found.1 then found else (found.1.insert n, n :: found.2)

/-- Everything within `fuel` steps of the queued nonterminals, and what is known. -/
def reachFrom (next : Nonterminal → List Nonterminal) :
    (fuel : Nat) → NonterminalSet × List Nonterminal → NonterminalSet
  | 0, found => found.1
  | fuel + 1, (known, queue) =>
    match queue with
    | [] => known
    | _ => reachFrom next fuel ((queue.flatMap next).foldl visit (known, []))

/-- Everything that steps lead to. Every round but the last finds a new nonterminal. -/
def reach (next : Nonterminal → List Nonterminal) (n : Nonterminal) : NonterminalSet :=
  reachFrom next Nonterminal.all.length ({n}, [n])

def nonterminalsOf (symbols : List Symbol) : List Nonterminal :=
  symbols.filterMap fun
    | .nonterminal n => some n
    | .terminal _ => none

def terminalsOf (symbols : List Symbol) : List Terminal :=
  symbols.filterMap fun
    | .terminal t => some t
    | .nonterminal _ => none

def starters (n : Nonterminal) : List Nonterminal :=
  (productionsOf n).flatMap fun p => nonterminalsOf (p.symbols.take 1)

/-- The nonterminals that may come first in `n`, and `n`. -/
def leads (n : Nonterminal) : NonterminalSet := reach starters n

def emptyIn (known : NonterminalSet) (symbols : List Symbol) : Bool :=
  symbols.all fun
    | .terminal _ => false
    | .nonterminal n => n ∈ known

/-- Rounds that add the nonterminals with a production that reads nothing, until none is new. -/
def nullableFrom : (fuel : Nat) → NonterminalSet → NonterminalSet
  | 0, known => known
  | fuel + 1, known =>
    let next := .ofList (Nonterminal.all.filter fun n =>
      (productionsOf n).any fun p => emptyIn known p.symbols)
    if next = known then known else nullableFrom fuel next

def nullable : NonterminalSet := nullableFrom Nonterminal.all.length ∅

def isNullable : Symbol → Bool
  | .terminal _ => false
  | .nonterminal n => n ∈ nullable

/-- The symbols in front of which everything may be empty. -/
def exposed : List Symbol → List Symbol
  | [] => []
  | x :: rest => if isNullable x then x :: exposed rest else [x]

def exposedIn (n : Nonterminal) : List Symbol :=
  (productionsOf n).flatMap fun p => exposed p.symbols

def firstTable : Array TerminalSet :=
  (Nonterminal.all.map fun n =>
    .ofList ((reach (nonterminalsOf ∘ exposedIn) n).toList.flatMap fun m =>
      terminalsOf (exposedIn m))).toArray

/-- The terminals that a text of the symbol may begin with. -/
def first : Symbol → TerminalSet
  | .terminal t => {t}
  | .nonterminal n => firstTable[Numbered.index n]?.getD ∅

def firstOf (symbols : List Symbol) : TerminalSet := .union ((exposed symbols).map first)

end SyntaxTriage.Grammar
