import SyntaxTriage.Grammar.Lookahead
import SyntaxTriage.Tree

/-!
The stack of the parser: the symbols read so far, each with the state behind it and the trees that
it leaves. A stack is a path through the automaton from the state of its entry; reading a terminal
or reducing a production extends the path by a step of `State.goto`.
-/

namespace SyntaxTriage

def Shape.apply : Shape → List Tree → List Tree
  | node label, children => [.node label children]
  | unwrap _, [child] => [child]
  | unwrap label, children => [.node label children]
  | splice, children => children

namespace Parser

structure Frame where
  symbol : Symbol
  /-- The state behind the symbol. -/
  state : State
  trees : List Tree

structure Stack where
  entry : Nonterminal
  /-- The symbols, the last one first. -/
  frames : List Frame

def reduction? (s : State) (t : Terminal) : Option Production :=
  ((Lookahead.reductions s).find? (t ∈ ·.2)).map (·.1)

/-- The terminals that are read or reduced on. -/
def candidates (s : State) : TerminalSet :=
  (Lookahead.reductions s).foldl (· ∪ ·.2) s.shiftable

namespace Stack

def empty (entry : Nonterminal) : Stack := ⟨entry, []⟩

def state (s : Stack) : State :=
  match s.frames with
  | top :: _ => top.state
  | [] => State.start s.entry

def push (s : Stack) (x : Symbol) (trees : List Tree) : Stack :=
  { s with frames := ⟨x, s.state.goto x, trees⟩ :: s.frames }

/-- Takes the symbols of a right-hand side, given backwards, off the frames. The trees that they
leave go in front of `children`. -/
def gather : List Part → List Frame → List Tree → List Tree × List Frame
  | [], frames, children => (children, frames)
  | .absent :: parts, frames, children => gather parts frames (.absent :: children)
  | .mark _ :: parts, frames, children => gather parts frames.tail children
  | _ :: parts, frames, children =>
    gather parts frames.tail ((frames.head?.map Frame.trees).getD [] ++ children)

def reduce (s : Stack) (p : Production) : Stack :=
  let (children, frames) := gather p.parts.reverse s.frames []
  push { s with frames } (.nonterminal p.head) (p.shape.apply children)

/-- All reductions that the terminal asks for, as long as it cannot be read itself. -/
def settleFrom (t : Terminal) : (fuel : Nat) → Stack → Stack
  | 0, s => s
  | fuel + 1, s =>
    if s.state.canRead (.terminal t) then s
    else match reduction? s.state t with
      | some p => settleFrom t fuel (s.reduce p)
      | none => s

/-- More reductions than can come before a terminal is read: at each height of the stack, no
nonterminal is reduced twice in front of one terminal. -/
def reductionBound (s : Stack) : Nat :=
  (s.frames.length + 1) * (Nonterminal.all.length * Nonterminal.all.length)

def settle (t : Terminal) (s : Stack) : Stack := settleFrom t s.reductionBound s

/-- Reads a lexeme; or gives the stack on which it cannot be read. -/
def feed (s : Stack) (l : Lexeme Terminal) : Except Stack Stack :=
  let s := s.settle l.kind
  if s.state.canRead (.terminal l.kind) then .ok (s.push (.terminal l.kind) [.leaf l])
  else .error s

/-- Ends the input: the tree of the whole, or the stack on which the input cannot end. -/
def finish (s : Stack) : Except Stack Tree :=
  let s := s.settle .endOfInput
  match s.frames with
  | [⟨x, _, [tree]⟩] => if x = .nonterminal s.entry then .ok tree else .error s
  | _ => .error s

def accepts (s : Stack) (t : Terminal) : Bool :=
  if t = .endOfInput then s.finish.isOk else (s.feed (.unplaced t "")).isOk

def accepted (s : Stack) : List Terminal := (candidates s.state).toList.filter s.accepts

end Stack

end Parser

end SyntaxTriage
