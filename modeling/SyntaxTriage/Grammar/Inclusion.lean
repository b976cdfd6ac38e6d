import Std.Data.TreeMap
import SyntaxTriage.BitSet

/-!
The least sets that contain given members and satisfy given inclusions. The sets have lists of
numbers as names; members are handed on along the inclusions, round by round, until no set grows.
-/

namespace SyntaxTriage

structure Inclusions (α : Type) where
  /-- What a set contains in any case. -/
  given : List (List Nat × BitSet α)
  /-- `(x, y)` says that the set `y` contains the set `x`. -/
  included : List (List Nat × List Nat)

namespace Inclusions

variable {α : Type}

abbrev Sets (α : Type) := Std.TreeMap (List Nat) (BitSet α)

/-- Puts `members` into the set `x`; the second part tells whether it has grown. -/
def add (sets : Sets α) (x : List Nat) (members : BitSet α) : Sets α × Bool :=
  let before := sets.getD x ∅
  let after := before ∪ members
  if after = before then (sets, false) else (sets.insert x after, true)

def supersets (s : Inclusions α) : Std.TreeMap (List Nat) (List (List Nat)) :=
  s.included.foldl (fun m (x, y) => m.insert x (y :: m.getD x [])) ∅

/-- Hands the members of `x` on to the sets `ys` and notes those that grow. -/
def spread (ys : List (List Nat)) (x : List Nat) (progress : Sets α × List (List Nat)) :
    Sets α × List (List Nat) :=
  let members := progress.1.getD x ∅
  ys.foldl (fun (sets, grown) y =>
    let (sets, larger) := add sets y members
    (sets, if larger then y :: grown else grown)) progress

def settle (above : Std.TreeMap (List Nat) (List (List Nat))) :
    (fuel : Nat) → Sets α → List (List Nat) → Sets α
  | 0, sets, _ => sets
  | _, sets, [] => sets
  | fuel + 1, sets, grown =>
    let (sets, grown) :=
      grown.foldl (fun progress x => spread (above.getD x []) x progress) (sets, [])
    settle above fuel sets grown

def initial (s : Inclusions α) : Sets α :=
  s.given.foldl (fun sets (x, members) => (add sets x members).1) ∅

/-- A bound on the rounds: in each but the last some set gains a member. -/
def rounds (s : Inclusions α) : Nat :=
  (s.given.length + s.included.length) * ((BitSet.union (s.given.map (·.2))).bits.log2 + 1) + 1

def solve (s : Inclusions α) : Sets α :=
  settle s.supersets s.rounds s.initial (s.given.map (·.1))

end Inclusions

end SyntaxTriage
