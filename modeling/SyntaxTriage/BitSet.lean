/-!
Finite sets over a type whose members are numbered, packed into the bits of one number, so that
union and intersection are single operations.
-/

namespace SyntaxTriage

/-- A finite type whose members are numbered. -/
class Numbered (α : Type) where
  /-- Every member. -/
  all : List α
  /-- The number of a member. -/
  index : α → Nat

/-- The set of the members at whose numbers `bits` has a one. -/
structure BitSet (α : Type) where
  bits : Nat

namespace BitSet

instance {α : Type} : DecidableEq (BitSet α) := fun s t =>
  decidable_of_iff (s.bits = t.bits) ⟨fun h => by cases s; cases t; simp_all, fun h => h ▸ rfl⟩

variable {α : Type} [Numbered α]

instance : Membership α (BitSet α) := ⟨fun s a => s.bits.testBit (Numbered.index a) = true⟩

instance (a : α) (s : BitSet α) : Decidable (a ∈ s) :=
  inferInstanceAs (Decidable (s.bits.testBit (Numbered.index a) = true))

instance : EmptyCollection (BitSet α) := ⟨⟨0⟩⟩

instance : Union (BitSet α) := ⟨fun s t => ⟨s.bits ||| t.bits⟩⟩

instance : Inter (BitSet α) := ⟨fun s t => ⟨s.bits &&& t.bits⟩⟩

instance : Singleton α (BitSet α) := ⟨fun a => ⟨1 <<< Numbered.index a⟩⟩

def insert (s : BitSet α) (a : α) : BitSet α := s ∪ {a}

def ofList (members : List α) : BitSet α := members.foldl insert ∅

def union (sets : List (BitSet α)) : BitSet α := sets.foldl (· ∪ ·) ∅

def toList (s : BitSet α) : List α := Numbered.all.filter (· ∈ s)

@[simp] theorem not_mem_empty (a : α) : a ∉ (∅ : BitSet α) := by
  simp [Membership.mem, EmptyCollection.emptyCollection]

@[simp] theorem mem_union {a : α} {s t : BitSet α} : a ∈ s ∪ t ↔ a ∈ s ∨ a ∈ t := by
  simp [Membership.mem, Union.union]

@[simp] theorem mem_inter {a : α} {s t : BitSet α} : a ∈ s ∩ t ↔ a ∈ s ∧ a ∈ t := by
  simp [Membership.mem, Inter.inter]

@[simp] theorem mem_singleton {a b : α} :
    a ∈ ({b} : BitSet α) ↔ Numbered.index a = Numbered.index b := by
  simp [Membership.mem, Singleton.singleton, Nat.one_shiftLeft, Nat.testBit_two_pow, eq_comm]

end BitSet

end SyntaxTriage
