import Mathlib.Data.List.Nodup
import SyntaxTriage.Grammar.Rule

/-!
Sets of terminals, nonterminals and symbols as sets: a member is in the set of a list just if it is
in the list. This rests on the numbers of the members being different.
-/

namespace SyntaxTriage

/-- A numbering that lists every member and gives no number twice. -/
class LawfulNumbered (α : Type) [Numbered α] : Prop where
  index_inj {a b : α} : Numbered.index a = Numbered.index b → a = b
  mem_all (a : α) : a ∈ (Numbered.all : List α)

instance : LawfulNumbered Terminal where
  index_inj {a b} h := by
    rw [← Terminal.ofNat_ctorIdx a, ← Terminal.ofNat_ctorIdx b]
    exact congrArg Terminal.ofNat h
  mem_all a := by cases a <;> decide

instance : LawfulNumbered Nonterminal where
  index_inj {a b} h := by
    rw [← Nonterminal.ofNat_ctorIdx a, ← Nonterminal.ofNat_ctorIdx b]
    exact congrArg Nonterminal.ofNat h
  mem_all a := by
    show a ∈ Nonterminal.all
    have h : Nonterminal.all[a.ctorIdx]? = some a := by cases a <;> rfl
    exact List.mem_of_getElem? h

theorem Terminal.index_lt (t : Terminal) : Numbered.index t < Terminal.all.length := by
  cases t <;> decide

instance : LawfulNumbered Symbol where
  index_inj {a b} h := by
    cases a with
    | terminal t =>
        cases b with
        | terminal u => exact congrArg Symbol.terminal (LawfulNumbered.index_inj h)
        | nonterminal n =>
            change Numbered.index t = Terminal.all.length + Numbered.index n at h
            have ht := t.index_lt
            omega
    | nonterminal m =>
        cases b with
        | terminal u =>
            change Terminal.all.length + Numbered.index m = Numbered.index u at h
            have hu := u.index_lt
            omega
        | nonterminal n =>
            exact congrArg Symbol.nonterminal (LawfulNumbered.index_inj (Nat.add_left_cancel h))
  mem_all a := by
    show a ∈ Symbol.all
    cases a with
    | terminal t =>
        exact List.mem_append_left _ (List.mem_map_of_mem (LawfulNumbered.mem_all t))
    | nonterminal n =>
        exact List.mem_append_right _ (List.mem_map_of_mem (LawfulNumbered.mem_all n))

/-! ### All members -/

theorem Terminal.nodup_all : Terminal.all.Nodup := by
  have h : Terminal.all.map Numbered.index = List.range Terminal.all.length := by decide +kernel
  refine .of_map Numbered.index ?_
  rw [h]
  exact List.nodup_range

theorem Nonterminal.nodup_all : Nonterminal.all.Nodup := by
  have h : Nonterminal.all.map Numbered.index = List.range Nonterminal.all.length := by
    decide +kernel
  refine .of_map Numbered.index ?_
  rw [h]
  exact List.nodup_range

theorem Nonterminal.length_all : Nonterminal.all.length = 178 := by decide +kernel

theorem Terminal.name_inj {t u : Terminal} (h : t.name = u.name) : t = u := by
  have hnodup : (Terminal.all.map Terminal.name).Nodup := by decide +kernel
  exact List.inj_on_of_nodup_map hnodup (LawfulNumbered.mem_all t) (LawfulNumbered.mem_all u) h

/-! ### Sets -/

namespace BitSet

variable {α : Type} [Numbered α]

@[simp] theorem mem_toList [LawfulNumbered α] {a : α} {s : BitSet α} : a ∈ s.toList ↔ a ∈ s := by
  simp [toList, LawfulNumbered.mem_all]

@[simp] theorem mem_insert [LawfulNumbered α] {a b : α} {s : BitSet α} :
    a ∈ s.insert b ↔ a ∈ s ∨ a = b := by
  rw [insert, mem_union, mem_singleton]
  exact or_congr_right ⟨LawfulNumbered.index_inj, congrArg _⟩

theorem mem_foldl_insert [LawfulNumbered α] {a : α} {members : List α} {s : BitSet α} :
    a ∈ members.foldl insert s ↔ a ∈ s ∨ a ∈ members := by
  induction members generalizing s with
  | nil => simp
  | cons b members ih => rw [List.foldl_cons, ih, mem_insert, List.mem_cons, or_assoc]

@[simp] theorem mem_ofList [LawfulNumbered α] {a : α} {members : List α} :
    a ∈ ofList members ↔ a ∈ members := by
  rw [ofList, mem_foldl_insert]
  simp

theorem mem_foldl_union {a : α} {sets : List (BitSet α)} {s : BitSet α} :
    a ∈ sets.foldl (· ∪ ·) s ↔ a ∈ s ∨ ∃ t ∈ sets, a ∈ t := by
  induction sets generalizing s with
  | nil => simp
  | cons t sets ih => rw [List.foldl_cons, ih, mem_union]; simp [or_assoc]

@[simp] theorem mem_union_list {a : α} {sets : List (BitSet α)} :
    a ∈ union sets ↔ ∃ t ∈ sets, a ∈ t := by
  rw [union, mem_foldl_union]
  simp

end BitSet

end SyntaxTriage
