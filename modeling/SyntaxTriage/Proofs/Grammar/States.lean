import Mathlib.Data.Finset.Powerset
import Mathlib.Data.List.Sort
import SyntaxTriage.Proofs.Grammar.Opening

/-!
All states that can be reached are found. A state is told by the set of the items in its kernel,
because a kernel is in order and holds nothing twice; so there are no more states than sets of items,
and the search for states has as many rounds as that.
-/

namespace SyntaxTriage

open Grammar

-- the tables of the automaton are large, and nothing here should compute them
attribute [local irreducible] Lookahead.states

namespace Item

/-! ### The order of items -/

/-- The item comes first in a list in order, or both have the same key. -/
def Precedes (i j : Item) : Prop := (compare i.key j.key).isLE = true

instance : DecidableRel Precedes := fun _ _ => inferInstanceAs (Decidable (_ = true))

instance : IsTrans Item Precedes := ⟨fun _ _ _ => Std.TransCmp.isLE_trans⟩

instance : Std.Total Precedes where
  total i j := by
    cases h : compare i.key j.key with
    | lt | eq => exact .inl (by rw [Precedes, h]; rfl)
    | gt => exact .inr (by rw [Precedes, Std.OrientedCmp.gt_iff_lt.mp h]; rfl)

/-- Items that come before each other are the same. -/
theorem HasRead.eq_of_precedes {i j : Item} {before before' : List Symbol} (hi : i.HasRead before)
    (hj : j.HasRead before') (hij : i.Precedes j) (hji : j.Precedes i) : i = j :=
  hi.eq_of_key hj (Std.LawfulEqCmp.eq_of_compare (Std.OrientedCmp.isLE_antisymm hij hji))

theorem insert_eq (i : Item) (items : List Item) :
    i.insert items = items.orderedInsert Precedes i := by
  induction items with
  | nil => rfl
  | cons j items ih => rw [insert, List.orderedInsert, ih]; rfl

theorem sort_eq (items : List Item) : sort items = items.insertionSort Precedes := by
  induction items with
  | nil => rfl
  | cons i items ih =>
      show i.insert (sort items) = (items.insertionSort Precedes).orderedInsert Precedes i
      rw [insert_eq, ih]

theorem pairwise_sort (items : List Item) : (sort items).Pairwise Precedes := by
  rw [sort_eq]
  exact List.pairwise_insertionSort Precedes items

theorem nodup_sort {items : List Item} (h : items.Nodup) : (sort items).Nodup := by
  rw [sort_eq]
  exact (List.perm_insertionSort Precedes items).nodup_iff.mpr h

/-- Moving the dot over a symbol keeps items apart. -/
theorem advance?_inj {x : Symbol} {i j k : Item} (hi : i.advance? x = some k)
    (hj : j.advance? x = some k) : i = j := by
  obtain ⟨hrest, hk⟩ := advance?_eq_some_iff.mp hi
  obtain ⟨hrest', hk'⟩ := advance?_eq_some_iff.mp hj
  have hproduction : i.production = j.production := (Item.mk.inj (hk.symm.trans hk')).1
  have hchoice : i.choice = j.choice := (Item.mk.inj (hk.symm.trans hk')).2.1
  calc
    i = ⟨i.production, i.choice, i.rest⟩ := rfl
    _ = j := by rw [hproduction, hchoice, hrest, ← hrest']

end Item

namespace Grammar

/-! ### Items without repetitions -/

theorem nodup_initialItems (n : Nonterminal) : (initialItems n).Nodup := by
  -- no place comes twice
  refine List.Nodup.of_map Item.choice ?_
  have hchoices : (initialItems n).map Item.choice = (productionsOf n).zipIdx.map Prod.snd := by
    rw [initialItems, List.map_map]
    rfl
  rw [hchoices, List.zipIdx_map_snd]
  exact List.nodup_range'

theorem nodup_openingOf_items (n : Nonterminal) : (openingOf n).items.Nodup := by
  rw [openingOf_eq]
  refine List.nodup_flatMap.mpr ⟨fun m _ => nodup_initialItems m, ?_⟩
  refine (Nonterminal.nodup_all.filter _).imp fun {m k} hmk i hi hi' => hmk ?_
  rw [← (Item.mem_initialItems.mp hi).1, ← (Item.mem_initialItems.mp hi').1]

theorem nodup_opening_items (ns : List Nonterminal) : (opening ns).items.Nodup := by
  suffices ∀ (o : Opening) (done : List Nonterminal), Opens o done → o.items.Nodup →
      (ns.foldl (fun o n => if n ∈ o.heads then o else o.union (openingOf n)) o).items.Nodup by
    refine this .empty [] ⟨fun m => ?_, fun i => ?_⟩ List.nodup_nil
    · exact iff_of_false (BitSet.not_mem_empty m) (by simp)
    · exact iff_of_false (List.not_mem_nil) fun h => BitSet.not_mem_empty _ h.2
  induction ns with
  | nil => exact fun o done _ h => h
  | cons n ns ih =>
      intro o done ho h
      rw [List.foldl_cons]
      refine ih _ _ (ho.next n) ?_
      split
      · exact h
      · refine List.nodup_append'.mpr ⟨h, (nodup_openingOf_items n).filter _, fun i hi hi' => ?_⟩
        exact of_decide_eq_true (List.mem_filter.mp hi').2 ((ho.items i).mp hi).2

/-- An input is not part of anything else. -/
theorem entry_not_mem_symbols {n entry : Nonterminal} {p : Production} (hp : p ∈ productionsOf n)
    (hentry : entry ∈ Lookahead.entries) : Symbol.nonterminal entry ∉ p.symbols := by
  have h : (Nonterminal.all.all fun n => (productionsOf n).all fun p => decide
      (∀ entry ∈ Lookahead.entries, Symbol.nonterminal entry ∉ p.symbols)) = true := by
    decide +kernel
  exact of_decide_eq_true (forall_productions h hp) entry hentry

/-- An input is a node of its own. -/
theorem shape_ne_splice {entry : Nonterminal} {p : Production} (hp : p ∈ productionsOf entry)
    (hentry : entry ∈ Lookahead.entries) : p.shape ≠ .splice := by
  have h : ∀ n ∈ Lookahead.entries, ∀ p ∈ productionsOf n, p.shape ≠ .splice := by decide +kernel
  exact h entry hentry p hp

end Grammar

namespace State

/-- A state as reading makes it: its kernel is in order, and no item stands in it twice. -/
structure Ordered (s : State) : Prop extends s.Grammatical where
  sorted : s.kernel.Pairwise Item.Precedes
  nodup : s.items.Nodup

theorem Calls.ne_entry {s : State} {n entry : Nonterminal} (hs : s.Grammatical) (h : s.Calls n)
    (hentry : entry ∈ Lookahead.entries) : n ≠ entry := by
  rintro rfl
  obtain ⟨m, p, hp, hmem⟩ : ∃ m, ∃ p ∈ productionsOf m, Symbol.nonterminal n ∈ p.symbols := by
    cases h with
    | @kernel i _ rest mem hrest =>
        obtain ⟨before, hread⟩ := hs.items i (List.mem_append_left _ mem)
        refine ⟨_, _, hread.mem_productionsOf, ?_⟩
        rw [hread.symbols, hrest]
        exact List.mem_append_right _ List.mem_cons_self
    | opened _ mem symbols =>
        refine ⟨_, _, mem, ?_⟩
        rw [symbols]
        exact List.mem_cons_self
  exact entry_not_mem_symbols hp hentry hmem

theorem ordered_start {entry : Nonterminal} (h : entry ∈ Lookahead.entries) :
    (start entry).Ordered := by
  have hs := grammatical_start entry
  refine ⟨hs, ?_, ?_⟩
  · have hall : ∀ n ∈ Lookahead.entries, (initialItems n).Pairwise Item.Precedes := by
      decide +kernel
    exact hall entry h
  · refine List.nodup_append'.mpr
      ⟨nodup_initialItems entry, nodup_opening_items _, fun i hi hi' => ?_⟩
    have hhead : i.head = entry := (Item.mem_initialItems.mp hi).1
    exact (hs.mem_opened.mp hi').2.ne_entry hs h hhead

theorem Ordered.goto {s : State} (h : s.Ordered) (x : Symbol) : (s.goto x).Ordered := by
  refine ⟨h.toGrammatical.goto x, Item.pairwise_sort _, List.nodup_append'.mpr ⟨?_, ?_, ?_⟩⟩
  · refine Item.nodup_sort (h.nodup.filterMap fun i j k hi hj => ?_)
    exact Item.advance?_inj hi hj
  · exact nodup_opening_items _
  · -- what stands in the kernel has read the symbol, and what is opened has read nothing
    intro i hi hi'
    obtain ⟨j, hj, hadvance⟩ := List.mem_filterMap.mp (Item.mem_sort.mp hi)
    obtain ⟨before, hread⟩ := h.items j hj
    have hsymbols := (hread.advance hadvance).symbols
    rw [(hasRead_nil_of_mem_opening hi').symbols] at hsymbols
    have hlength := congrArg List.length hsymbols
    simp only [List.length_append, List.length_cons, List.length_nil] at hlength
    omega

theorem Ordered.eq_of_toFinset {s t : State} (hs : s.Ordered) (ht : t.Ordered)
    (h : s.kernel.toFinset = t.kernel.toFinset) : s = t := by
  have hperm := List.perm_of_nodup_nodup_toFinset_eq (List.nodup_append'.mp hs.nodup).1
    (List.nodup_append'.mp ht.nodup).1 h
  have hkernel : s.kernel = t.kernel := by
    refine hperm.eq_of_pairwise (fun i j hi hj hij hji => ?_) hs.sorted ht.sorted
    obtain ⟨_, hiread⟩ := hs.items i (List.mem_append_left _ hi)
    obtain ⟨_, hjread⟩ := ht.items j (List.mem_append_left _ hj)
    exact hiread.eq_of_precedes hjread hij hji
  obtain ⟨kernel, rfl⟩ := hs.made
  obtain ⟨kernel', rfl⟩ := ht.made
  exact congrArg ofKernel hkernel

end State

namespace Lookahead

/-! ### The number of states -/

/-- Every item. -/
def allItems : List Item :=
  (Nonterminal.all.flatMap initialItems).flatMap fun i => i.rest.tails.map ({ i with rest := · })

theorem length_allItems : allItems.length = itemCount := by
  suffices ∀ (items : List Item) (count : Nat),
      items.foldl (fun count i => count + i.rest.length + 1) count =
        count + (items.flatMap fun i => i.rest.tails.map ({ i with rest := · })).length by
    rw [itemCount, this, Nat.zero_add, allItems]
  intro items
  induction items with
  | nil => exact fun count => rfl
  | cons i items ih =>
      intro count
      rw [List.foldl_cons, ih, List.flatMap_cons, List.length_append, List.length_map,
        List.length_tails]
      omega

theorem mem_allItems {i : Item} {before : List Symbol} (h : i.HasRead before) : i ∈ allItems := by
  refine List.mem_flatMap.mpr ⟨{ i with rest := i.production.symbols }, ?_, ?_⟩
  · refine List.mem_flatMap.mpr ⟨i.head, LawfulNumbered.mem_all _, Item.mem_initialItems.mpr ?_⟩
    exact ⟨rfl, h.chosen, rfl⟩
  · refine List.mem_map.mpr ⟨i.rest, List.mem_tails _ _ |>.mpr ⟨before, h.symbols.symm⟩, rfl⟩

/-- The state can be reached. -/
def Reachable (s : State) : Prop := ∃ n, Within n s

theorem Within.ordered {n : Nat} {s : State} (h : Within n s) : s.Ordered := by
  induction h with
  | start hentry => exact State.ordered_start hentry
  | goto _ _ ih => exact ih.goto _

theorem within_iff_nearby {n : Nat} {s : State} :
    Within n s ↔ Nearby (fun s => ∃ entry ∈ entries, s = State.start entry)
      (fun s t => ∃ x, s.canRead x = true ∧ t = s.goto x) n s := by
  constructor
  · intro h
    induction h with
    | start hentry => exact .start ⟨_, hentry, rfl⟩
    | goto _ hx ih => exact .step ih ⟨_, hx, rfl⟩
  · intro h
    induction h with
    | start hstart =>
        obtain ⟨entry, hentry, rfl⟩ := hstart
        exact .start hentry
    | step _ hstep ih =>
        obtain ⟨x, hx, rfl⟩ := hstep
        exact .goto ih hx

theorem card_powerset_le {items : List Item} {count : Nat} (h : items.length ≤ count) :
    items.toFinset.powerset.card ≤ Nat.pow 2 count := by
  rw [Finset.card_powerset]
  exact Nat.pow_le_pow_right Nat.two_pos ((List.toFinset_card_le _).trans h)

/-- There are no more states than sets of items. -/
theorem Within.short {n : Nat} {s : State} (h : Within n s) :
    Within allItems.toFinset.powerset.card s := by
  refine within_iff_nearby.mpr ((within_iff_nearby.mp h).of_codes allItems.toFinset.powerset
    (fun s => s.kernel.toFinset) (fun n t ht => ?_) fun m n t u ht hu => ?_)
  · rw [Finset.mem_powerset]
    intro i hi
    obtain ⟨before, hread⟩ := (within_iff_nearby.mpr ht).ordered.items i
      (List.mem_append_left _ (List.mem_toFinset.mp hi))
    exact List.mem_toFinset.mpr (mem_allItems hread)
  · exact (within_iff_nearby.mpr ht).ordered.eq_of_toFinset (within_iff_nearby.mpr hu).ordered

/-- Every state that can be reached is found. -/
theorem Reachable.mem_states {s : State} (h : Reachable s) : s ∈ states := by
  obtain ⟨n, hn⟩ := h
  exact mem_states_of_within hn.short (card_powerset_le length_allItems.le)

theorem reachable_start {entry : Nonterminal} (h : entry ∈ entries) :
    Reachable (State.start entry) := ⟨0, .start h⟩

theorem Reachable.goto {s : State} (h : Reachable s) {x : Symbol} (hx : s.canRead x = true) :
    Reachable (s.goto x) := by
  obtain ⟨n, hn⟩ := h
  exact ⟨n + 1, .goto hn hx⟩

theorem Reachable.ordered {s : State} (h : Reachable s) : s.Ordered := by
  obtain ⟨n, hn⟩ := h
  exact hn.ordered

end Lookahead

end SyntaxTriage
