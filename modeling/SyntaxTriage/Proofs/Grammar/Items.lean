import SyntaxTriage.Grammar.Automaton
import SyntaxTriage.Proofs.Grammar.Numbering

/-!
What the items of a state say about the symbols that have been read. Every item in a state of the
automaton belongs to a production of the grammar and has read a beginning of it: nothing in an
opening, and one symbol more behind each step of `State.goto`.
-/

namespace SyntaxTriage

namespace Grammar

theorem head_of_mem_productionsOf {n : Nonterminal} {p : Production} (h : p ∈ productionsOf n) :
    p.head = n := by
  obtain ⟨r, -, hp⟩ := List.mem_flatMap.mp h
  obtain ⟨parts, -, rfl⟩ := List.mem_map.mp hp
  rfl

end Grammar

open Grammar

namespace Item

/-- The item belongs to a production of the grammar, and `before` is what it has read of it. -/
structure HasRead (i : Item) (before : List Symbol) : Prop where
  chosen : (productionsOf i.head)[i.choice]? = some i.production
  symbols : i.production.symbols = before ++ i.rest

theorem HasRead.mem_productionsOf {i : Item} {before : List Symbol} (h : i.HasRead before) :
    i.production ∈ productionsOf i.head :=
  List.mem_of_getElem? h.chosen

theorem mem_initialItems {i : Item} {n : Nonterminal} :
    i ∈ initialItems n ↔ i.head = n ∧ i.HasRead [] := by
  simp only [initialItems, List.mem_map, Prod.exists, List.mem_zipIdx_iff_getElem?]
  constructor
  · rintro ⟨p, choice, h, rfl⟩
    have hhead : p.head = n := head_of_mem_productionsOf (List.mem_of_getElem? h)
    exact ⟨hhead, by rw [head, hhead]; exact h, rfl⟩
  · rintro ⟨rfl, hchosen, hsymbols⟩
    refine ⟨i.production, i.choice, hchosen, ?_⟩
    rw [hsymbols, List.nil_append]

theorem advance?_eq_some_iff {x : Symbol} {i j : Item} :
    i.advance? x = some j ↔ i.rest = x :: j.rest ∧ j = { i with rest := j.rest } := by
  unfold advance?
  cases hrest : i.rest with
  | nil => simp
  | cons y rest =>
      by_cases hy : y = x
      · subst hy
        simp only [if_true, Option.some.injEq, List.cons.injEq, true_and]
        constructor
        · rintro rfl
          exact ⟨rfl, rfl⟩
        · rintro ⟨rfl, hj⟩
          exact hj.symm
      · simp [hy]

theorem HasRead.advance {x : Symbol} {i j : Item} {before : List Symbol} (h : i.HasRead before)
    (hj : i.advance? x = some j) : j.HasRead (before ++ [x]) := by
  obtain ⟨hrest, hj⟩ := advance?_eq_some_iff.mp hj
  rw [hj]
  refine ⟨h.chosen, ?_⟩
  rw [h.symbols, hrest, List.append_assoc]
  rfl

theorem mem_insert {i j : Item} {items : List Item} :
    j ∈ i.insert items ↔ j = i ∨ j ∈ items := by
  induction items with
  | nil => simp [insert]
  | cons k items ih =>
      unfold insert
      split
      · simp
      · rw [List.mem_cons, ih, List.mem_cons, or_left_comm]

@[simp] theorem mem_sort {i : Item} {items : List Item} : i ∈ sort items ↔ i ∈ items := by
  induction items with
  | nil => simp [sort]
  | cons j items ih =>
      show i ∈ j.insert (sort items) ↔ _
      rw [mem_insert, ih, List.mem_cons]

end Item

namespace Grammar

theorem openingOf_items {n : Nonterminal} {i : Item} (h : i ∈ (openingOf n).items) :
    i.HasRead [] := by
  unfold openingOf openingTable at h
  rw [List.getElem?_toArray, List.getElem?_map] at h
  cases hn : Nonterminal.all[Numbered.index n]? with
  | none =>
      rw [hn] at h
      cases h
  | some m =>
      rw [hn] at h
      obtain ⟨k, -, hi⟩ := List.mem_flatMap.mp (h : i ∈ (leads m).toList.flatMap initialItems)
      exact (Item.mem_initialItems.mp hi).2

theorem hasRead_nil_of_mem_opening {ns : List Nonterminal} {i : Item}
    (h : i ∈ (opening ns).items) : i.HasRead [] := by
  -- adding the items of one more nonterminal keeps the property of those there already
  suffices ∀ o : Opening, (∀ j ∈ o.items, j.HasRead []) →
      ∀ j ∈ (ns.foldl (fun o n => if n ∈ o.heads then o else o.union (openingOf n)) o).items,
        j.HasRead [] from
    this .empty (fun j hj => by cases hj) i h
  clear h i
  induction ns with
  | nil => exact fun o ho => ho
  | cons n ns ih =>
      intro o ho
      rw [List.foldl_cons]
      apply ih
      intro j hj
      split at hj
      · exact ho j hj
      · rcases List.mem_append.mp hj with hj | hj
        · exact ho j hj
        · exact openingOf_items (List.mem_filter.mp hj).1

end Grammar

namespace State

theorem hasRead_nil_of_mem_start {n : Nonterminal} {i : Item} (h : i ∈ (start n).items) :
    i.HasRead [] := by
  rcases List.mem_append.mp h with h | h
  · exact (Item.mem_initialItems.mp h).2
  · exact hasRead_nil_of_mem_opening h

/-- An item behind a symbol has just read the symbol, or nothing. -/
theorem mem_goto {s : State} {x : Symbol} {i : Item} (h : i ∈ (s.goto x).items) :
    i.HasRead [] ∨ ∃ j ∈ s.items, j.advance? x = some i := by
  rcases List.mem_append.mp h with h | h
  · right
    change i ∈ Item.sort _ at h
    rw [Item.mem_sort] at h
    exact List.mem_filterMap.mp h
  · exact .inl (hasRead_nil_of_mem_opening h)

theorem canRead_iff {s : State} {x : Symbol} :
    s.canRead x = true ↔ ∃ i ∈ s.items, ∃ rest, i.rest = x :: rest := by
  rw [canRead, List.any_eq_true]
  refine exists_congr fun i => and_congr_right fun _ => ?_
  rw [decide_eq_true_iff, Item.next?, List.head?_eq_some_iff]

end State

end SyntaxTriage
