import Mathlib.Algebra.GroupWithZero.Nat
import SyntaxTriage.Proofs.Grammar.States

/-!
Items by number. The productions stand one behind the other, and each has as many items as there are
places for a dot; an item is told by the number of items in front of it. Numbers come in the order of
keys, and moving the dot makes the number one larger.
-/

namespace SyntaxTriage

open Grammar

namespace Grammar

/-- The productions of all nonterminals, one behind the other. -/
def allProductions : List Production := Nonterminal.all.flatMap productionsOf

/-- How many places for a dot there are. -/
def countItems (ps : List Production) : Nat := (ps.map (·.symbols.length + 1)).sum

@[simp] theorem countItems_nil : countItems [] = 0 := rfl

@[simp] theorem countItems_cons (p : Production) (ps : List Production) :
    countItems (p :: ps) = p.symbols.length + 1 + countItems ps := List.sum_cons

@[simp] theorem countItems_append (ps qs : List Production) :
    countItems (ps ++ qs) = countItems ps + countItems qs := by
  rw [countItems, List.map_append, List.sum_append]
  rfl

theorem all_split (n : Nonterminal) : ∃ later,
    Nonterminal.all = Nonterminal.all.take (Numbered.index n) ++ n :: later := by
  obtain ⟨hlt, hn⟩ := List.getElem?_eq_some_iff.mp (getElem?_all n)
  have hdrop := List.drop_eq_getElem_cons hlt
  rw [hn] at hdrop
  exact ⟨_, by rw [← hdrop, List.take_append_drop]⟩

end Grammar

namespace Item

/-- The productions in front of that of the item. -/
def earlier (i : Item) : List Production :=
  (Nonterminal.all.take (Numbered.index i.head)).flatMap productionsOf ++
    (productionsOf i.head).take i.choice

/-- The number of items in front of the item. -/
def number (i : Item) : Nat :=
  countItems i.earlier + (i.production.symbols.length - i.rest.length)

variable {i j : Item} {before before' : List Symbol} {x : Symbol}

/-- The production of an item stands at its place among those of its head. -/
theorem HasRead.productionsOf_split (h : i.HasRead before) :
    productionsOf i.head = (productionsOf i.head).take i.choice ++
      i.production :: (productionsOf i.head).drop (i.choice + 1) := by
  obtain ⟨hlt, hchosen⟩ := List.getElem?_eq_some_iff.mp h.chosen
  rw [← hchosen, ← List.drop_eq_getElem_cons hlt, List.take_append_drop]

theorem HasRead.exists_later (h : i.HasRead before) :
    ∃ later, allProductions = i.earlier ++ i.production :: later := by
  obtain ⟨others, hall⟩ := all_split i.head
  refine ⟨(productionsOf i.head).drop (i.choice + 1) ++ others.flatMap productionsOf, ?_⟩
  calc
    allProductions = (Nonterminal.all.take (Numbered.index i.head)).flatMap productionsOf ++
        (productionsOf i.head ++ others.flatMap productionsOf) := by
      rw [allProductions, hall, List.flatMap_append, List.flatMap_cons, ← hall]
    _ = _ := by
      conv_lhs => rw [h.productionsOf_split]
      rw [earlier, List.append_assoc, List.append_assoc]
      rfl

theorem HasRead.number_eq (h : i.HasRead before) :
    i.number = countItems i.earlier + before.length := by
  rw [number, h.symbols, List.length_append, Nat.add_sub_cancel]

theorem HasRead.number_advance (h : i.HasRead before) (hj : i.advance? x = some j) :
    j.number = i.number + 1 := by
  have hearlier : j.earlier = i.earlier := by
    rw [(advance?_eq_some_iff.mp hj).2]
    rfl
  rw [(h.advance hj).number_eq, h.number_eq, hearlier, List.length_append]
  rfl

/-- The production of one item stands in front of that of another. -/
def Before (i j : Item) : Prop :=
  Numbered.index i.head < Numbered.index j.head ∨ i.head = j.head ∧ i.choice < j.choice

theorem before_or_before (i j : Item) :
    i.Before j ∨ j.Before i ∨ i.head = j.head ∧ i.choice = j.choice := by
  rcases Nat.lt_trichotomy (Numbered.index i.head) (Numbered.index j.head) with h | h | h
  · exact .inl (.inl h)
  · have hhead := LawfulNumbered.index_inj h
    rcases Nat.lt_trichotomy i.choice j.choice with hc | hc | hc
    · exact .inl (.inr ⟨hhead, hc⟩)
    · exact .inr (.inr ⟨hhead, hc⟩)
    · exact .inr (.inl (.inr ⟨hhead.symm, hc⟩))
  · exact .inr (.inl (.inl h))

/-- What the production of an item is behind, all of it is behind. -/
theorem HasRead.number_lt_of_before (hi : i.HasRead before) (hj : j.HasRead before')
    (h : i.Before j) : i.number < j.number := by
  suffices hearlier : i.earlier ++ [i.production] <+: j.earlier by
    obtain ⟨between, hbetween⟩ := hearlier
    have hcount := congrArg countItems hbetween
    rw [countItems_append, countItems_append, countItems_cons, hi.symbols,
      List.length_append] at hcount
    rw [hi.number_eq, hj.number_eq]
    omega
  obtain ⟨hlt, hchosen⟩ := List.getElem?_eq_some_iff.mp hi.chosen
  have hhead : (productionsOf i.head).take i.choice ++ [i.production] =
      (productionsOf i.head).take (i.choice + 1) := by
    rw [List.take_add_one, hi.chosen]
    rfl
  rw [earlier, List.append_assoc, hhead]
  rcases h with h | ⟨hsame, hchoice⟩
  · -- all productions of the head of `i` stand in front of those of the head of `j`
    have htake : (Nonterminal.all.take (Numbered.index i.head)) ++ [i.head] <+:
        Nonterminal.all.take (Numbered.index j.head) := by
      have hsucc : Nonterminal.all.take (Numbered.index i.head) ++ [i.head] =
          Nonterminal.all.take (Numbered.index i.head + 1) := by
        rw [List.take_add_one, getElem?_all]
        rfl
      rw [hsucc]
      exact List.take_prefix_take_left h
    obtain ⟨between, hbetween⟩ := htake
    rw [earlier, ← hbetween, List.flatMap_append, List.flatMap_append, List.append_assoc,
      List.append_assoc]
    refine (List.prefix_append_right_inj _).mpr ?_
    rw [List.flatMap_singleton]
    exact (List.take_prefix _ _).trans (List.prefix_append _ _)
  · rw [earlier, hsame]
    exact (List.prefix_append_right_inj _).mpr (List.take_prefix_take_left hchoice)

/-- Items have different numbers. -/
theorem HasRead.eq_of_number (hi : i.HasRead before) (hj : j.HasRead before')
    (h : i.number = j.number) : i = j := by
  rcases before_or_before i j with hlt | hlt | ⟨hhead, hchoice⟩
  · have := hi.number_lt_of_before hj hlt
    omega
  · have := hj.number_lt_of_before hi hlt
    omega
  · refine hi.eq_of_key hj ?_
    have hproduction : i.production = j.production := by
      have hchosen := hi.chosen
      rw [hhead, hchoice, hj.chosen] at hchosen
      exact (Option.some.inj hchosen).symm
    have hearlier : i.earlier = j.earlier := by rw [earlier, earlier, hhead, hchoice]
    have hlength : i.rest.length = j.rest.length := by
      have hisymbols := congrArg List.length hi.symbols
      have hjsymbols := congrArg List.length hj.symbols
      rw [hi.number_eq, hj.number_eq, hearlier] at h
      rw [hproduction, hjsymbols, List.length_append, List.length_append] at hisymbols
      omega
    rw [key, key, hhead, hchoice, hlength]

/-- Items that have been read come in the order of their numbers. -/
theorem HasRead.number_le_of_precedes (hi : i.HasRead before) (hj : j.HasRead before')
    (hirest : i.rest = []) (hjrest : j.rest = []) (h : i.Precedes j) : i.number ≤ j.number := by
  rcases before_or_before i j with hlt | hlt | ⟨hhead, hchoice⟩
  · exact (hi.number_lt_of_before hj hlt).le
  · have hgt : compare i.key j.key = .gt := by
      rw [Std.OrientedCmp.gt_iff_lt]
      rcases hlt with hlt | ⟨hhead, hlt⟩
      · simp [key, compare, List.compareLex_cons_cons, compareOfLessAndEq, hlt]
      · simp [key, compare, List.compareLex_cons_cons, compareOfLessAndEq, hhead, hlt]
    rw [Precedes, hgt] at h
    contradiction
  · have hkey : i.key = j.key := by rw [key, key, hhead, hchoice, hirest, hjrest]
    rw [hi.eq_of_key hj hkey]

end Item

end SyntaxTriage
