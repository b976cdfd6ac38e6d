import SyntaxTriage.Proofs.Grammar.Lookahead
import SyntaxTriage.Proofs.Grammar.Reach

/-!
What a state calls for. A dot before a nonterminal calls for it, and with it for everything that its
productions begin with; the opened items of a state are the items with nothing read of all that is
called for.
-/

namespace SyntaxTriage

open Grammar

namespace Grammar

theorem getElem?_all (n : Nonterminal) : Nonterminal.all[Numbered.index n]? = some n := by
  cases n <;> rfl

/-! ### Openings -/

-- the nonterminals that may come first are found by a search that nothing here should run
attribute [local irreducible] leads openingOf

theorem mem_leads {m n : Nonterminal} : m ∈ leads n ↔ Leading starters n m := by
  unfold leads
  exact mem_reach

theorem openingOf_eq (n : Nonterminal) :
    openingOf n = ⟨leads n, (leads n).toList.flatMap initialItems⟩ := by
  unfold openingOf
  rw [openingTable, List.getElem?_toArray, List.getElem?_map, getElem?_all]
  rfl

theorem openingOf_heads (n : Nonterminal) : (openingOf n).heads = leads n := by rw [openingOf_eq]

/-- The opening holds what may begin the nonterminals, with the items that this makes. -/
structure Opens (o : Opening) (ns : List Nonterminal) : Prop where
  heads : ∀ m, m ∈ o.heads ↔ ∃ n ∈ ns, Leading starters n m
  items : ∀ i, i ∈ o.items ↔ i.HasRead [] ∧ i.head ∈ o.heads

theorem mem_openingOf_items {n : Nonterminal} {i : Item} :
    i ∈ (openingOf n).items ↔ i.HasRead [] ∧ i.head ∈ leads n := by
  rw [openingOf_eq]
  simp only [List.mem_flatMap, BitSet.mem_toList, Item.mem_initialItems]
  constructor
  · rintro ⟨m, hm, rfl, hread⟩
    exact ⟨hread, hm⟩
  · rintro ⟨hread, hm⟩
    exact ⟨_, hm, rfl, hread⟩

theorem Opens.next {o : Opening} {ns : List Nonterminal} (h : Opens o ns) (n : Nonterminal) :
    Opens (if n ∈ o.heads then o else o.union (openingOf n)) (ns ++ [n]) := by
  split
  · rename_i hn
    refine ⟨fun m => ?_, h.items⟩
    rw [h.heads m]
    constructor
    · exact fun ⟨k, hk, hkm⟩ => ⟨k, List.mem_append_left _ hk, hkm⟩
    · rintro ⟨k, hk, hkm⟩
      rcases List.mem_append.mp hk with hk | hk
      · exact ⟨k, hk, hkm⟩
      · -- what begins `n` begins the nonterminal that `n` itself comes from
        obtain rfl := List.mem_singleton.mp hk
        obtain ⟨l, hl, hlk⟩ := (h.heads k).mp hn
        exact ⟨l, hl, hlk.trans hkm⟩
  · constructor
    · intro m
      show m ∈ o.heads ∪ (openingOf n).heads ↔ _
      rw [BitSet.mem_union, h.heads, openingOf_heads, mem_leads]
      constructor
      · rintro (⟨k, hk, hkm⟩ | hnm)
        · exact ⟨k, List.mem_append_left _ hk, hkm⟩
        · exact ⟨n, List.mem_append_right _ (List.mem_singleton_self n), hnm⟩
      · rintro ⟨k, hk, hkm⟩
        rcases List.mem_append.mp hk with hk | hk
        · exact .inl ⟨k, hk, hkm⟩
        · exact .inr (List.mem_singleton.mp hk ▸ hkm)
    · intro i
      show i ∈ o.items ++ (openingOf n).items.filter (·.head ∉ o.heads) ↔
        _ ∧ i.head ∈ o.heads ∪ (openingOf n).heads
      rw [List.mem_append, h.items, List.mem_filter, mem_openingOf_items, BitSet.mem_union,
        openingOf_heads, decide_eq_true_iff]
      tauto

theorem opens_opening (ns : List Nonterminal) : Opens (opening ns) ns := by
  suffices ∀ (o : Opening) (done : List Nonterminal), Opens o done →
      Opens (ns.foldl (fun o n => if n ∈ o.heads then o else o.union (openingOf n)) o)
        (done ++ ns) by
    refine this .empty [] ⟨fun m => ?_, fun i => ?_⟩
    · exact iff_of_false (BitSet.not_mem_empty m) (by simp)
    · exact iff_of_false (List.not_mem_nil) fun h => BitSet.not_mem_empty _ h.2
  induction ns with
  | nil =>
      intro o done h
      rwa [List.append_nil]
  | cons n ns ih =>
      intro o done h
      rw [List.foldl_cons, ← List.singleton_append, ← List.append_assoc]
      exact ih _ _ (h.next n)

theorem mem_opening_items {ns : List Nonterminal} {i : Item} :
    i ∈ (opening ns).items ↔ i.HasRead [] ∧ ∃ n ∈ ns, Leading starters n i.head := by
  rw [(opens_opening ns).items, (opens_opening ns).heads]

theorem mem_starters {m n : Nonterminal} :
    m ∈ starters n ↔ ∃ p ∈ productionsOf n, ∃ rest, p.symbols = .nonterminal m :: rest := by
  rw [starters, List.mem_flatMap]
  refine exists_congr fun p => and_congr_right fun _ => ?_
  cases p.symbols with
  | nil => simp [nonterminalsOf]
  | cons x rest =>
      cases x with
      | terminal t => simp [nonterminalsOf]
      | nonterminal k => simp [nonterminalsOf, eq_comm]

theorem mem_first_nonterminal {n : Nonterminal} {t : Terminal} :
    t ∈ first (.nonterminal n) ↔ ∃ m, Leading (nonterminalsOf ∘ exposedIn) n m ∧
      Symbol.terminal t ∈ exposedIn m := by
  have hfirst : first (.nonterminal n) = .ofList
      ((reach (nonterminalsOf ∘ exposedIn) n).toList.flatMap fun m => terminalsOf (exposedIn m)) := by
    rw [first, firstTable, List.getElem?_toArray, List.getElem?_map, getElem?_all]
    rfl
  have hterminals (m : Nonterminal) :
      t ∈ terminalsOf (exposedIn m) ↔ Symbol.terminal t ∈ exposedIn m := by
    simp only [terminalsOf, List.mem_filterMap]
    constructor
    · rintro ⟨x, hx, ht⟩
      cases x with
      | terminal u => exact Option.some.inj ht ▸ hx
      | nonterminal k => cases ht
    · exact fun h => ⟨_, h, rfl⟩
  have hreach (m : Nonterminal) : m ∈ (reach (nonterminalsOf ∘ exposedIn) n).toList ↔
      Leading (nonterminalsOf ∘ exposedIn) n m := by rw [BitSet.mem_toList, mem_reach]
  rw [hfirst, BitSet.mem_ofList, List.mem_flatMap]
  exact exists_congr fun m => and_congr (hreach m) (hterminals m)

theorem mem_firstOf {symbols : List Symbol} {t : Terminal} :
    t ∈ firstOf symbols ↔ ∃ x ∈ exposed symbols, t ∈ first x := by
  rw [firstOf, BitSet.mem_union_list]
  simp only [List.mem_map, exists_exists_and_eq_and]

/-- Every part of a production is read by some item. -/
theorem exists_hasRead {n : Nonterminal} {p : Production} {before rest : List Symbol}
    (hp : p ∈ productionsOf n) (hsymbols : p.symbols = before ++ rest) :
    ∃ i : Item, i.HasRead before ∧ i.production = p ∧ i.head = n ∧ i.rest = rest := by
  obtain ⟨choice, hchoice⟩ := List.getElem?_of_mem hp
  have hhead := head_of_mem_productionsOf hp
  exact ⟨⟨p, choice, rest⟩, ⟨by rw [Item.head, hhead]; exact hchoice, hsymbols⟩, rfl, hhead, rfl⟩

end Grammar

namespace State

/-- The state calls for a nonterminal: a dot stands before it, in the kernel or at the beginning of
something else that is called for. -/
inductive Calls (s : State) : Nonterminal → Prop
  | kernel {i : Item} {n : Nonterminal} {rest : List Symbol} (mem : i ∈ s.kernel)
      (rest : i.rest = .nonterminal n :: rest) : Calls s n
  | opened {m n : Nonterminal} {p : Production} {rest : List Symbol} (outer : Calls s m)
      (mem : p ∈ productionsOf m) (symbols : p.symbols = .nonterminal n :: rest) : Calls s n

theorem calls_iff_leading {s : State} {n : Nonterminal} :
    s.Calls n ↔ ∃ m ∈ s.kernel.filterMap Item.called?, Leading starters m n := by
  have hcalled {i : Item} {m : Nonterminal} :
      i.called? = some m ↔ ∃ rest, i.rest = .nonterminal m :: rest := by
    unfold Item.called?
    split
    · rename_i hrest
      simp [hrest, eq_comm]
    · rename_i hno
      simpa using fun rest h => hno m rest h
  constructor
  · intro h
    induction h with
    | kernel mem rest => exact ⟨_, List.mem_filterMap.mpr ⟨_, mem, hcalled.mpr ⟨_, rest⟩⟩, .refl⟩
    | opened _ mem symbols ih =>
        obtain ⟨m, hm, hlead⟩ := ih
        exact ⟨m, hm, hlead.tail (mem_starters.mpr ⟨_, mem, _, symbols⟩)⟩
  · rintro ⟨m, hm, hlead⟩
    induction hlead with
    | refl =>
        obtain ⟨i, hi, hm⟩ := List.mem_filterMap.mp hm
        obtain ⟨rest, hrest⟩ := hcalled.mp hm
        exact .kernel hi hrest
    | tail _ hstep ih =>
        obtain ⟨p, hp, rest, hsymbols⟩ := mem_starters.mp hstep
        exact .opened ih hp hsymbols

/-- The opened items are those with nothing read of what is called for. -/
theorem Grammatical.mem_opened {s : State} (h : s.Grammatical) {i : Item} :
    i ∈ s.opened ↔ i.HasRead [] ∧ s.Calls i.head := by
  obtain ⟨kernel, rfl⟩ := h.made
  rw [calls_iff_leading]
  exact mem_opening_items

/-- What a dot stands before is called for. -/
theorem Grammatical.calls_of_mem {s : State} (h : s.Grammatical) {i : Item} {n : Nonterminal}
    {rest : List Symbol} (hi : i ∈ s.items) (hrest : i.rest = .nonterminal n :: rest) :
    s.Calls n := by
  rcases List.mem_append.mp hi with hi | hi
  · exact .kernel hi hrest
  · obtain ⟨hread, hcalls⟩ := h.mem_opened.mp hi
    have hsymbols : i.production.symbols = .nonterminal n :: rest := by
      rw [hread.symbols, List.nil_append, hrest]
    exact .opened hcalls hread.mem_productionsOf hsymbols

/-- What is called for can be read. -/
theorem Grammatical.canRead_of_calls {s : State} (h : s.Grammatical) {n : Nonterminal}
    (hn : s.Calls n) : s.canRead (.nonterminal n) = true := by
  rw [canRead_iff]
  cases hn with
  | kernel mem rest => exact ⟨_, List.mem_append_left _ mem, _, rest⟩
  | @opened m _ p rest outer mem symbols =>
      obtain ⟨i, hi, -, rfl, hrest⟩ := exists_hasRead mem (List.nil_append p.symbols).symm
      exact ⟨i, List.mem_append_right _ (h.mem_opened.mpr ⟨hi, outer⟩), rest, hrest.trans symbols⟩

end State

end SyntaxTriage
