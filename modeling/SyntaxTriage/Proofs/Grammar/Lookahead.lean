import SyntaxTriage.Grammar.Lookahead
import SyntaxTriage.Proofs.Grammar.Inclusion
import SyntaxTriage.Proofs.Grammar.Productions

/-!
Lookahead sets. The states that are found are those of the automaton, told apart by their keys, and
the sets have the members that moving dots and calling nonterminals give them.
-/

namespace SyntaxTriage

open Grammar

/-! ### Keys -/

/-- Items of the grammar are told apart by their keys. -/
theorem Item.HasRead.eq_of_key {i j : Item} {before before' : List Symbol}
    (hi : i.HasRead before) (hj : j.HasRead before') (h : i.key = j.key) : i = j := by
  obtain ⟨hhead, h⟩ := List.cons.inj h
  obtain ⟨hchoice, h⟩ := List.cons.inj h
  obtain ⟨hlength, -⟩ := List.cons.inj h
  have hhead : i.head = j.head := LawfulNumbered.index_inj hhead
  have hproduction : i.production = j.production := by
    have hchosen := hi.chosen
    rw [hhead, hchoice, hj.chosen] at hchosen
    exact (Option.some.inj hchosen).symm
  have hrest : i.rest = j.rest := by
    have hsymbols := hi.symbols
    rw [hproduction, hj.symbols] at hsymbols
    exact (List.append_inj_right' hsymbols hlength.symm).symm
  cases i
  cases j
  simp_all

theorem Item.length_key (i : Item) : i.key.length = 3 := rfl

theorem eq_of_flatMap_key {items items' : List Item}
    (hitems : ∀ i ∈ items, ∃ before, i.HasRead before)
    (hitems' : ∀ i ∈ items', ∃ before, i.HasRead before)
    (h : items.flatMap Item.key = items'.flatMap Item.key) : items = items' := by
  induction items generalizing items' with
  | nil =>
      cases items' with
      | nil => rfl
      | cons j items' => contradiction
  | cons i items ih =>
      cases items' with
      | nil => contradiction
      | cons j items' =>
          rw [List.flatMap_cons, List.flatMap_cons] at h
          obtain ⟨hkey, h⟩ := List.append_inj h (i.length_key.trans j.length_key.symm)
          obtain ⟨_, hi⟩ := hitems i List.mem_cons_self
          obtain ⟨_, hj⟩ := hitems' j List.mem_cons_self
          rw [hi.eq_of_key hj hkey, ih (fun k hk => hitems k (List.mem_cons_of_mem _ hk))
            (fun k hk => hitems' k (List.mem_cons_of_mem _ hk)) h]

namespace State

/-- The state is made from its kernel, and its items belong to the grammar. -/
structure Grammatical (s : State) : Prop where
  made : ∃ kernel, s = ofKernel kernel
  items : ∀ i ∈ s.items, ∃ before, i.HasRead before

theorem grammatical_start (n : Nonterminal) : (start n).Grammatical :=
  ⟨⟨_, rfl⟩, fun _ hi => ⟨[], hasRead_nil_of_mem_start hi⟩⟩

theorem Grammatical.goto {s : State} (h : s.Grammatical) (x : Symbol) :
    (s.goto x).Grammatical := by
  refine ⟨⟨_, rfl⟩, fun i hi => ?_⟩
  rcases mem_goto hi with hnil | ⟨j, hj, hadvance⟩
  · exact ⟨[], hnil⟩
  · obtain ⟨before, hread⟩ := h.items j hj
    exact ⟨_, hread.advance hadvance⟩

/-- States are told apart by their keys. -/
theorem Grammatical.eq_of_key {s t : State} (hs : s.Grammatical) (ht : t.Grammatical)
    (h : s.key = t.key) : s = t := by
  obtain ⟨kernel, rfl⟩ := hs.made
  obtain ⟨kernel', rfl⟩ := ht.made
  have hkernel : kernel = kernel' :=
    eq_of_flatMap_key (fun i hi => hs.items i (List.mem_append_left _ hi))
      (fun i hi => ht.items i (List.mem_append_left _ hi)) h
  rw [hkernel]

end State

theorem State.mem_nextSymbols {s : State} {x : Symbol} :
    x ∈ s.nextSymbols ↔ s.canRead x = true := by
  rw [nextSymbols, BitSet.mem_ofList, List.mem_filterMap, canRead, List.any_eq_true]
  exact exists_congr fun i => and_congr_right fun _ => decide_eq_true_iff.symm

theorem State.mem_shiftable {s : State} {t : Terminal} :
    t ∈ s.shiftable ↔ s.canRead (.terminal t) = true := by
  rw [shiftable, BitSet.mem_ofList, ← mem_nextSymbols, nextSymbols, BitSet.mem_ofList]
  simp only [terminalsOf, List.mem_filterMap]
  constructor
  · rintro ⟨x, hx, ht⟩
    cases x with
    | terminal u =>
        cases ht
        exact hx
    | nonterminal n => contradiction
  · exact fun h => ⟨_, h, rfl⟩

namespace Lookahead

/-! ### States -/

theorem mem_values {known : Std.TreeMap (List Nat) State} {s : State} :
    s ∈ known.values ↔ ∃ k : List Nat, known[k]? = some s := by
  have hvalues : known.values = known.toList.map (·.2) := by
    show known.foldr (fun _ v l => v :: l) [] = _
    rw [Std.TreeMap.foldr_eq_foldr_toList]
    induction known.toList with
    | nil => rfl
    | cons p ps ih => rw [List.foldr_cons, ih, List.map_cons]
  rw [hvalues, List.mem_map]
  constructor
  · rintro ⟨⟨k, s⟩, hmem, rfl⟩
    exact ⟨k, Std.TreeMap.mem_toList_iff_getElem?_eq_some.mp hmem⟩
  · rintro ⟨k, hk⟩
    exact ⟨(k, s), Std.TreeMap.mem_toList_iff_getElem?_eq_some.mpr hk, rfl⟩

def Indexed (known : Std.TreeMap (List Nat) State) : Prop :=
  ∀ (k : List Nat) (s : State), known[k]? = some s → s.key = k ∧ s.Grammatical

def Known (known : Std.TreeMap (List Nat) State) (s : State) : Prop := known[s.key]? = some s

theorem Indexed.known_iff {known : Std.TreeMap (List Nat) State} (h : Indexed known) {s : State}
    (hs : s.Grammatical) : Known known s ↔ known.contains s.key = true := by
  rw [Std.TreeMap.contains_eq_isSome_getElem?, Option.isSome_iff_exists]
  constructor
  · exact fun hknown => ⟨s, hknown⟩
  · rintro ⟨t, ht⟩
    obtain ⟨hkey, hgrammatical⟩ := h _ t ht
    rw [Known, ht, hgrammatical.eq_of_key hs hkey]

theorem indexed_empty : Indexed ∅ := by
  intro k s h
  rw [Std.TreeMap.getElem?_emptyc] at h
  contradiction

theorem Indexed.insert {known : Std.TreeMap (List Nat) State} (h : Indexed known) {s : State}
    (hs : s.Grammatical) : Indexed (known.insert s.key s) := by
  intro k t ht
  rw [Std.TreeMap.getElem?_insert] at ht
  split at ht
  · rename_i hkey
    cases ht
    exact ⟨Std.LawfulEqCmp.compare_eq_iff_eq.mp hkey, hs⟩
  · exact h k t ht

theorem Indexed.known_insert {known : Std.TreeMap (List Nat) State} (h : Indexed known)
    {s t : State} (hs : s.Grammatical) :
    Known (known.insert s.key s) t ↔ t = s ∨ Known known t := by
  rw [Known, Std.TreeMap.getElem?_insert]
  split
  · rename_i hkey
    have hkey : s.key = t.key := Std.LawfulEqCmp.compare_eq_iff_eq.mp hkey
    constructor
    · intro hst
      exact .inl (Option.some.inj hst).symm
    · rintro (rfl | ht)
      · rfl
      · rw [hs.eq_of_key (h _ t ht).2 hkey]
  · rename_i hkey
    constructor
    · exact .inr
    · rintro (rfl | ht)
      · exact absurd (Std.LawfulEqCmp.compare_eq_iff_eq.mpr rfl) hkey
      · exact ht

section

variable {p : Std.TreeMap (List Nat) State × List State} {s t : State} {found : List State}

theorem visit_of_known (h : Indexed p.1) (hs : s.Grammatical) (hknown : Known p.1 s) :
    visit p s = p :=
  if_pos ((h.known_iff hs).mp hknown)

theorem visit_of_new (h : Indexed p.1) (hs : s.Grammatical) (hknown : ¬Known p.1 s) :
    visit p s = (p.1.insert s.key s, s :: p.2) :=
  if_neg fun hcontains => hknown ((h.known_iff hs).mpr hcontains)

/-- A visit makes a state known, and queues it if it was not. -/
theorem visit_spec (h : Indexed p.1) (hs : s.Grammatical) :
    Indexed (visit p s).1 ∧ (∀ t, Known (visit p s).1 t ↔ t = s ∨ Known p.1 t) ∧
      ∀ t, t ∈ (visit p s).2 ↔ t ∈ p.2 ∨ t = s ∧ ¬Known p.1 s := by
  by_cases hknown : Known p.1 s
  · rw [visit_of_known h hs hknown]
    refine ⟨h, fun t => ⟨.inr, ?_⟩, fun t => by simp [hknown]⟩
    rintro (rfl | ht)
    · exact hknown
    · exact ht
  · rw [visit_of_new h hs hknown]
    refine ⟨h.insert hs, fun t => h.known_insert hs, fun t => ?_⟩
    rw [List.mem_cons, or_comm]
    simp [hknown]

theorem foldl_visit_spec (h : Indexed p.1) (hfound : ∀ s ∈ found, s.Grammatical) :
    Indexed (found.foldl visit p).1 ∧
      (∀ t, Known (found.foldl visit p).1 t ↔ t ∈ found ∨ Known p.1 t) ∧
      ∀ t, t ∈ (found.foldl visit p).2 ↔ t ∈ p.2 ∨ t ∈ found ∧ ¬Known p.1 t := by
  induction found generalizing p with
  | nil => simp [h]
  | cons s found ih =>
      obtain ⟨hindexed, hknown, hqueue⟩ := visit_spec h (hfound s List.mem_cons_self)
      obtain ⟨hindexed', hknown', hqueue'⟩ :=
        ih hindexed fun t ht => hfound t (List.mem_cons_of_mem s ht)
      refine ⟨hindexed', fun t => ?_, fun t => ?_⟩
      · rw [List.foldl_cons, hknown', hknown, List.mem_cons]
        tauto
      · rw [List.foldl_cons, hqueue', hknown, hqueue, List.mem_cons]
        by_cases hts : t = s
        · subst hts
          tauto
        · tauto

theorem mem_successors : t ∈ successors s ↔ ∃ x, s.canRead x = true ∧ s.goto x = t := by
  rw [successors, List.mem_map]
  refine exists_congr fun x => and_congr_left fun _ => ?_
  rw [BitSet.mem_toList, State.mem_nextSymbols]

theorem three_le_itemCount : 3 ≤ itemCount := by decide +kernel

/-- What holds while the automaton is explored: every known state is still queued, or what comes
behind it is known. -/
structure Exploring (p : Std.TreeMap (List Nat) State × List State) : Prop where
  indexed : Indexed p.1
  queued : ∀ s ∈ p.2, Known p.1 s
  done : ∀ s, Known p.1 s → s ∈ p.2 ∨ ∀ t ∈ successors s, Known p.1 t

def advance (p : Std.TreeMap (List Nat) State × List State) :
    Std.TreeMap (List Nat) State × List State :=
  (p.2.flatMap successors).foldl visit (p.1, [])

theorem explore_nil (fuel : Nat) (known : Std.TreeMap (List Nat) State) :
    explore fuel (known, []) = known := by
  cases fuel <;> rfl

theorem explore_cons (fuel : Nat) (known : Std.TreeMap (List Nat) State) (s : State)
    (queue : List State) :
    explore (fuel + 1) (known, s :: queue) = explore fuel (advance (known, s :: queue)) := rfl

theorem Exploring.advance (h : Exploring p) :
    Exploring (advance p) ∧
      ∀ t, Known (Lookahead.advance p).1 t ↔ t ∈ p.2.flatMap successors ∨ Known p.1 t := by
  have hfound : ∀ t ∈ p.2.flatMap successors, t.Grammatical := by
    intro t ht
    obtain ⟨s, hs, ht⟩ := List.mem_flatMap.mp ht
    obtain ⟨x, -, rfl⟩ := mem_successors.mp ht
    exact (h.indexed _ s (h.queued s hs)).2.goto x
  obtain ⟨hindexed, hknown, hqueue⟩ :=
    foldl_visit_spec (p := (p.1, [])) h.indexed hfound
  refine ⟨⟨hindexed, fun t ht => ?_, fun t ht => ?_⟩, hknown⟩
  · rcases (hqueue t).mp ht with ht | ⟨ht, -⟩
    · contradiction
    · exact (hknown t).mpr (.inl ht)
  · by_cases hbefore : Known p.1 t
    · right
      intro u hu
      rcases h.done t hbefore with ht | hdone
      · exact (hknown u).mpr (.inl (List.mem_flatMap.mpr ⟨t, ht, hu⟩))
      · exact (hknown u).mpr (.inr (hdone u hu))
    · left
      exact (hqueue t).mpr (.inr ⟨((hknown t).mp ht).resolve_right hbefore, hbefore⟩)

end

/-- The state is at most `n` symbols behind a start state. -/
inductive Within : Nat → State → Prop
  | start {n : Nat} {entry : Nonterminal} (h : entry ∈ entries) : Within n (State.start entry)
  | goto {n : Nat} {s : State} {x : Symbol} (hs : Within n s) (hx : s.canRead x = true) :
      Within (n + 1) (s.goto x)

theorem Within.mono {m n : Nat} {s : State} (h : Within m s) (hmn : m ≤ n) : Within n s := by
  induction h generalizing n with
  | start hentry => exact .start hentry
  | goto _ hx ih =>
      obtain ⟨n, rfl⟩ := Nat.exists_eq_add_one_of_ne_zero (Nat.ne_zero_of_lt hmn)
      exact .goto (ih (Nat.le_of_succ_le_succ hmn)) hx

theorem exploring_start :
    Exploring ((entries.map State.start).foldl visit (∅, [])) ∧
      ∀ t, Known ((entries.map State.start).foldl visit (∅, [])).1 t ↔
        t ∈ entries.map State.start := by
  have hfound : ∀ t ∈ entries.map State.start, t.Grammatical := by
    intro t ht
    obtain ⟨n, -, rfl⟩ := List.mem_map.mp ht
    exact State.grammatical_start n
  have hnone (t : State) : ¬Known ∅ t := by
    intro ht
    rw [Known, Std.TreeMap.getElem?_emptyc] at ht
    contradiction
  obtain ⟨hindexed, hknown, hqueue⟩ := foldl_visit_spec (p := (∅, [])) indexed_empty hfound
  refine ⟨⟨hindexed, fun t ht => ?_, fun t ht => ?_⟩, fun t => ?_⟩
  · rcases (hqueue t).mp ht with ht | ⟨ht, -⟩
    · contradiction
    · exact (hknown t).mpr (.inl ht)
  · exact .inl ((hqueue t).mpr (.inr ⟨((hknown t).mp ht).resolve_right (hnone t), hnone t⟩))
  · rw [hknown]
    exact or_iff_left (hnone t)

theorem Exploring.explore {fuel : Nat} {p : Std.TreeMap (List Nat) State × List State}
    (h : Exploring p) : Indexed (explore fuel p) ∧
      ∀ n, (∀ s, Within n s → Known p.1 s) →
        ∀ s, Within (n + fuel) s → Known (explore fuel p) s := by
  induction fuel generalizing p with
  | zero => exact ⟨h.indexed, fun n hn => hn⟩
  | succ fuel ih =>
      obtain ⟨known, queue⟩ := p
      cases queue with
      | nil =>
          rw [explore_nil]
          refine ⟨h.indexed, fun n hn s hs => ?_⟩
          generalize n + (fuel + 1) = m at hs
          induction hs with
          | start hentry => exact hn _ (.start hentry)
          | goto _ hx ihs =>
              rcases h.done _ ihs with hmem | hdone
              · contradiction
              · exact hdone _ (mem_successors.mpr ⟨_, hx, rfl⟩)
      | cons s queue =>
          rw [explore_cons]
          obtain ⟨hadvance, hknown⟩ := h.advance
          refine ⟨(ih hadvance).1, fun n hn => ?_⟩
          rw [Nat.add_comm fuel 1, ← Nat.add_assoc]
          refine (ih hadvance).2 (n + 1) fun t ht => ?_
          cases ht with
          | start hentry => exact (hknown _).mpr (.inr (hn _ (.start hentry)))
          | @goto _ u x hu hx =>
              have hmem : u.goto x ∈ successors u := mem_successors.mpr ⟨x, hx, rfl⟩
              rcases h.done u (hn u hu) with hqueued | hdone
              · exact (hknown _).mpr (.inl (List.mem_flatMap.mpr ⟨u, hqueued, hmem⟩))
              · exact (hknown _).mpr (.inr (hdone _ hmem))

theorem grammatical_of_mem_states {s : State} (h : s ∈ states) : s.Grammatical := by
  obtain ⟨k, hk⟩ := mem_values.mp h
  exact (exploring_start.1.explore.1 k s hk).2

/-- The states near the start states are found. -/
theorem mem_states_of_within {n : Nat} {s : State} (h : Within n s) (hn : n ≤ Nat.pow 2 itemCount) :
    s ∈ states := by
  obtain ⟨hexploring, hknown⟩ := exploring_start
  refine mem_values.mpr ⟨s.key, (hexploring.explore.2 0 (fun t ht => ?_) s ?_)⟩
  · cases ht with
    | start hentry => exact (hknown _).mpr (List.mem_map_of_mem hentry)
  · exact h.mono (by rwa [Nat.zero_add])

/-! ### Sets -/

theorem mem_sets_iff {t : Terminal} {place : List Nat} :
    t ∈ sets.getD place ∅ ↔ inclusions.Entails t place :=
  Inclusions.mem_solve_iff

-- the tables of the automaton are large, and nothing here should compute them
attribute [local irreducible] states sets

/-- What is given is the end of the input, or what may follow a nonterminal in a production. -/
theorem of_mem_given {place : List Nat} {ts : TerminalSet} (h : (place, ts) ∈ inclusions.given) :
    ts = {.endOfInput} ∨ ∃ n p before m after, p ∈ productionsOf n ∧
      p.symbols = before ++ .nonterminal m :: after ∧ ts = firstOf after := by
  rcases List.mem_append.mp h with h | h
  · obtain ⟨n, -, h⟩ := List.mem_flatMap.mp h
    obtain ⟨i, -, heq⟩ := List.mem_map.mp h
    exact .inl (congrArg Prod.snd heq).symm
  · obtain ⟨s, hs, h⟩ := List.mem_flatMap.mp h
    obtain ⟨i, hi, h⟩ := List.mem_flatMap.mp h
    obtain ⟨before, hread⟩ := (grammatical_of_mem_states hs).items i hi
    unfold givenBy at h
    split at h
    · rename_i m after hrest
      rw [List.mem_singleton] at h
      refine .inr ⟨i.head, i.production, before, m, after, hread.mem_productionsOf, ?_,
        congrArg Prod.snd h⟩
      rw [hread.symbols, hrest]
    · contradiction

/-- No production is reduced in front of an indented block. -/
theorem indent_not_mem_sets (place : List Nat) : Terminal.indent ∉ sets.getD place ∅ := by
  rw [mem_sets_iff]
  intro h
  induction h with
  | included _ _ ih => exact ih
  | given hgiven hmem =>
      rcases of_mem_given hgiven with rfl | ⟨n, p, before, m, after, hp, hsymbols, rfl⟩
      · rw [BitSet.mem_singleton] at hmem
        cases LawfulNumbered.index_inj hmem
      · exact indent_not_mem_firstOf hp hsymbols hmem

/-- What can be reduced are the items that have been read, each in front of some set. -/
theorem exists_of_mem_reductions {s : State} {entry : Production × TerminalSet}
    (h : entry ∈ reductions s) :
    ∃ i ∈ s.items, i.rest = [] ∧ ∃ place, entry = (i.production, sets.getD place ∅) := by
  rcases List.mem_append.mp h with h | h
  all_goals
    obtain ⟨i, hi, rfl⟩ := List.mem_map.mp h
    obtain ⟨hi, hrest⟩ := List.mem_filter.mp hi
    refine ⟨i, ?_, List.isEmpty_iff.mp hrest, _, rfl⟩
  · exact List.mem_append_left _ hi
  · exact List.mem_append_right _ hi

/-- A whole input may be followed by its end. -/
theorem endOfInput_mem_sets {n : Nonterminal} {i : Item} (hn : n ∈ entries)
    (hi : i ∈ (State.start n).kernel) :
    Terminal.endOfInput ∈ sets.getD (kernelPlace (State.start n) i) ∅ := by
  refine mem_sets_iff.mpr (.given (m := {.endOfInput}) ?_ ?_)
  · refine List.mem_append_left _ (List.mem_flatMap.mpr ⟨n, hn, ?_⟩)
    exact List.mem_map.mpr ⟨i, hi, rfl⟩
  · rw [BitSet.mem_singleton]

section

variable {s : State} {i : Item} {t : Terminal} {n : Nonterminal} {rest : List Symbol}
  {place : List Nat}

/-- What may be read behind a nonterminal may follow it. -/
theorem mem_sets_of_first (hs : s ∈ states) (hi : i ∈ s.items)
    (hrest : i.rest = .nonterminal n :: rest) (ht : t ∈ firstOf rest) :
    t ∈ sets.getD (openedPlace s n) ∅ := by
  refine mem_sets_iff.mpr (.given (m := firstOf rest) ?_ ht)
  refine List.mem_append_right _ (List.mem_flatMap.mpr ⟨s, hs, ?_⟩)
  refine List.mem_flatMap.mpr ⟨i, hi, ?_⟩
  rw [givenBy, hrest]
  exact List.mem_singleton_self _

/-- What may follow an item may follow the nonterminal that stands last in it. -/
theorem mem_sets_of_call (hs : s ∈ states) (hi : (i, place) ∈ placed s)
    (hrest : i.rest = .nonterminal n :: rest) (hnullable : rest.all isNullable = true)
    (ht : t ∈ sets.getD place ∅) : t ∈ sets.getD (openedPlace s n) ∅ := by
  rw [mem_sets_iff] at ht ⊢
  refine .included ?_ ht
  refine List.mem_flatMap.mpr ⟨s, hs, List.mem_append_right _ ?_⟩
  refine List.mem_flatMap.mpr ⟨(i, place), hi, ?_⟩
  simp only [callsOf, hrest, hnullable, if_true]
  exact List.mem_singleton_self _

/-- What may follow an item may follow it when its dot has moved. -/
theorem mem_sets_of_move {j : Item} {x : Symbol} (hs : s ∈ states) (hi : (i, place) ∈ placed s)
    (hj : i.advance? x = some j) (ht : t ∈ sets.getD place ∅) :
    t ∈ sets.getD (kernelPlace (s.goto x) j) ∅ := by
  rw [mem_sets_iff] at ht ⊢
  refine .included ?_ ht
  refine List.mem_flatMap.mpr ⟨s, hs, List.mem_append_left _ ?_⟩
  refine List.mem_flatMap.mpr ⟨x, ?_, ?_⟩
  · have hitem : i ∈ s.items := by
      rcases List.mem_append.mp hi with hi | hi
      all_goals
        obtain ⟨k, hk, heq⟩ := List.mem_map.mp hi
        cases heq
      · exact List.mem_append_left _ hk
      · exact List.mem_append_right _ hk
    rw [BitSet.mem_toList, State.mem_nextSymbols, State.canRead_iff]
    exact ⟨i, hitem, j.rest, (Item.advance?_eq_some_iff.mp hj).1⟩
  · refine List.mem_filterMap.mpr ⟨(i, place), hi, ?_⟩
    show Option.map _ (i.advance? x) = _
    rw [hj]
    rfl

end

end Lookahead

end SyntaxTriage
