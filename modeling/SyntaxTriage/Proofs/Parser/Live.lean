import SyntaxTriage.Proofs.Grammar.States
import SyntaxTriage.Proofs.Parser.Settling

/-!
Live stacks: those whose every symbol could be read where it stands. Reading a lexeme keeps a stack
live, and the state of a live stack is one of those that the lookahead sets are made for. An item of
its state has read what lies on top, and the stack below calls for its head; and all items of that
head that could have read the same are there as well.
-/

namespace SyntaxTriage

open Grammar

-- the tables of the automaton are large, and nothing here should compute them
attribute [local irreducible] Lookahead.states Lookahead.sets Parser.Stack.settle

namespace State

/-- Behind a whole input there is nothing to read. -/
theorem items_goto_entry {s : State} {entry : Nonterminal} (hs : s.Grammatical)
    (hentry : entry ∈ Lookahead.entries) : (s.goto (.nonterminal entry)).items = [] := by
  have hkernel : s.items.filterMap (·.advance? (.nonterminal entry)) = [] := by
    refine List.filterMap_eq_nil_iff.mpr fun i hi => ?_
    rw [Option.eq_none_iff_forall_ne_some]
    intro j hj
    obtain ⟨before, hread⟩ := hs.items i hi
    refine entry_not_mem_symbols hread.mem_productionsOf hentry ?_
    rw [hread.symbols, (Item.advance?_eq_some_iff.mp hj).1]
    exact List.mem_append_right _ List.mem_cons_self
  rw [goto, hkernel]
  rfl

theorem canRead_of_mem {s : State} {i : Item} {x : Symbol} {rest : List Symbol} (hi : i ∈ s.items)
    (hrest : i.rest = x :: rest) : s.canRead x = true :=
  canRead_iff.mpr ⟨i, hi, rest, hrest⟩

end State

namespace Parser

/-! ### Calls -/

/-- The stack calls for the nonterminal: its state does, or nothing has been read and the
nonterminal is the whole input. -/
def Stack.Calls (s : Stack) (n : Nonterminal) : Prop :=
  s.state.Calls n ∨ s.frames = [] ∧ n = s.entry

/-- The stack without its uppermost frames calls for what an item of the state is an item of. -/
theorem IsPath.exists_calls {entry : Nonterminal} {frames : List Frame} (h : IsPath entry frames)
    {i : Item} (hi : i ∈ (Stack.mk entry frames).state.items) :
    ∃ read below, frames = read ++ below ∧ i.HasRead (read.reverse.map Frame.symbol) ∧
      (Stack.mk entry below).Calls i.head ∧ (i ∈ (Stack.mk entry frames).state.kernel →
        read = [] → frames = [] ∧ i.head = entry) := by
  induction h generalizing i with
  | nil =>
      rcases List.mem_append.mp hi with hi | hi
      · obtain ⟨hhead, hread⟩ := Item.mem_initialItems.mp hi
        exact ⟨[], [], rfl, hread, .inr ⟨rfl, hhead⟩, fun _ _ => ⟨rfl, hhead⟩⟩
      · obtain ⟨hread, hcalls⟩ := (State.grammatical_start entry).mem_opened.mp hi
        refine ⟨[], [], rfl, hread, .inl hcalls, fun hkernel _ => ?_⟩
        exact ⟨rfl, (Item.mem_initialItems.mp hkernel).1⟩
  | @cons f frames step leaf below ih =>
      have hs : f.state.Grammatical :=
        Stack.grammatical_state (s := ⟨entry, f :: frames⟩) (.cons step leaf below)
      have hadvanced (hkernel : i ∈ f.state.kernel) :
          ∃ j ∈ (Stack.mk entry frames).state.items, j.advance? f.symbol = some i := by
        rw [step] at hkernel
        exact List.mem_filterMap.mp (Item.mem_sort.mp hkernel)
      by_cases hkernel : i ∈ f.state.kernel
      · obtain ⟨j, hj, hadvance⟩ := hadvanced hkernel
        obtain ⟨read, base, rfl, hread, hcalls, -⟩ := ih hj
        have hhead : i.head = j.head := by
          rw [(Item.advance?_eq_some_iff.mp hadvance).2]
          rfl
        refine ⟨f :: read, base, rfl, ?_, by rwa [hhead], fun _ hnil => by cases hnil⟩
        rw [List.reverse_cons, List.map_append]
        exact hread.advance hadvance
      · have hopened := (List.mem_append.mp hi).resolve_left hkernel
        obtain ⟨hread, hcalls⟩ := hs.mem_opened.mp hopened
        exact ⟨[], f :: frames, rfl, hread, .inl hcalls, fun h => absurd h hkernel⟩

/-- All items are there that could have read what lies above a stack that calls for their head. -/
theorem IsPath.mem_items {entry : Nonterminal} {read below : List Frame}
    (h : IsPath entry (read ++ below)) {i : Item} (hcalls : (Stack.mk entry below).Calls i.head)
    (hi : i.HasRead (read.reverse.map Frame.symbol)) :
    i ∈ (Stack.mk entry (read ++ below)).state.items := by
  induction read generalizing i with
  | nil =>
      rcases hcalls with hcalls | ⟨hnil, hhead⟩
      · refine List.mem_append_right _ ?_
        exact (Stack.grammatical_state (s := ⟨entry, below⟩) h).mem_opened.mpr ⟨hi, hcalls⟩
      · obtain rfl : below = [] := hnil
        exact List.mem_append_left _ (Item.mem_initialItems.mpr ⟨hhead, hi⟩)
  | cons f read ih =>
      rw [List.reverse_cons, List.map_append] at hi
      let j : Item := { i with rest := f.symbol :: i.rest }
      have hj : j.HasRead (read.reverse.map Frame.symbol) := by
        refine ⟨hi.chosen, ?_⟩
        rw [hi.symbols, List.append_assoc]
        rfl
      cases h with
      | cons step _ below' =>
          have hmem : i ∈ ((Stack.mk entry (read ++ below)).state.goto f.symbol).kernel :=
            mem_kernel_goto (ih below' (i := j) hcalls hj)
              (Item.advance?_eq_some_iff.mpr ⟨rfl, rfl⟩)
          show i ∈ f.state.items
          rw [step]
          exact List.mem_append_left _ hmem

/-- The state follows from the symbols above another state. -/
theorem IsPath.state_eq {entry : Nonterminal} {read below : List Frame}
    (h : IsPath entry (read ++ below)) : (Stack.mk entry (read ++ below)).state =
      (read.reverse.map Frame.symbol).foldl State.goto (Stack.mk entry below).state := by
  induction read with
  | nil => rfl
  | cons f read ih =>
      cases h with
      | cons step _ below' =>
          rw [List.reverse_cons, List.map_append, List.foldl_append, ← ih below']
          exact step

namespace Stack

/-! ### Live stacks -/

structure Live (s : Stack) : Prop where
  built : s.Built
  entry : s.entry ∈ Lookahead.entries
  read : ∀ f below, f :: below <:+ s.frames →
    (Stack.mk s.entry below).state.canRead f.symbol = true

variable {s : Stack}

theorem live_empty {entry : Nonterminal} (h : entry ∈ Lookahead.entries) : (empty entry).Live :=
  ⟨.nil, h, fun f below hsuffix => by cases List.suffix_nil.mp hsuffix⟩

theorem Live.below {read below : List Frame} (h : s.Live) (hframes : s.frames = read ++ below) :
    (Stack.mk s.entry below).Live := by
  refine ⟨?_, h.entry, fun f rest hsuffix => h.read f rest ?_⟩
  · have hdrop := h.built.drop read.length
    rwa [hframes, List.drop_left] at hdrop
  · rw [hframes]
    exact hsuffix.trans (List.suffix_append read below)

theorem Live.push {x : Symbol} {trees : List Tree} (h : s.Live) (hx : s.state.canRead x = true)
    (hbuilt : (s.push x trees).Built) : (s.push x trees).Live := by
  refine ⟨hbuilt, h.entry, fun f below hsuffix => ?_⟩
  rcases List.suffix_cons_iff.mp hsuffix with heq | hsuffix
  · cases heq
    exact hx
  · exact h.read f below hsuffix

/-- The state of a live stack can be reached. -/
theorem Live.reachable (h : s.Live) : Lookahead.Reachable s.state := by
  obtain ⟨entry, frames⟩ := s
  induction frames with
  | nil => exact Lookahead.reachable_start h.entry
  | cons f frames ih =>
      have hread := h.read f frames List.suffix_rfl
      have hbelow := ih (@Live.below _ [f] frames h rfl)
      cases (h.built : IsPath entry (f :: frames)) with
      | cons step _ _ =>
          show Lookahead.Reachable f.state
          rw [step]
          exact hbelow.goto hread

theorem Live.ordered (h : s.Live) : s.state.Ordered := h.reachable.ordered

theorem Live.canRead_of_calls {n : Nonterminal} (h : s.Live) (hn : s.state.Calls n) :
    s.state.canRead (.nonterminal n) = true :=
  h.ordered.toGrammatical.canRead_of_calls hn

/-- What a reduction takes off and puts in its place. -/
theorem Live.exists_reduce {t : Terminal} {p : Production} (h : s.Live)
    (hp : reduction? s.state t = some p) : ∃ read below, s.Completes p read below ∧
      (Stack.mk s.entry below).Calls p.head := by
  obtain ⟨entry, hentry, rfl⟩ := Option.map_eq_some_iff.mp hp
  obtain ⟨i, hi, hrest, place, rfl⟩ :=
    Lookahead.exists_of_mem_reductions (List.mem_of_find?_eq_some hentry)
  obtain ⟨read, below, hframes, hread, hcalls, -⟩ := IsPath.exists_calls h.built hi
  refine ⟨read, below, ⟨hread.mem_productionsOf, hframes, ?_⟩, hcalls⟩
  rw [hread.symbols, hrest, List.append_nil]

/-- A reduction keeps a stack live, or leaves the whole input and nothing to go on with. -/
theorem Live.reduce {t : Terminal} {p : Production} (h : s.Live)
    (hp : reduction? s.state t = some p) :
    (s.reduce p).Live ∨ (s.reduce p).state.items = [] := by
  obtain ⟨read, below, hcompletes, hcalls⟩ := h.exists_reduce hp
  have hlive := h.below hcompletes.frames
  rw [hcompletes.reduce]
  rcases hcalls with hcalls | ⟨hnil, hhead⟩
  · exact .inl (hlive.push (hlive.canRead_of_calls hcalls)
      (hlive.built.push_nonterminal p.head _))
  · refine .inr ?_
    rw [state_push, hhead]
    exact State.items_goto_entry hlive.ordered.toGrammatical h.entry

theorem reduction?_of_items_eq_nil {s : State} (h : s.items = []) (t : Terminal) :
    reduction? s t = none := by
  cases hp : reduction? s t with
  | none => rfl
  | some p =>
      obtain ⟨entry, hentry, -⟩ := Option.map_eq_some_iff.mp hp
      obtain ⟨i, hi, -⟩ := Lookahead.exists_of_mem_reductions (List.mem_of_find?_eq_some hentry)
      rw [h] at hi
      contradiction

theorem canRead_of_items_eq_nil {s : State} (h : s.items = []) (x : Symbol) :
    s.canRead x = false := by
  rw [State.canRead, h]
  rfl

theorem Live.settle (h : s.Live) (t : Terminal) :
    (s.settle t).Live ∨ (s.settle t).state.items = [] := by
  obtain ⟨load, hload⟩ : ∃ load, s.load ≤ load := ⟨_, Nat.le_refl _⟩
  induction load generalizing s with
  | zero =>
      cases hp : reduction? s.state t with
      | none =>
          rw [settle_of_none hp]
          exact .inl h
      | some p =>
          have hlt := load_reduce_lt h.built hp
          omega
  | succ load ih =>
      cases hread : s.state.canRead (.terminal t) with
      | true =>
          rw [settle_of_canRead hread]
          exact .inl h
      | false =>
          cases hp : reduction? s.state t with
          | none =>
              rw [settle_of_none hp]
              exact .inl h
          | some p =>
              have hlt := load_reduce_lt h.built hp
              rw [settle_of_reduction h.built hread hp]
              rcases h.reduce hp with hlive | hnil
              · exact ih hlive (by omega)
              · rw [settle_of_none (reduction?_of_items_eq_nil hnil t)]
                exact .inr hnil

theorem Live.settle_of_canRead {t : Terminal} (h : s.Live)
    (hread : (s.settle t).state.canRead (.terminal t) = true) : (s.settle t).Live := by
  refine (h.settle t).resolve_right fun hnil => ?_
  rw [canRead_of_items_eq_nil hnil] at hread
  contradiction

theorem Live.feed {s' : Stack} {l : Lexeme Terminal} (h : s.Live) (hfeed : s.feed l = .ok s') :
    s'.Live := by
  obtain ⟨hread, rfl⟩ := feed_eq_ok_iff.mp hfeed
  have hlive := h.settle_of_canRead hread
  exact hlive.push hread (hlive.built.push_leaf l)

theorem Live.feedAll {s' : Stack} {ls : List (Lexeme Terminal)} (h : s.Live)
    (hfeed : feedAll s ls = .ok s') : s'.Live := by
  induction ls generalizing s with
  | nil =>
      cases hfeed
      exact h
  | cons l ls ih =>
      obtain ⟨t, ht, hfeed⟩ := feedAll_cons_eq_ok hfeed
      exact ih (h.feed ht) hfeed

end Stack

theorem Steps.live {p q : Progress} {l : Lexeme Terminal} (h : Steps p l q) (hp : p.stack.Live) :
    q.stack.Live := by
  obtain ⟨behind, -, hread⟩ := h
  obtain ⟨stack, layout, hfeed, -, rfl⟩ := read_eq_ok_iff.mp hread
  exact hp.feedAll hfeed

end Parser

end SyntaxTriage
