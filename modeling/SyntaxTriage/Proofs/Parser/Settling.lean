import SyntaxTriage.Proofs.Grammar.Weights
import SyntaxTriage.Proofs.Parser.Reduction

/-!
Reductions come to an end before the bound on their number is used up. Every symbol has a weight,
less than those of the symbols that it may stand for together, and nothing is reduced to an empty
symbol on top of another one. So the weight of the stack falls with every reduction, and where a
reduction is asked for it is done: settling the stack goes on from what it leaves.
-/

namespace SyntaxTriage

open Grammar

-- the tables of the automaton are large, and nothing here should compute them
attribute [local irreducible] Lookahead.states Lookahead.sets

namespace State

theorem Calls.exists_mem_kernel {s : State} {n : Nonterminal} (h : s.Calls n) :
    ∃ i ∈ s.kernel, ∃ m rest, i.rest = .nonterminal m :: rest := by
  induction h with
  | kernel mem rest => exact ⟨_, mem, _, _, rest⟩
  | opened _ _ _ ih => exact ih

end State

namespace Parser

namespace Stack

theorem grammatical_state {s : Stack} (h : s.Built) : s.state.Grammatical := by
  obtain ⟨entry, frames⟩ := s
  replace h : IsPath entry frames := h
  induction h with
  | nil => exact State.grammatical_start entry
  | @cons f frames step _ _ ih =>
      show f.state.Grammatical
      rw [step]
      exact ih.goto f.symbol

/-- On top of a symbol that may be empty nothing is reduced to another one. -/
theorem symbols_ne_nil_of_isNullable {s : Stack} {f : Frame} {below : List Frame} {t : Terminal}
    {p : Production} (hs : s.Built) (hframes : s.frames = f :: below)
    (hf : isNullable f.symbol = true) (hp : reduction? s.state t = some p) : p.symbols ≠ [] := by
  intro hempty
  obtain ⟨entry, hentry, rfl⟩ := Option.map_eq_some_iff.mp hp
  obtain ⟨i, hi, hrest, place, rfl⟩ :=
    Lookahead.exists_of_mem_reductions (List.mem_of_find?_eq_some hentry)
  have hempty : i.production.symbols = [] := hempty
  -- items in the kernel have read the symbol on top
  have hkernel (j : Item) (hj : j ∈ s.state.kernel) :
      ∃ before, j.HasRead (before ++ [f.symbol]) := by
    obtain ⟨entry, frames⟩ := s
    cases hframes
    cases (hs : IsPath entry (f :: below)) with
    | cons step _ hbelow =>
        have hj : j ∈ f.state.kernel := hj
        rw [step] at hj
        obtain ⟨k, hk, hadvance⟩ := List.mem_filterMap.mp (Item.mem_sort.mp hj)
        obtain ⟨before, hread⟩ := (grammatical_state (s := ⟨entry, below⟩) hbelow).items k hk
        exact ⟨before, hread.advance hadvance⟩
  rcases List.mem_append.mp hi with hi | hi
  · obtain ⟨before, hread⟩ := hkernel i hi
    rw [hread.symbols] at hempty
    simp at hempty
  · obtain ⟨-, hcalls⟩ := (grammatical_state hs).mem_opened.mp hi
    obtain ⟨j, hj, m, rest, hjrest⟩ := hcalls.exists_mem_kernel
    obtain ⟨before, hread⟩ := hkernel j hj
    have hsymbols := hread.symbols
    rw [hjrest, List.append_assoc] at hsymbols
    have hno := not_isNullable_before hread.mem_productionsOf hsymbols
    rw [hf] at hno
    contradiction

/-! ### The weight of a stack -/

/-- The weight of the symbols, and one more unless the last symbol may be empty. -/
def load (s : Stack) : Nat :=
  2 * weightOf (s.frames.map Frame.symbol) +
    if (s.frames.head?.any fun f => isNullable f.symbol) then 0 else 1

theorem load_push (s : Stack) (x : Symbol) (trees : List Tree) :
    (s.push x trees).load =
      2 * (weight x + weightOf (s.frames.map Frame.symbol)) + if isNullable x then 0 else 1 := rfl

theorem weightOf_append (xs ys : List Symbol) : weightOf (xs ++ ys) = weightOf xs + weightOf ys := by
  rw [weightOf, weightOf, weightOf, List.map_append, List.sum_append]

theorem weightOf_reverse (xs : List Symbol) : weightOf xs.reverse = weightOf xs := by
  rw [weightOf, weightOf, List.map_reverse, List.sum_reverse]

/-- Every reduction makes the stack lighter. -/
theorem load_reduce_lt {s : Stack} {t : Terminal} {p : Production} (hs : s.Built)
    (hp : reduction? s.state t = some p) : (s.reduce p).load < s.load := by
  obtain ⟨read, below, hcompletes⟩ := hs.completes hp
  rw [hcompletes.reduce, load_push]
  have hread : weightOf (read.map Frame.symbol) = weightOf p.symbols := by
    rw [hcompletes.symbols, List.map_reverse, weightOf_reverse]
  have hload : s.load = 2 * (weightOf p.symbols + weightOf (below.map Frame.symbol)) +
      if (s.frames.head?.any fun f => isNullable f.symbol) then 0 else 1 := by
    rw [load, ← hread, ← weightOf_append, ← List.map_append, ← hcompletes.frames]
  show 2 * (_ + weightOf (below.map Frame.symbol)) + _ < _
  rw [hload]
  by_cases hsymbols : p.symbols = []
  · -- an empty symbol comes on top of one that is not
    have hnullable := isNullable_of_symbols hcompletes.grammatical (by rw [hsymbols]; rfl)
    have htop : (s.frames.head?.any fun f => isNullable f.symbol) = false := by
      cases hframes : s.frames with
      | nil => rfl
      | cons f below =>
          rw [List.head?_cons, Option.any_some, ← Bool.not_eq_true]
          exact fun hf => symbols_ne_nil_of_isNullable hs hframes hf hp hsymbols
    rw [weight_of_isNullable hnullable, hnullable, htop, hsymbols]
    simp [weightOf]
  · have hlt := weight_head_lt hcompletes.grammatical hsymbols
    split <;> split <;> omega

theorem load_le (s : Stack) : s.load ≤ s.reductionBound := by
  have hweight (frames : List Frame) :
      weightOf (frames.map Frame.symbol) ≤ frames.length * 100 := by
    induction frames with
    | nil => exact Nat.le_refl 0
    | cons f frames ih =>
        have hf := weight_le f.symbol
        rw [List.map_cons, weightOf, List.map_cons, List.sum_cons, ← weightOf, List.length_cons]
        omega
  have hframes := hweight s.frames
  rw [reductionBound, Nonterminal.length_all, load]
  split <;> omega

/-! ### Settled stacks -/

/-- Enough fuel is as good as more. -/
theorem settleFrom_eq_of_load_le {t : Terminal} {s : Stack} {fuel fuel' : Nat} (hs : s.Built)
    (h : s.load ≤ fuel) (h' : s.load ≤ fuel') : settleFrom t fuel s = settleFrom t fuel' s := by
  induction fuel generalizing fuel' s with
  | zero =>
      -- nothing is left that could be reduced
      cases hread : s.state.canRead (.terminal t) with
      | true => rw [settleFrom_of_canRead _ hread, settleFrom_of_canRead _ hread]
      | false =>
          cases hp : reduction? s.state t with
          | none => rw [settleFrom_of_none _ hp, settleFrom_of_none _ hp]
          | some p =>
              have hlt := load_reduce_lt hs hp
              omega
  | succ fuel ih =>
      cases hread : s.state.canRead (.terminal t) with
      | true => rw [settleFrom_of_canRead _ hread, settleFrom_of_canRead _ hread]
      | false =>
          cases hp : reduction? s.state t with
          | none => rw [settleFrom_of_none _ hp, settleFrom_of_none _ hp]
          | some p =>
              have hlt := load_reduce_lt hs hp
              obtain ⟨fuel', rfl⟩ := Nat.exists_eq_add_one_of_ne_zero (n := fuel') (by omega)
              obtain ⟨read, below, hcompletes⟩ := hs.completes hp
              rw [settleFrom_of_reduction _ hread hp, settleFrom_of_reduction _ hread hp]
              exact ih (hcompletes.built hs) (by omega) (by omega)

/-- A reduction that is asked for is done. -/
theorem settle_of_reduction {t : Terminal} {s : Stack} {p : Production} (hs : s.Built)
    (hread : s.state.canRead (.terminal t) = false) (hp : reduction? s.state t = some p) :
    s.settle t = (s.reduce p).settle t := by
  have hlt := load_reduce_lt hs hp
  obtain ⟨read, below, hcompletes⟩ := hs.completes hp
  calc
    s.settle t = settleFrom t (s.load + 1) s :=
      settleFrom_eq_of_load_le hs s.load_le (Nat.le_succ _)
    _ = settleFrom t s.load (s.reduce p) := settleFrom_of_reduction _ hread hp
    _ = (s.reduce p).settle t :=
      settleFrom_eq_of_load_le (hcompletes.built hs) hlt.le (s.reduce p).load_le

theorem settle_of_canRead {t : Terminal} {s : Stack}
    (hread : s.state.canRead (.terminal t) = true) : s.settle t = s :=
  settleFrom_of_canRead _ hread

theorem settle_of_none {t : Terminal} {s : Stack} (hp : reduction? s.state t = none) :
    s.settle t = s :=
  settleFrom_of_none _ hp

/-- A settled stack can read the terminal, or has nothing to reduce in front of it. -/
theorem canRead_or_reduction?_settle {t : Terminal} {s : Stack} (hs : s.Built) :
    (s.settle t).state.canRead (.terminal t) = true ∨ reduction? (s.settle t).state t = none := by
  obtain ⟨load, hload⟩ : ∃ load, s.load ≤ load := ⟨_, Nat.le_refl _⟩
  induction load generalizing s with
  | zero =>
      cases hp : reduction? s.state t with
      | none =>
          rw [settle_of_none hp]
          exact .inr hp
      | some p =>
          have hlt := load_reduce_lt hs hp
          omega
  | succ load ih =>
      cases hread : s.state.canRead (.terminal t) with
      | true =>
          rw [settle_of_canRead hread]
          exact .inl hread
      | false =>
          cases hp : reduction? s.state t with
          | none =>
              rw [settle_of_none hp]
              exact .inr hp
          | some p =>
              have hlt := load_reduce_lt hs hp
              obtain ⟨read, below, hcompletes⟩ := hs.completes hp
              rw [settle_of_reduction hs hread hp]
              exact ih (hcompletes.built hs) (by omega)

end Stack

end Parser

end SyntaxTriage
