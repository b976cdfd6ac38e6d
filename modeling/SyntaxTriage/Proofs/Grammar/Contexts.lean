import SyntaxTriage.Proofs.Grammar.Tables

/-!
What the tables of calls say. A state that calls for a nonterminal is covered by the context of the
nonterminal, and so are the states behind what has been read of a production. Behind a brief text the
terminal that comes next is a wanted one, and in front of it the production is finished.
-/

namespace SyntaxTriage

open Grammar

-- the tables are large, and nothing here should compute them
attribute [local irreducible] reading finished completed offsets Grammar.opened behind followers
  heads wanted contexts briefs slot isSubset

/-- In front of the terminal there is nothing in the state but the item to reduce, which stands in
front of all others that the terminal may follow. -/
structure State.Finishes (s : State) (t : Terminal) (i : Item) : Prop where
  unread : s.canRead (.terminal t) = false
  first : ∀ j ∈ s.items, j.rest = [] → t ∈ follow j.head →
    i.number ≤ j.number ∧ (i.production.symbols = [] → j.number = i.number)

namespace Grammar

/-! ### Brief texts -/

/-- What comes next behind a nonterminal if the text there is brief. -/
def wantedBehind (n : Nonterminal) : TerminalSet := ⟨slot 128 wanted (Numbered.index n)⟩

/-- The items of all states that call for a nonterminal. -/
def contextOf (n : Nonterminal) : Nat := slot 2048 contexts (Numbered.index n)

/-- What comes next in front of brief texts of the symbols and the terminals. -/
def nextIn (symbols : List Symbol) (ends : TerminalSet) : TerminalSet :=
  ⟨headsIn heads ends.bits symbols⟩

theorem mem_nextIn {symbols : List Symbol} {ends : TerminalSet} {t : Terminal} :
    t ∈ nextIn symbols ends ↔
      (headsIn heads ends.bits symbols).testBit (Numbered.index t) = true := Iff.rfl

/-- The first of the terminals, or what comes behind them. -/
def nextOf (word : List Terminal) (behind : Terminal) : Terminal := word.head?.getD behind

@[simp] theorem nextOf_nil (behind : Terminal) : nextOf [] behind = behind := rfl

@[simp] theorem nextOf_cons (t : Terminal) (word : List Terminal) (behind : Terminal) :
    nextOf (t :: word) behind = t := rfl

theorem testBit_briefs {i : Item} {before : List Symbol} (hi : i.HasRead before)
    (hbrief : isBrief i.production before.length = true) : briefs.testBit i.number = true := by
  obtain ⟨later, hall⟩ := hi.exists_later
  have hgrow (set k number : Nat) (q : Production) (h : set.testBit k = true) :
      (foldNat (fun set count => if isBrief q count then setBit set (number + count) else set) set
        (List.range (q.symbols.length + 1))).testBit k = true := by
    refine testBit_foldNat_of_testBit (fun found count h => ?_) h
    split
    · rw [testBit_setBit, h, Bool.true_or]
    · exact h
  unfold briefs
  rw [hall]
  refine testBit_foldNumbered (fun table number q h => hgrow table _ number q h) fun table => ?_
  refine testBit_foldNat (x := before.length) (fun found count h => ?_) (fun found => ?_) ?_
  · split
    · rw [testBit_setBit, h, Bool.true_or]
    · exact h
  · rw [hbrief, if_pos rfl, Nat.zero_add, ← hi.number_eq, testBit_setBit, decide_eq_true rfl,
      Bool.or_true]
  · rw [List.mem_range, hi.symbols, List.length_append]
    omega

end Grammar

theorem Item.HasRead.check_calls {i : Item} {before : List Symbol} (hi : i.HasRead before) :
    (checkHeads (countItems i.earlier) i.production = true ∧
      checkCalls i.production (countItems i.earlier) 0 (contextOf i.head) i.production.symbols =
        true) ∧
      checkTexts i.production (wantedBehind i.head) (countItems i.earlier) i.production.symbols =
        true := by
  have hall := (Bool.and_eq_true_iff.mp allHeads_checkCalls).1
  have hhead := of_allHeads hall i.head
  rw [force_eq] at hhead
  have hchecked := hi.of_check hhead
  rw [Bool.and_eq_true_iff, Bool.and_eq_true_iff] at hchecked
  exact hchecked

namespace Grammar

section

variable {table ends k : Nat} {x : Symbol} {rest symbols : List Symbol} {t : Terminal}

theorem testBit_headsIn_of_head (h : (headsOf table x).testBit k = true)
    (hk : k ≠ Numbered.index Terminal.endOfInput) :
    (headsIn table ends (x :: rest)).testBit k = true := by
  rw [headsIn, force_eq]
  split
  · rw [force_eq, Nat.testBit_or, Nat.testBit_xor, h, endBit, Nat.one_shiftLeft,
      Nat.testBit_two_pow_of_ne hk.symm]
    rfl
  · exact h

theorem testBit_headsIn_of_rest
    (hx : (headsOf table x).testBit (Numbered.index Terminal.endOfInput) = true)
    (h : (headsIn table ends rest).testBit k = true) :
    (headsIn table ends (x :: rest)).testBit k = true := by
  rw [headsIn, force_eq, if_pos hx, force_eq, Nat.testBit_or, h, Bool.or_true]

theorem index_ne_of_isSpelled (ht : Grammar.isSpelled t = true) :
    Numbered.index t ≠ Numbered.index Terminal.endOfInput := by
  intro h
  rw [LawfulNumbered.index_inj h] at ht
  contradiction

/-- What comes next in front of a brief text. -/
theorem Expands.nextOf_mem {word : List Terminal} (h : Expands symbols word) {ends : TerminalSet}
    (ht : t ∈ ends) : nextOf word t ∈ nextIn symbols ends := by
  induction h generalizing t ends with
  | nil => exact ht
  | @terminal u rest word spelled _ _ =>
      refine testBit_headsIn_of_head ?_ (index_ne_of_isSpelled spelled)
      rw [nextOf_cons, headsOf, if_pos spelled, Nat.one_shiftLeft, Nat.testBit_two_pow_self]
  | @nonterminal n p rest word more mem brief parts _ ihparts ih =>
      -- the text of the nonterminal begins as the table of heads says, or there is none
      have hhead : (headsOf heads (.nonterminal n)).testBit
          (Numbered.index (nextOf word .endOfInput)) = true := by
        have hend : Terminal.endOfInput ∈ ({.endOfInput} : TerminalSet) :=
          BitSet.mem_singleton.mpr rfl
        obtain ⟨i, hi, rfl, rfl, -⟩ := exists_hasRead mem (List.nil_append p.symbols).symm
        have hcheck := hi.check_calls.1.1
        have hnumber : i.number = countItems i.earlier := hi.number_eq
        rw [checkHeads, ← hnumber, testBit_briefs hi brief] at hcheck
        exact testBit_of_isSubset hcheck (ihparts hend)
      cases word with
      | nil =>
          rw [nextOf_nil] at hhead
          rw [List.nil_append, mem_nextIn]
          exact testBit_headsIn_of_rest hhead (mem_nextIn.mp (ih ht))
      | cons u word =>
          rw [nextOf_cons] at hhead
          rw [List.cons_append, nextOf_cons, mem_nextIn]
          exact testBit_headsIn_of_head hhead
            (index_ne_of_isSpelled (parts.isSpelled u List.mem_cons_self))

end

/-! ### Calls -/

theorem of_checkCalls {p : Production} {number count set : Nat} {mid rest : List Symbol}
    {m : Nonterminal} (h : checkCalls p number count set (mid ++ .nonterminal m :: rest) = true) :
    isSubset (gotoAll set mid) (contextOf m) = true ∧
      (briefs.testBit (number + (count + mid.length + 1)) = true →
        ¬(count + mid.length = 0 ∧ m = p.head) →
        isSubset (nextIn rest (wantedBehind p.head)).bits (wantedBehind m).bits = true ∧
          (checkCall (contextOf m) (wantedBehind m).bits m = true ∨
            checkCall (gotoAll set mid) (nextIn rest (wantedBehind p.head)).bits m = true)) := by
  induction mid generalizing count set with
  | nil =>
      rw [List.nil_append, checkCalls, force_eq, force_eq] at h
      obtain ⟨h, -⟩ := Bool.and_eq_true_iff.mp h
      obtain ⟨hcontext, h⟩ := Bool.and_eq_true_iff.mp h
      refine ⟨hcontext, fun hbrief hrec => ?_⟩
      have hrec : decide (count = 0 ∧ m = p.head) = false := decide_eq_false hrec
      rw [List.length_nil, Nat.add_zero] at hbrief
      rw [hbrief, hrec, isUniform, force_eq, force_eq] at h
      exact (Bool.and_eq_true_iff.mp h).imp_right Bool.or_eq_true_iff.mp
  | cons x mid ih =>
      rw [gotoAll, foldNat_cons, ← gotoAll, List.length_cons, Nat.add_comm mid.length,
        ← Nat.add_assoc count]
      cases x with
      | terminal t => exact ih h
      | nonterminal n =>
          rw [List.cons_append, checkCalls, force_eq] at h
          exact ih (Bool.and_eq_true_iff.mp h).2

theorem of_finishes {set ends unread number : Nat} {p : Production} {before after : List Production}
    (h : finishes set ends unread number (before ++ p :: after) = true) :
    gotoAll set p.symbols &&& unread = 0 ∧
      (gotoAll set p.symbols &&& completed =
          1 <<< (number + countItems before + p.symbols.length) ∨
        isFirst (number + countItems before + p.symbols.length) p.symbols.isEmpty
          (gotoAll set p.symbols &&& completed &&& finishedAny ends) = true) := by
  induction before generalizing number with
  | nil =>
      rw [List.nil_append, finishes] at h
      simp only [force_eq] at h
      obtain ⟨h, -⟩ := Bool.and_eq_true_iff.mp h
      obtain ⟨hunread, h⟩ := Bool.and_eq_true_iff.mp h
      refine ⟨of_decide_eq_true hunread, ?_⟩
      exact (Bool.or_eq_true_iff.mp h).imp_left of_decide_eq_true
  | cons q before ih =>
      rw [List.cons_append, finishes] at h
      simp only [force_eq] at h
      have h := ih (Bool.and_eq_true_iff.mp h).2
      rw [countItems_cons, ← Nat.add_assoc number, ← Nat.add_assoc number]
      exact h

theorem testBit_readingAny {ends k : Nat} {t : Terminal}
    (ht : ends.testBit (Numbered.index t) = true)
    (hk : (slot 2048 reading (Symbol.terminal t).index).testBit k = true) :
    (readingAny ends).testBit k = true := by
  refine testBit_foldNat (fun found u h => ?_) (fun found => ?_) (LawfulNumbered.mem_all t)
  · cases hasBit ends (Numbered.index u) with
    | true => exact (Nat.testBit_or ..).trans (by rw [h, Bool.true_or])
    | false => exact h
  · rw [hasBit_eq, ht]
    exact (Nat.testBit_or ..).trans (by rw [hk, Bool.or_true])

theorem testBit_finishedAny {ends k : Nat} {t : Terminal} {n : Nonterminal}
    (ht : ends.testBit (Numbered.index t) = true) (hn : t ∈ follow n)
    (hk : (slot 2048 finished (Numbered.index n)).testBit k = true) :
    (finishedAny ends).testBit k = true := by
  refine testBit_foldNat (fun found u h => ?_) (fun found => ?_) (LawfulNumbered.mem_all n)
  · cases ((slot 128 followers (Numbered.index u)).land ends).beq 0 with
    | true => exact h
    | false => exact (Nat.testBit_or ..).trans (by rw [h, Bool.true_or])
  · have hn : (slot 128 followers (Numbered.index n)).testBit (Numbered.index t) = true := hn
    rw [beq_zero_land hn ht]
    exact (Nat.testBit_or ..).trans (by rw [hk, Bool.or_true])

theorem eq_or_le_of_isFirst {own set k : Nat} {empty : Bool} (h : isFirst own empty set = true)
    (hk : set.testBit k = true) : own ≤ k ∧ (empty = true → k = own) := by
  unfold isFirst at h
  split at h
  · have hbit := testBit_of_isSubset h hk
    rw [Nat.one_shiftLeft, Nat.testBit_two_pow] at hbit
    have hown : own = k := of_decide_eq_true hbit
    exact ⟨hown.le, fun _ => hown.symm⟩
  · rename_i hempty
    refine ⟨?_, fun h => absurd h hempty⟩
    by_contra hlt
    have hbit := congrArg (Nat.testBit · k) (of_decide_eq_true h)
    simp [Nat.testBit_mod_two_pow, hk, Nat.lt_of_not_le hlt] at hbit

end Grammar

namespace State

theorem IsIn.finishes {s : State} {set ends : Nat} {t : Terminal} {i : Item} (h : s.IsIn set)
    (hs : s.Grammatical) (hcheck : checkCall set ends i.head = true)
    (ht : ends.testBit (Numbered.index t) = true) (hi : i.HasRead i.production.symbols) :
    (i.production.symbols.foldl State.goto s).Finishes t i := by
  rw [checkCall, force_eq, slot_offsets, hi.productionsOf_split] at hcheck
  obtain ⟨hunread, hfirst⟩ := of_finishes hcheck
  have hown : firstNumber i.head + countItems ((productionsOf i.head).take i.choice) +
      i.production.symbols.length = i.number := by
    rw [hi.number_eq, Item.earlier, countItems_append]
    rfl
  rw [hown] at hfirst
  have hin := (h.gotoAll hs i.production.symbols).testBit
  constructor
  · rw [← Bool.not_eq_true, canRead_iff]
    rintro ⟨j, hj, rest, hrest⟩
    obtain ⟨before, hread⟩ := (hs.gotoAll i.production.symbols).items j hj
    have hbit := congrArg (Nat.testBit · j.number) hunread
    simp [hin j hj, testBit_readingAny ht (hread.testBit_reading hrest)] at hbit
  · intro j hj hrest hfollow
    obtain ⟨before, hread⟩ := (hs.gotoAll i.production.symbols).items j hj
    obtain ⟨hcompleted, hfinished⟩ := hread.check_finished hrest
    rcases hfirst with hsingle | hfirst
    · have hbit := congrArg (Nat.testBit · j.number) hsingle
      simp only [Nat.testBit_and, hin j hj, hcompleted, Nat.one_shiftLeft, Nat.testBit_two_pow,
        Bool.and_self] at hbit
      have heq := of_decide_eq_true hbit.symm
      exact ⟨heq.le, fun _ => heq.symm⟩
    · have hbit : (Grammar.gotoAll set i.production.symbols &&& completed &&&
          finishedAny ends).testBit j.number = true := by
        rw [Nat.testBit_and, Nat.testBit_and, hin j hj, hcompleted,
          testBit_finishedAny ht hfollow hfinished]
        rfl
      obtain ⟨hle, hempty⟩ := eq_or_le_of_isFirst hfirst hbit
      exact ⟨hle, fun h => hempty (List.isEmpty_iff.mpr h)⟩

/-- What a state behind the beginning of an item calls for. -/
theorem IsIn.called {s : State} {i : Item} {before rest : List Symbol} {m : Nonterminal}
    (h : s.IsIn (contextOf i.head)) (hs : s.Grammatical) (hi : i.HasRead before)
    (hrest : i.rest = .nonterminal m :: rest) :
    (before.foldl State.goto s).IsIn (contextOf m) ∧
      (isBrief i.production (before.length + 1) = true → ¬(before = [] ∧ m = i.head) →
        ∀ t ∈ nextIn rest (wantedBehind i.head), t ∈ wantedBehind m ∧
          ∀ j : Item, j.head = m → j.HasRead j.production.symbols →
            (j.production.symbols.foldl State.goto (before.foldl State.goto s)).Finishes t j) := by
  have hcheck := hi.check_calls.1.2
  rw [hi.symbols, hrest] at hcheck
  obtain ⟨hcontext, hcalls⟩ := of_checkCalls hcheck
  refine ⟨(h.gotoAll hs before).mono hcontext, fun hbrief hrec t ht => ?_⟩
  have hbit : briefs.testBit (countItems i.earlier + (0 + before.length + 1)) = true := by
    have hadvance : i.advance? (.nonterminal m) = some { i with rest } :=
      Item.advance?_eq_some_iff.mpr ⟨hrest, rfl⟩
    have hnext := testBit_briefs (hi.advance hadvance)
      (by rw [List.length_append]; exact hbrief)
    rw [hi.number_advance hadvance, hi.number_eq] at hnext
    rwa [Nat.zero_add, ← Nat.add_assoc]
  obtain ⟨hwanted, hcall⟩ := hcalls hbit fun ⟨hlength, hm⟩ =>
    hrec ⟨List.eq_nil_of_length_eq_zero (by omega), hm⟩
  have hin := h.gotoAll hs before
  have hm := testBit_of_isSubset hwanted ht
  refine ⟨hm, ?_⟩
  rintro j rfl hj
  rcases hcall with hcall | hcall
  · exact (hin.mono hcontext).finishes (hs.gotoAll before) hcall hm hj
  · exact hin.finishes (hs.gotoAll before) hcall ht hj

section

variable {entry : Nonterminal}

theorem checkEntry_of_mem (h : entry ∈ Lookahead.entries) :
    isSubset (slot 2048 Grammar.opened (Symbol.nonterminal entry).index) (contextOf entry) = true ∧
      isSubset endBit (wantedBehind entry).bits = true ∧
        checkCall (contextOf entry) endBit entry = true := by
  have hcheck := List.all_eq_true.mp (Bool.and_eq_true_iff.mp allHeads_checkCalls).2 entry h
  rw [checkEntry, force_eq] at hcheck
  obtain ⟨hcheck, hcall⟩ := Bool.and_eq_true_iff.mp hcheck
  obtain ⟨hcontext, hwanted⟩ := Bool.and_eq_true_iff.mp hcheck
  exact ⟨hcontext, hwanted, hcall⟩

theorem isIn_contextOf_start (h : entry ∈ Lookahead.entries) :
    (start entry).IsIn (contextOf entry) :=
  isIn_start.mono (checkEntry_of_mem h).1

theorem testBit_endBit : endBit.testBit (Numbered.index Terminal.endOfInput) = true := by
  rw [endBit, Nat.one_shiftLeft, Nat.testBit_two_pow_self]

/-- Behind a whole input its end is wanted. -/
theorem endOfInput_mem_wantedBehind (h : entry ∈ Lookahead.entries) :
    Terminal.endOfInput ∈ wantedBehind entry :=
  testBit_of_isSubset (checkEntry_of_mem h).2.1 testBit_endBit

/-- In front of the end of the input a whole input is finished. -/
theorem finishes_start (h : entry ∈ Lookahead.entries) {i : Item} (hhead : i.head = entry)
    (hi : i.HasRead i.production.symbols) :
    (i.production.symbols.foldl State.goto (start entry)).Finishes .endOfInput i := by
  subst hhead
  exact (isIn_contextOf_start h).finishes (grammatical_start _) (checkEntry_of_mem h).2.2
    testBit_endBit hi

end

end State

end SyntaxTriage
