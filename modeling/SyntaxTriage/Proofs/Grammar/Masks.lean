import SyntaxTriage.Proofs.Grammar.Follow
import SyntaxTriage.Proofs.Grammar.ItemNumbers

/-!
Sets of items as numbers. A number whose bits are the numbers of items stands for all states whose
items are among them, and moving the dots of all items at once is a shift. What reading a symbol
makes of a state is covered by what the same symbol makes of the number.
-/

namespace SyntaxTriage

namespace Grammar

/-! ### Numbered productions -/

/-- Folds the productions, each with the number of its first item. -/
def foldNumbered (f : (table number : Nat) → Production → Nat) :
    (table number : Nat) → List Production → Nat
  | table, _, [] => table
  | table, number, p :: ps =>
    force (f table number p) fun table =>
    force (number + (p.symbols.length + 1)) fun number => foldNumbered f table number ps

/-- Whether a check holds of all productions, each with the number of its first item. -/
def allNumbered (check : (number : Nat) → Production → Bool) :
    (number : Nat) → List Production → Bool
  | _, [] => true
  | number, p :: ps => check number p &&
    force (number + (p.symbols.length + 1)) fun number => allNumbered check number ps

/-- Whether a check holds of all nonterminals, each with the number of its first item. -/
def allHeads (check : (number : Nat) → Nonterminal → Bool) :
    (number : Nat) → List Nonterminal → Bool
  | _, [] => true
  | number, n :: ns => check number n &&
    force (number + countItems (productionsOf n)) fun number => allHeads check number ns

theorem of_allNumbered {check : Nat → Production → Bool} {number : Nat} {p : Production}
    {before after : List Production}
    (h : allNumbered check number (before ++ p :: after) = true) :
    check (number + countItems before) p = true := by
  induction before generalizing number with
  | nil => exact (Bool.and_eq_true_iff.mp h).1
  | cons q before ih =>
      have h := (Bool.and_eq_true_iff.mp h).2
      rw [force_eq] at h
      rw [countItems_cons, ← Nat.add_assoc]
      exact ih h

/-- What one production adds is in the result, if none takes anything away. -/
theorem testBit_foldNumbered {f : Nat → Nat → Production → Nat} {k : Nat} {p : Production}
    {before after : List Production} {table number : Nat}
    (grow : ∀ table number q, table.testBit k = true → (f table number q).testBit k = true)
    (step : ∀ table, (f table (number + countItems before) p).testBit k = true) :
    (foldNumbered f table number (before ++ p :: after)).testBit k = true := by
  have hgrow (qs : List Production) (table number : Nat) (h : table.testBit k = true) :
      (foldNumbered f table number qs).testBit k = true := by
    induction qs generalizing table number with
    | nil => exact h
    | cons q qs ih =>
        rw [foldNumbered, force_eq, force_eq]
        exact ih _ _ (grow table number q h)
  induction before generalizing table number with
  | nil =>
      rw [List.nil_append, foldNumbered, force_eq, force_eq]
      exact hgrow after _ _ (step table)
  | cons q before ih =>
      rw [List.cons_append, foldNumbered, force_eq, force_eq]
      refine ih fun table => ?_
      rw [Nat.add_assoc, ← countItems_cons]
      exact step table

/-- The number of the first item of a nonterminal. -/
def firstNumber (n : Nonterminal) : Nat :=
  countItems ((Nonterminal.all.take (Numbered.index n)).flatMap productionsOf)

theorem of_allHeads {check : Nat → Nonterminal → Bool} (h : allHeads check 0 Nonterminal.all = true)
    (n : Nonterminal) : check (firstNumber n) n = true := by
  suffices ∀ (before after : List Nonterminal) (number : Nat),
      allHeads check number (before ++ n :: after) = true →
        check (number + countItems (before.flatMap productionsOf)) n = true by
    obtain ⟨later, hall⟩ := all_split n
    rw [hall] at h
    have hcheck := this _ _ 0 h
    rwa [Nat.zero_add] at hcheck
  intro before after
  induction before with
  | nil => exact fun number h => (Bool.and_eq_true_iff.mp h).1
  | cons m before ih =>
      intro number h
      have h := (Bool.and_eq_true_iff.mp h).2
      rw [force_eq] at h
      rw [List.flatMap_cons, countItems_append, ← Nat.add_assoc]
      exact ih _ h

end Grammar

open Grammar

/-- What has been checked of all productions holds of the production of an item, with the number of
the item that has read nothing of it. -/
theorem Item.HasRead.of_check {check : Nat → Production → Bool} {i : Item} {before : List Symbol}
    (hi : i.HasRead before)
    (h : allNumbered check (firstNumber i.head) (productionsOf i.head) = true) :
    check (countItems i.earlier) i.production = true := by
  rw [hi.productionsOf_split] at h
  rw [Item.earlier, countItems_append]
  exact of_allNumbered h

namespace Grammar

/-! ### Tables of items -/

/-- Adds a number to a set. -/
def setBit (set place : Nat) : Nat := set.lor (Nat.shiftLeft 1 place)

theorem testBit_setBit {set place k : Nat} :
    (setBit set place).testBit k = (set.testBit k || decide (place = k)) := by
  rw [← Nat.testBit_two_pow, ← Nat.one_shiftLeft]
  exact Nat.testBit_or ..

/-- Notes where the dot stands before each of the symbols. -/
def readingIn : (table number : Nat) → List Symbol → Nat
  | table, _, [] => table
  | table, number, x :: rest =>
    force (setBit table (2048 * x.index + number)) fun table => readingIn table (number + 1) rest

/-- For each symbol the items with the dot before it. -/
def reading : Nat :=
  foldNumbered (fun table number p => readingIn table number p.symbols) 0 0 allProductions

/-- For each nonterminal the items with all read. -/
def finished : Nat :=
  foldNumbered (fun table number p =>
    setBit table (2048 * Numbered.index p.head + (number + p.symbols.length))) 0 0 allProductions

/-- The items with all read. -/
def completed : Nat :=
  foldNumbered (fun set number p => setBit set (number + p.symbols.length)) 0 0 allProductions

def offsetsFrom : (table number : Nat) → List Nonterminal → Nat
  | table, _, [] => table
  | table, number, n :: ns =>
    force (table ||| number <<< (16 * Numbered.index n)) fun table =>
    force (number + countItems (productionsOf n)) fun number => offsetsFrom table number ns

/-- The number of the first item of each nonterminal. -/
def offsets : Nat := offsetsFrom 0 0 Nonterminal.all

/-- Adds what the nonterminals open that a nonterminal begins with. -/
def openedFrom (table : Nat) (n : Nonterminal) : Nat :=
  force (foldNat (fun found p =>
      match p.symbols with
      | .nonterminal m :: _ => found ||| slot 2048 table (Symbol.nonterminal m).index
      | _ => found) 0 (productionsOf n)) fun new =>
    table ||| new <<< (2048 * (Symbol.nonterminal n).index)

/-- For each nonterminal the items with nothing read that a dot before it opens. -/
def opened : Nat :=
  rounds (fun table => foldNat openedFrom table Nonterminal.all.reverse) 178
    (foldNumbered (fun table number p =>
      setBit table (2048 * (Symbol.nonterminal p.head).index + number)) 0 0 allProductions)

/-- The numbers, each below `2 ^ 9`, that another number packs. -/
def unpack : (fuel : Nat) → Nat → List Nat
  | 0, _ => []
  | fuel + 1, n => if n = 0 then [] else force (n % 512) fun d => d :: unpack fuel (n / 512)

def behindIn : (table : Nat) → List Symbol → Nat
  | table, x :: .nonterminal n :: rest =>
    force (slot 1024 table x.index) fun old =>
    force (Symbol.nonterminal n).index fun k =>
    if k ∈ unpack 100 old then behindIn table (.nonterminal n :: rest)
    else
      force (table - (old <<< (1024 * x.index)) + ((old * 512 + k) <<< (1024 * x.index)))
        fun table => behindIn table (.nonterminal n :: rest)
  | table, _ :: rest => behindIn table rest
  | table, [] => table

/-- For each symbol the nonterminals that may come right behind it. -/
def behind : Nat := foldNat (fun table p => behindIn table p.symbols) 0 allProductions

/-! ### Reading -/

/-- Adds what the nonterminals open, if some dot stands before them. -/
def openAll (kernel : Nat) (ks : List Nat) (set : Nat) : Nat :=
  foldNat (fun set k =>
    bif (kernel.land (slot 2048 reading k)).beq 0 then set else set.lor (slot 2048 opened k)) set ks

/-- The items behind one more symbol. -/
def gotoSet (set : Nat) (x : Symbol) : Nat :=
  force x.index fun k =>
  force ((set.land (slot 2048 reading k)).shiftLeft 1) fun kernel =>
  openAll kernel (unpack 100 (slot 1024 behind k)) kernel

/-- The items behind more symbols. -/
def gotoAll (set : Nat) (symbols : List Symbol) : Nat :=
  foldNat gotoSet set symbols

/-! ### Checks -/

/-- Whether the tables take account of the symbols behind a dot. -/
def checkSymbols : (number : Nat) → List Symbol → Bool
  | _, [] => true
  | number, x :: rest =>
    (slot 2048 reading x.index).testBit number &&
      (match rest with
        | .nonterminal n :: _ =>
          decide ((Symbol.nonterminal n).index ∈ unpack 100 (slot 1024 behind x.index))
        | _ => true) &&
      force (number + 1) fun number => checkSymbols number rest

/-- Whether the tables take account of a production. -/
def checkProduction (number : Nat) (p : Production) : Bool :=
  checkSymbols number p.symbols &&
    force (number + p.symbols.length) fun last =>
      completed.testBit last && (slot 2048 finished (Numbered.index p.head)).testBit last &&
      force (slot 2048 opened (Symbol.nonterminal p.head).index) fun items =>
        items.testBit number &&
          match p.symbols with
          | .nonterminal m :: _ => isSubset (slot 2048 opened (Symbol.nonterminal m).index) items
          | _ => true

theorem of_checkSymbols {number : Nat} {before rest : List Symbol} {x : Symbol}
    (h : checkSymbols number (before ++ x :: rest) = true) :
    (slot 2048 reading x.index).testBit (number + before.length) = true ∧
      ∀ n after, rest = .nonterminal n :: after →
        (Symbol.nonterminal n).index ∈ unpack 100 (slot 1024 behind x.index) := by
  induction before generalizing number with
  | nil =>
      obtain ⟨h, -⟩ := Bool.and_eq_true_iff.mp h
      obtain ⟨hreading, hbehind⟩ := Bool.and_eq_true_iff.mp h
      refine ⟨hreading, ?_⟩
      rintro n after rfl
      exact of_decide_eq_true hbehind
  | cons y before ih =>
      have h := (Bool.and_eq_true_iff.mp h).2
      rw [force_eq] at h
      rw [List.length_cons, Nat.add_comm before.length, ← Nat.add_assoc]
      exact ih h

theorem allNumbered_checkProduction :
    allHeads (fun number n => decide (slot 16 offsets (Numbered.index n) = number) &&
      allNumbered checkProduction number (productionsOf n)) 0 Nonterminal.all = true := by
  decide +kernel

attribute [local irreducible] offsets in
theorem slot_offsets (n : Nonterminal) : slot 16 offsets (Numbered.index n) = firstNumber n :=
  of_decide_eq_true
    (Bool.and_eq_true_iff.mp (of_allHeads allNumbered_checkProduction n)).1

end Grammar

-- the tables are large, and nothing here should compute them
attribute [local irreducible] reading finished completed offsets Grammar.opened behind

/-- The set holds the numbers of all items of the state. -/
structure State.IsIn (s : State) (set : Nat) : Prop where
  testBit : ∀ i ∈ s.items, set.testBit i.number = true

namespace Item

/-! ### Sets of items -/

variable {i j : Item} {before rest : List Symbol} {x : Symbol} {n : Nonterminal}

theorem HasRead.check (h : i.HasRead before) :
    checkProduction (countItems i.earlier) i.production = true :=
  h.of_check (Bool.and_eq_true_iff.mp (of_allHeads allNumbered_checkProduction i.head)).2

theorem HasRead.testBit_reading (h : i.HasRead before) (hrest : i.rest = x :: rest) :
    (slot 2048 reading x.index).testBit i.number = true := by
  have hcheck := (Bool.and_eq_true_iff.mp h.check).1
  rw [h.symbols, hrest] at hcheck
  rw [h.number_eq]
  exact (of_checkSymbols hcheck).1

/-- What comes right behind a symbol is in its table. -/
theorem HasRead.mem_behind (h : i.HasRead (before ++ [x]))
    (hrest : i.rest = .nonterminal n :: rest) :
    (Symbol.nonterminal n).index ∈ unpack 100 (slot 1024 behind x.index) := by
  have hcheck := (Bool.and_eq_true_iff.mp h.check).1
  rw [h.symbols, hrest, List.append_assoc] at hcheck
  exact (of_checkSymbols hcheck).2 n rest rfl

theorem HasRead.check_finished (h : i.HasRead before) (hrest : i.rest = []) :
    completed.testBit i.number = true ∧
      (slot 2048 finished (Numbered.index i.head)).testBit i.number = true := by
  have hcheck := (Bool.and_eq_true_iff.mp h.check).2
  rw [force_eq] at hcheck
  have hcheck := (Bool.and_eq_true_iff.mp hcheck).1
  rw [h.number_eq]
  rw [h.symbols, hrest, List.append_nil] at hcheck
  exact Bool.and_eq_true_iff.mp hcheck

theorem HasRead.check_opened (h : i.HasRead before) :
    (slot 2048 Grammar.opened (Symbol.nonterminal i.head).index).testBit (countItems i.earlier) =
        true ∧
      ∀ m rest, i.production.symbols = .nonterminal m :: rest →
        isSubset (slot 2048 Grammar.opened (Symbol.nonterminal m).index)
          (slot 2048 Grammar.opened (Symbol.nonterminal i.head).index) = true := by
  have hcheck := (Bool.and_eq_true_iff.mp h.check).2
  rw [force_eq] at hcheck
  have hcheck := (Bool.and_eq_true_iff.mp hcheck).2
  rw [force_eq] at hcheck
  obtain ⟨hinitial, hcheck⟩ := Bool.and_eq_true_iff.mp hcheck
  refine ⟨hinitial, fun m rest hsymbols => ?_⟩
  rw [hsymbols] at hcheck
  exact hcheck

theorem HasRead.testBit_opened (h : i.HasRead []) :
    (slot 2048 Grammar.opened (Symbol.nonterminal i.head).index).testBit i.number = true := by
  rw [h.number_eq, List.length_nil, Nat.add_zero]
  exact h.check_opened.1

end Item

namespace Grammar

theorem isSubset_opened {n m : Nonterminal} {p : Production} {rest : List Symbol}
    (hp : p ∈ productionsOf n) (hsymbols : p.symbols = .nonterminal m :: rest) :
    isSubset (slot 2048 opened (Symbol.nonterminal m).index)
      (slot 2048 opened (Symbol.nonterminal n).index) = true := by
  obtain ⟨i, hi, rfl, rfl, -⟩ := exists_hasRead hp (List.nil_append p.symbols).symm
  exact hi.check_opened.2 m rest hsymbols

/-- What is in a set stays in it when more is opened. -/
theorem testBit_openAll_of_testBit {kernel set k : Nat} {ks : List Nat} (h : set.testBit k = true) :
    (openAll kernel ks set).testBit k = true := by
  refine testBit_foldNat_of_testBit (fun set l h => ?_) h
  cases (kernel.land (slot 2048 reading l)).beq 0 with
  | true => exact h
  | false => exact (Nat.testBit_or ..).trans (by rw [h, Bool.true_or])

/-- What a nonterminal opens is added if an item stands before it. -/
theorem testBit_openAll {kernel set k b c : Nat} {ks : List Nat} (hk : k ∈ ks)
    (hkernel : kernel.testBit b = true) (hreading : (slot 2048 reading k).testBit b = true)
    (hc : (slot 2048 opened k).testBit c = true) : (openAll kernel ks set).testBit c = true := by
  refine testBit_foldNat (fun set l h => ?_) (fun set => ?_) hk
  · cases (kernel.land (slot 2048 reading l)).beq 0 with
    | true => exact h
    | false => exact (Nat.testBit_or ..).trans (by rw [h, Bool.true_or])
  · rw [beq_zero_land hkernel hreading]
    exact (Nat.testBit_or ..).trans (by rw [hc, Bool.or_true])

end Grammar

namespace State

theorem IsIn.mono {s : State} {set set' : Nat} (h : s.IsIn set) (hsub : isSubset set set' = true) :
    s.IsIn set' := ⟨fun i hi => testBit_of_isSubset hsub (h.testBit i hi)⟩

/-- What is opened for an item in a set is in it, if everything is that opens for the nonterminals
that the kernel calls for. -/
theorem Grammatical.isIn {s : State} {set : Nat} (hs : s.Grammatical)
    (hkernel : ∀ i ∈ s.kernel, set.testBit i.number = true)
    (hcalled : ∀ i ∈ s.kernel, ∀ n rest, i.rest = .nonterminal n :: rest →
      ∀ k, (slot 2048 Grammar.opened (Symbol.nonterminal n).index).testBit k = true →
        set.testBit k = true) : s.IsIn set := by
  have hcalls {n : Nonterminal} (hn : s.Calls n) :
      ∀ k, (slot 2048 Grammar.opened (Symbol.nonterminal n).index).testBit k = true →
        set.testBit k = true := by
    induction hn with
    | kernel mem rest => exact hcalled _ mem _ _ rest
    | opened _ mem symbols ih =>
        exact fun k hk => ih k (testBit_of_isSubset (isSubset_opened mem symbols) hk)
  refine ⟨fun i hi => ?_⟩
  rcases List.mem_append.mp hi with hi | hi
  · exact hkernel i hi
  · obtain ⟨hread, hi⟩ := hs.mem_opened.mp hi
    exact hcalls hi _ hread.testBit_opened

/-- Reading a symbol makes of a state what it makes of the set. -/
theorem IsIn.goto {s : State} {set : Nat} (h : s.IsIn set) (hs : s.Grammatical) (x : Symbol) :
    (s.goto x).IsIn (gotoSet set x) := by
  have hkernel (j : Item) (hj : j ∈ (s.goto x).kernel) :
      ((set &&& slot 2048 reading x.index) <<< 1).testBit j.number = true ∧
        ∃ before, j.HasRead (before ++ [x]) := by
    obtain ⟨i, hi, hadvance⟩ := List.mem_filterMap.mp (Item.mem_sort.mp hj)
    obtain ⟨before, hread⟩ := hs.items i hi
    refine ⟨?_, before, hread.advance hadvance⟩
    rw [hread.number_advance hadvance, Nat.testBit_shiftLeft, Nat.add_sub_cancel, Nat.testBit_and,
      h.testBit i hi, hread.testBit_reading (Item.advance?_eq_some_iff.mp hadvance).1]
    simp
  rw [gotoSet]
  simp only [force_eq]
  refine (hs.goto x).isIn (fun j hj => testBit_openAll_of_testBit (hkernel j hj).1) ?_
  intro j hj n rest hrest k hk
  obtain ⟨hbit, before, hread⟩ := hkernel j hj
  exact testBit_openAll (hread.mem_behind hrest) hbit (hread.testBit_reading hrest) hk

theorem Grammatical.gotoAll {s : State} (h : s.Grammatical) (symbols : List Symbol) :
    (symbols.foldl State.goto s).Grammatical := by
  induction symbols generalizing s with
  | nil => exact h
  | cons x symbols ih => exact ih (h.goto x)

theorem IsIn.gotoAll {s : State} {set : Nat} (h : s.IsIn set) (hs : s.Grammatical)
    (symbols : List Symbol) : (symbols.foldl State.goto s).IsIn (gotoAll set symbols) := by
  induction symbols generalizing s set with
  | nil => exact h
  | cons x symbols ih =>
      rw [Grammar.gotoAll, foldNat_cons]
      exact ih (h.goto hs x) (hs.goto x)

/-- The state in which a nonterminal is still to be read holds what the nonterminal opens. -/
theorem isIn_start {entry : Nonterminal} :
    (start entry).IsIn (slot 2048 Grammar.opened (Symbol.nonterminal entry).index) := by
  refine (grammatical_start entry).isIn (fun i hi => ?_) fun i hi n rest hrest k hk => ?_
  · obtain ⟨rfl, hread⟩ := Item.mem_initialItems.mp hi
    exact hread.testBit_opened
  · obtain ⟨rfl, hread⟩ := Item.mem_initialItems.mp hi
    have hsymbols := hread.symbols
    rw [List.nil_append, hrest] at hsymbols
    exact testBit_of_isSubset (isSubset_opened hread.mem_productionsOf hsymbols) hk

end State

end SyntaxTriage
