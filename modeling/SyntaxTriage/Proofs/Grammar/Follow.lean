import SyntaxTriage.Proofs.Grammar.Words

/-!
What may follow a nonterminal anywhere. The lookahead sets of all states are parts of one set for
each nonterminal. These sets are found by rounds over the productions; that they are large enough is
checked once, and nothing else about the rounds matters.
-/

namespace SyntaxTriage.Grammar

/-! ### Tables -/

/-- Goes on with a number when it has been worked out. -/
def force {β : Type} (n : Nat) (k : Nat → β) : β := Nat.rec (k 0) (fun m _ => k m.succ) n

@[simp] theorem force_eq {β : Type} (n : Nat) (k : Nat → β) : force n k = k n := by cases n <;> rfl

/-- A fold whose numbers are worked out one by one. -/
def foldNat {α : Type} (f : Nat → α → Nat) (found : Nat) (xs : List α) : Nat :=
  List.rec (fun found => found) (fun x _ next found => force (f found x) next) xs found

theorem foldNat_cons {α : Type} (f : Nat → α → Nat) (found : Nat) (x : α) (rest : List α) :
    foldNat f found (x :: rest) = foldNat f (f found x) rest := force_eq _ _

theorem testBit_foldNat_of_testBit {α : Type} {f : Nat → α → Nat} {k found : Nat} {xs : List α}
    (grow : ∀ found x, found.testBit k = true → (f found x).testBit k = true)
    (h : found.testBit k = true) : (foldNat f found xs).testBit k = true := by
  induction xs generalizing found with
  | nil => exact h
  | cons x xs ih =>
      rw [foldNat_cons]
      exact ih (grow found x h)

/-- What one step adds is in the result, if no step takes anything away. -/
theorem testBit_foldNat {α : Type} {f : Nat → α → Nat} {k found : Nat} {x : α} {xs : List α}
    (grow : ∀ found x, found.testBit k = true → (f found x).testBit k = true)
    (step : ∀ found, (f found x).testBit k = true) (hx : x ∈ xs) :
    (foldNat f found xs).testBit k = true := by
  induction xs generalizing found with
  | nil => contradiction
  | cons y xs ih =>
      rw [foldNat_cons]
      rcases List.mem_cons.mp hx with rfl | hx
      · exact testBit_foldNat_of_testBit grow (step found)
      · exact ih hx

/-- A number below `2 ^ width` in a table, which is a single number itself. -/
def slot (width table place : Nat) : Nat :=
  ((table.shiftRight (width.mul place))).mod (Nat.pow 2 width)

/-- Whether a number is in a set. -/
def hasBit (set place : Nat) : Bool := (Nat.land 1 (set.shiftRight place)).beq 1

@[simp] theorem hasBit_eq (set place : Nat) : hasBit set place = set.testBit place := by
  show (1 &&& set >>> place).beq 1 = (1 &&& set >>> place != 0)
  rw [Nat.and_comm, Nat.and_one_is_mod]
  rcases Nat.mod_two_eq_zero_or_one (set >>> place) with h | h <;> rw [h] <;> rfl

/-- Two sets with a common member do not seem disjoint. -/
theorem beq_zero_land {a b k : Nat} (ha : a.testBit k = true) (hb : b.testBit k = true) :
    (a.land b).beq 0 = false := by
  rw [← Bool.not_eq_true]
  intro hzero
  have hbit : (a &&& b).testBit k = (0).testBit k :=
    congrArg (Nat.testBit · k) (Nat.eq_of_beq_eq_true hzero)
  rw [Nat.testBit_and, ha, hb, Nat.zero_testBit] at hbit
  contradiction

/-- Repeats a step until it changes nothing; `fuel` bounds the number of rounds. -/
def rounds (step : Nat → Nat) : (fuel : Nat) → Nat → Nat
  | 0, table => table
  | fuel + 1, table => force (step table) fun next =>
    if next = table then table else rounds step fuel next

/-- Whether all members of one set are in another. -/
def isSubset (a b : Nat) : Bool := (a.lor b).beq b

theorem testBit_of_isSubset {a b k : Nat} (h : isSubset a b = true) (ha : a.testBit k = true) :
    b.testBit k = true := by
  rw [← Nat.eq_of_beq_eq_true h]
  exact (Nat.testBit_or a b k).trans (by rw [ha, Bool.true_or])

/-! ### Beginnings -/

/-- Sets of terminals, one for each nonterminal. -/
def terminalsIn (table : Nat) : Symbol → TerminalSet
  | .terminal t => {t}
  | .nonterminal n => ⟨slot 128 table (Numbered.index n)⟩

/-- What may come first in the symbols, up to the first one that cannot be empty. -/
def beginningIn (table : Nat) (symbols : List Symbol) : Nat :=
  foldNat (fun found x => found ||| (terminalsIn table x).bits) 0 (exposed symbols)

def beginningsFrom (table : Nat) (n : Nonterminal) : Nat :=
  table ||| (foldNat (fun found p => found ||| beginningIn table p.symbols) 0 (productionsOf n) <<<
    (128 * Numbered.index n))

/-- What the texts of each nonterminal may begin with. -/
def beginnings : Nat :=
  rounds (fun table => foldNat beginningsFrom table Nonterminal.all.reverse) 178 0

theorem mem_beginningIn {table : Nat} {symbols : List Symbol} {x : Symbol} {t : Terminal}
    (hx : x ∈ exposed symbols) (ht : t ∈ terminalsIn table x) :
    (beginningIn table symbols).testBit (Numbered.index t) = true := by
  have ht : (terminalsIn table x).bits.testBit (Numbered.index t) = true := ht
  refine testBit_foldNat (fun found y h => ?_) (fun found => ?_) hx
  · rw [Nat.testBit_or, h, Bool.true_or]
  · rw [Nat.testBit_or, ht, Bool.or_true]

/-! ### Followers -/

def followersFrom (begins : Nat) (n : Nonterminal) : (table : Nat) → List Symbol → Nat
  | table, .nonterminal m :: rest =>
    force (beginningIn begins rest |||
      if rest.all isNullable then slot 128 table (Numbered.index n) else 0) fun new =>
    force (table ||| (new <<< (128 * Numbered.index m))) fun table =>
    followersFrom begins n table rest
  | table, .terminal _ :: rest => followersFrom begins n table rest
  | table, [] => table

/-- What may follow each nonterminal. -/
def followers : Nat :=
  force beginnings fun begins =>
  rounds (fun table => foldNat (fun table n =>
      foldNat (fun table p => followersFrom begins n table p.symbols) table (productionsOf n))
    table Nonterminal.all) 178
    ((BitSet.ofList [Terminal.endOfInput]).bits |||
      ((BitSet.ofList [Terminal.endOfInput]).bits <<< 128))

/-- What may follow a nonterminal. -/
def follow (n : Nonterminal) : TerminalSet := terminalsIn followers (.nonterminal n)

/-- Whether a table of what follows takes account of a right-hand side. -/
def coversRest (begins ends : Nat) (n : Nonterminal) : List Symbol → Bool
  | .nonterminal m :: rest =>
    isSubset (beginningIn begins rest) (slot 128 ends (Numbered.index m)) &&
      (!rest.all isNullable ||
        isSubset (slot 128 ends (Numbered.index n)) (slot 128 ends (Numbered.index m))) &&
      coversRest begins ends n rest
  | .terminal _ :: rest => coversRest begins ends n rest
  | [] => true

/-- Whether tables of beginnings and of what follows are large enough. -/
def checkTables (begins ends : Nat) : Bool :=
  (Nonterminal.all.all fun n => (productionsOf n).all fun p =>
    isSubset (beginningIn begins p.symbols) (slot 128 begins (Numbered.index n)) &&
      coversRest begins ends n p.symbols) &&
  Lookahead.entries.all fun n =>
    (slot 128 ends (Numbered.index n)).testBit (Numbered.index Terminal.endOfInput)

theorem checkTables_followers : checkTables beginnings followers = true := by
  -- the tables are worked out once each
  have h : (force beginnings fun begins => force followers fun ends => checkTables begins ends) =
      true := by decide +kernel
  simpa only [force_eq] using h

/-! ### Lookahead sets -/

-- the tables are large, and nothing here should compute them
attribute [local irreducible] beginnings followers Lookahead.states Lookahead.sets

theorem mem_terminalsIn_beginnings {n : Nonterminal} {x : Symbol} {t : Terminal}
    (hx : x ∈ exposedIn n) (ht : t ∈ terminalsIn beginnings x) :
    t ∈ terminalsIn beginnings (.nonterminal n) := by
  obtain ⟨p, hp, hx⟩ := List.mem_flatMap.mp hx
  have hcheck := (Bool.and_eq_true_iff.mp checkTables_followers).1
  have hn := List.all_eq_true.mp (List.all_eq_true.mp hcheck n (LawfulNumbered.mem_all n)) p hp
  exact testBit_of_isSubset (Bool.and_eq_true_iff.mp hn).1 (mem_beginningIn hx ht)

/-- What the texts of a symbol may begin with is in the table. -/
theorem mem_terminalsIn_of_first {x : Symbol} {t : Terminal} (h : t ∈ first x) :
    t ∈ terminalsIn beginnings x := by
  cases x with
  | terminal u => exact h
  | nonterminal n =>
      obtain ⟨m, hlead, hm⟩ := mem_first_nonterminal.mp h
      induction hlead using Relation.ReflTransGen.head_induction_on with
      | refl => exact mem_terminalsIn_beginnings hm (BitSet.mem_singleton.mpr rfl)
      | head hstep hlead ih =>
          obtain ⟨x, hx, hxm⟩ := List.mem_filterMap.mp hstep
          cases x with
          | terminal u => cases hxm
          | nonterminal k =>
              cases hxm
              exact mem_terminalsIn_beginnings hx (ih (mem_first_nonterminal.mpr ⟨_, hlead, hm⟩))

theorem testBit_beginningIn {symbols : List Symbol} {t : Terminal} (h : t ∈ firstOf symbols) :
    (beginningIn beginnings symbols).testBit (Numbered.index t) = true := by
  obtain ⟨x, hx, ht⟩ := mem_firstOf.mp h
  exact mem_beginningIn hx (mem_terminalsIn_of_first ht)

theorem coversRest_append {begins ends : Nat} {n m : Nonterminal} {before after : List Symbol}
    (h : coversRest begins ends n (before ++ .nonterminal m :: after) = true) :
    isSubset (beginningIn begins after) (slot 128 ends (Numbered.index m)) = true ∧
      (after.all isNullable = true →
        isSubset (slot 128 ends (Numbered.index n)) (slot 128 ends (Numbered.index m)) = true) := by
  induction before with
  | nil =>
      obtain ⟨h, -⟩ := Bool.and_eq_true_iff.mp h
      obtain ⟨hbegin, hend⟩ := Bool.and_eq_true_iff.mp h
      refine ⟨hbegin, fun hnullable => ?_⟩
      rw [hnullable] at hend
      simpa using hend
  | cons x before ih =>
      cases x with
      | terminal t => exact ih h
      | nonterminal k => exact ih (Bool.and_eq_true_iff.mp h).2

section

variable {n m : Nonterminal} {p : Production} {before after : List Symbol} {t : Terminal}

theorem coversRest_followers (hp : p ∈ productionsOf n) :
    coversRest beginnings followers n p.symbols = true := by
  have hcheck := (Bool.and_eq_true_iff.mp checkTables_followers).1
  have hn := List.all_eq_true.mp (List.all_eq_true.mp hcheck n (LawfulNumbered.mem_all n)) p hp
  exact (Bool.and_eq_true_iff.mp hn).2

/-- What comes behind a nonterminal in a production may follow it. -/
theorem mem_follow_of_first (hp : p ∈ productionsOf n)
    (hsymbols : p.symbols = before ++ .nonterminal m :: after) (ht : t ∈ firstOf after) :
    t ∈ follow m := by
  have hcovers := coversRest_followers hp
  rw [hsymbols] at hcovers
  exact testBit_of_isSubset (coversRest_append hcovers).1 (testBit_beginningIn ht)

/-- What follows the head follows the last nonterminal, too. -/
theorem mem_follow_of_head (hp : p ∈ productionsOf n)
    (hsymbols : p.symbols = before ++ .nonterminal m :: after)
    (hnullable : after.all isNullable = true) (ht : t ∈ follow n) : t ∈ follow m := by
  have hcovers := coversRest_followers hp
  rw [hsymbols] at hcovers
  exact testBit_of_isSubset ((coversRest_append hcovers).2 hnullable) ht

theorem endOfInput_mem_follow (hn : n ∈ Lookahead.entries) : Terminal.endOfInput ∈ follow n :=
  List.all_eq_true.mp (Bool.and_eq_true_iff.mp checkTables_followers).2 n hn

end

end SyntaxTriage.Grammar

namespace SyntaxTriage.Lookahead

open Grammar

attribute [local irreducible] beginnings followers Lookahead.states Lookahead.sets follow

/-- The place of a set tells whose items it belongs to. -/
theorem getElem?_place {s : State} {i : Item} {place : List Nat} (h : (i, place) ∈ placed s) :
    i ∈ s.items ∧ place[1]? = some (Numbered.index i.head) := by
  rcases List.mem_append.mp h with h | h
  all_goals
    obtain ⟨j, hj, heq⟩ := List.mem_map.mp h
    cases heq
  · exact ⟨List.mem_append_left _ hj, rfl⟩
  · exact ⟨List.mem_append_right _ hj, rfl⟩

/-- A lookahead set holds only what may follow the nonterminal that it belongs to. -/
theorem mem_follow_of_mem_sets {t : Terminal} {place : List Nat} {n : Nonterminal}
    (h : t ∈ sets.getD place ∅) (hplace : place[1]? = some (Numbered.index n)) : t ∈ follow n := by
  rw [mem_sets_iff] at h
  induction h generalizing n with
  | given hgiven hmem =>
      rcases List.mem_append.mp hgiven with hgiven | hgiven
      · obtain ⟨entry, hentry, hgiven⟩ := List.mem_flatMap.mp hgiven
        obtain ⟨i, hi, heq⟩ := List.mem_map.mp hgiven
        cases heq
        have hhead : i.head = entry := (Item.mem_initialItems.mp hi).1
        obtain rfl : i.head = n := LawfulNumbered.index_inj (Option.some.inj hplace)
        rw [BitSet.mem_singleton] at hmem
        rw [LawfulNumbered.index_inj hmem, hhead]
        exact endOfInput_mem_follow hentry
      · obtain ⟨s, hs, hgiven⟩ := List.mem_flatMap.mp hgiven
        obtain ⟨i, hi, hgiven⟩ := List.mem_flatMap.mp hgiven
        obtain ⟨before, hread⟩ := (grammatical_of_mem_states hs).items i hi
        unfold givenBy at hgiven
        split at hgiven
        · rename_i m after hrest
          cases List.mem_singleton.mp hgiven
          obtain rfl : m = n := LawfulNumbered.index_inj (Option.some.inj hplace)
          have hsymbols := hread.symbols
          rw [hrest] at hsymbols
          exact mem_follow_of_first hread.mem_productionsOf hsymbols hmem
        · contradiction
  | @included x y hxy _ ih =>
      obtain ⟨s, hs, hxy⟩ := List.mem_flatMap.mp hxy
      rcases List.mem_append.mp hxy with hxy | hxy
      · obtain ⟨z, -, hxy⟩ := List.mem_flatMap.mp hxy
        obtain ⟨⟨i, place⟩, hi, hmove⟩ := List.mem_filterMap.mp hxy
        obtain ⟨j, hj, heq⟩ := Option.map_eq_some_iff.mp hmove
        cases heq
        obtain rfl : j.head = n := LawfulNumbered.index_inj (Option.some.inj hplace)
        have hhead : j.head = i.head := by
          rw [(Item.advance?_eq_some_iff.mp hj).2]
          rfl
        rw [hhead]
        exact ih (getElem?_place hi).2
      · obtain ⟨⟨i, place⟩, hi, hcall⟩ := List.mem_flatMap.mp hxy
        obtain ⟨hitem, hhead⟩ := getElem?_place hi
        obtain ⟨before, hread⟩ := (grammatical_of_mem_states hs).items i hitem
        simp only [callsOf] at hcall
        split at hcall
        · rename_i m after hrest
          split at hcall
          · rename_i hnullable
            cases List.mem_singleton.mp hcall
            obtain rfl : m = n := LawfulNumbered.index_inj (Option.some.inj hplace)
            have hsymbols := hread.symbols
            rw [hrest] at hsymbols
            exact mem_follow_of_head hread.mem_productionsOf hsymbols hnullable (ih hhead)
          · contradiction
        · contradiction

end SyntaxTriage.Lookahead
