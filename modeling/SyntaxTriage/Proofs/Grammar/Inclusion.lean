import Mathlib.Data.List.Perm.Subperm
import SyntaxTriage.Grammar.Inclusion
import SyntaxTriage.Proofs.Grammar.Numbering

/-!
The least sets with given members and inclusions: `Inclusions.solve` finds exactly what follows from
them. The invariant of its rounds is that an inclusion can fail only for a set that has just grown.
A member needs no more rounds than there are inclusions to come to where it follows.
-/

namespace SyntaxTriage.Inclusions

variable {α : Type}

/-! ### Additions -/

def members (sets : Sets α) (x : List Nat) : BitSet α := sets.getD x ∅

/-- `after` comes from `before` by additions, and the names in `grown` cover all changes. -/
structure Grows [Numbered α] (before after : Sets α × List (List Nat)) : Prop where
  kept : ∀ {a : α} {y : List Nat}, a ∈ members before.1 y → a ∈ members after.1 y
  noted : ∀ {y : List Nat}, y ∈ before.2 → y ∈ after.2
  changed : ∀ {y : List Nat}, y ∉ after.2 → members after.1 y = members before.1 y

@[simp] theorem members_empty (x : List Nat) : members (∅ : Sets α) x = ∅ :=
  Std.TreeMap.getD_emptyc

theorem members_insert (sets : Sets α) (x y : List Nat) (found : BitSet α) :
    members (sets.insert x found) y = if x = y then found else members sets y := by
  simp only [members, Std.TreeMap.getD_insert, Std.LawfulEqCmp.compare_eq_iff_eq]

theorem members_add_of_not_grown {sets : Sets α} {x : List Nat} {new : BitSet α}
    (h : (add sets x new).2 = false) (y : List Nat) :
    members (add sets x new).1 y = members sets y := by
  unfold add at h ⊢
  simp only at h ⊢
  split
  · rfl
  · rename_i hgrown
    rw [if_neg hgrown] at h
    contradiction

theorem members_add_of_ne {sets : Sets α} {x y : List Nat} {new : BitSet α} (h : y ≠ x) :
    members (add sets x new).1 y = members sets y := by
  unfold add
  simp only
  split
  · rfl
  · rw [members_insert, if_neg (Ne.symm h)]

def handOn (new : BitSet α) (p : Sets α × List (List Nat)) (y : List Nat) :
    Sets α × List (List Nat) :=
  ((add p.1 y new).1, if (add p.1 y new).2 then y :: p.2 else p.2)

/-! ### Rounds -/

/-- A set is handed on to the sets that contain it. -/
theorem mem_supersets (s : Inclusions α) (x y : List Nat) :
    y ∈ s.supersets.getD x [] ↔ (x, y) ∈ s.included := by
  suffices ∀ (pairs : List (List Nat × List Nat)) (m : Std.TreeMap (List Nat) (List (List Nat))),
      y ∈ (pairs.foldl (fun m p => m.insert p.1 (p.2 :: m.getD p.1 [])) m).getD x [] ↔
        y ∈ m.getD x [] ∨ (x, y) ∈ pairs by
    have hfold := this s.included ∅
    rw [Std.TreeMap.getD_emptyc] at hfold
    exact hfold.trans (or_iff_right List.not_mem_nil)
  intro pairs
  induction pairs with
  | nil => simp
  | cons pair pairs ih =>
      intro m
      obtain ⟨u, v⟩ := pair
      rw [List.foldl_cons, ih, Std.TreeMap.getD_insert, List.mem_cons, Prod.mk.injEq]
      simp only [Std.LawfulEqCmp.compare_eq_iff_eq]
      by_cases hu : u = x
      · subst hu
        simp [or_comm, or_left_comm, or_assoc]
      · simp [hu, Ne.symm hu]

def round (s : Inclusions α) (grown : List (List Nat)) (p : Sets α × List (List Nat)) :
    Sets α × List (List Nat) :=
  grown.foldl (fun p x => spread (s.supersets.getD x []) x p) p

theorem settle_nil (s : Inclusions α) (fuel : Nat) (sets : Sets α) :
    settle s.supersets fuel sets [] = sets := by
  cases fuel <;> rfl

theorem settle_cons (s : Inclusions α) (fuel : Nat) (sets : Sets α) (x : List Nat)
    (grown : List (List Nat)) :
    settle s.supersets (fuel + 1) sets (x :: grown) =
      settle s.supersets fuel (s.round (x :: grown) (sets, [])).1
        (s.round (x :: grown) (sets, [])).2 := rfl

theorem length_included_le_rounds (s : Inclusions α) : s.included.length ≤ s.rounds := by
  unfold rounds
  calc
    s.included.length ≤ s.given.length + s.included.length := Nat.le_add_left _ _
    _ ≤ (s.given.length + s.included.length) * _ := Nat.le_mul_of_pos_right _ (Nat.succ_pos _)
    _ ≤ _ := Nat.le_succ _

/-! ### Members -/

variable [Numbered α] {a : α}

theorem mem_members_add {sets : Sets α} {x y : List Nat} {new : BitSet α} :
    a ∈ members (add sets x new).1 y ↔ a ∈ members sets y ∨ y = x ∧ a ∈ new := by
  unfold add
  simp only
  split
  · rename_i hsame
    constructor
    · exact .inl
    · rintro (h | ⟨rfl, h⟩)
      · exact h
      · show a ∈ sets.getD y ∅
        rw [← hsame]
        exact BitSet.mem_union.mpr (.inr h)
  · rw [members_insert]
    by_cases hxy : x = y
    · subst hxy
      rw [if_pos rfl, BitSet.mem_union]
      simp [members]
    · rw [if_neg hxy]
      simp [Ne.symm hxy]

theorem Grows.refl (p : Sets α × List (List Nat)) : Grows p p := ⟨id, id, fun _ => rfl⟩

theorem Grows.trans {p q r : Sets α × List (List Nat)} (h : Grows p q) (h' : Grows q r) :
    Grows p r where
  kept ha := h'.kept (h.kept ha)
  noted hy := h'.noted (h.noted hy)
  changed hy := (h'.changed hy).trans (h.changed fun hq => hy (h'.noted hq))

theorem grows_handOn (new : BitSet α) (p : Sets α × List (List Nat)) (y : List Nat) :
    Grows p (handOn new p y) where
  kept ha := mem_members_add.mpr (.inl ha)
  noted hz := by
    unfold handOn
    simp only
    split
    · exact List.mem_cons_of_mem y hz
    · exact hz
  changed {z} hz := by
    unfold handOn at hz ⊢
    simp only at hz ⊢
    split at hz
    · exact members_add_of_ne fun hzy => hz (hzy ▸ List.mem_cons_self)
    · rename_i hgrown
      exact members_add_of_not_grown (by simpa using hgrown) z

theorem grows_foldl_handOn (new : BitSet α) (ys : List (List Nat)) (p : Sets α × List (List Nat)) :
    Grows p (ys.foldl (handOn new) p) := by
  induction ys generalizing p with
  | nil => exact .refl p
  | cons y ys ih => exact (grows_handOn new p y).trans (ih _)

theorem mem_members_foldl_handOn {new : BitSet α} {ys : List (List Nat)}
    {p : Sets α × List (List Nat)} {z : List Nat} :
    a ∈ members (ys.foldl (handOn new) p).1 z ↔ a ∈ members p.1 z ∨ z ∈ ys ∧ a ∈ new := by
  induction ys generalizing p with
  | nil => simp
  | cons y ys ih =>
      rw [List.foldl_cons, ih]
      show a ∈ members (add p.1 y new).1 z ∨ _ ↔ _
      rw [mem_members_add, List.mem_cons, or_and_right, or_assoc]

theorem mem_members_spread {ys : List (List Nat)} {x z : List Nat}
    {p : Sets α × List (List Nat)} :
    a ∈ members (spread ys x p).1 z ↔ a ∈ members p.1 z ∨ z ∈ ys ∧ a ∈ members p.1 x :=
  mem_members_foldl_handOn

/-! ### What follows -/

/-- It follows from what is given, along the inclusions, that `a` is in the set `x`. -/
inductive Entails (s : Inclusions α) (a : α) : List Nat → Prop
  | given {x : List Nat} {m : BitSet α} (h : (x, m) ∈ s.given) (ha : a ∈ m) : Entails s a x
  | included {x y : List Nat} (h : (x, y) ∈ s.included) (hx : Entails s a x) : Entails s a y

/-! ### Inclusions that hold -/

/-- Every inclusion holds, but for those of the sets in `grown`. -/
def Settled (s : Inclusions α) (sets : Sets α) (grown : List (List Nat)) : Prop :=
  ∀ x y, (x, y) ∈ s.included → x ∉ grown → ∀ a, a ∈ members sets x → a ∈ members sets y

theorem grows_round (s : Inclusions α) (grown : List (List Nat))
    (p : Sets α × List (List Nat)) : Grows p (s.round grown p) := by
  induction grown generalizing p with
  | nil => exact .refl p
  | cons x grown ih => exact (grows_foldl_handOn _ _ p).trans (ih _)

/-- A round hands on the members of all sets that it is told of. -/
theorem handed_round {s : Inclusions α} {grown : List (List Nat)} {p : Sets α × List (List Nat)}
    {x y : List Nat} (hxy : (x, y) ∈ s.included) (hx : x ∈ grown) (ha : a ∈ members p.1 x) :
    a ∈ members (s.round grown p).1 y := by
  induction grown generalizing p with
  | nil => contradiction
  | cons z grown ih =>
      rcases List.mem_cons.mp hx with rfl | hx
      · refine (grows_round s grown _).kept ?_
        exact mem_members_spread.mpr (.inr ⟨(s.mem_supersets x y).mpr hxy, ha⟩)
      · exact ih hx ((grows_foldl_handOn _ _ p).kept ha)

/-- Behind a round, inclusions fail only for sets that have grown in it. -/
theorem settled_round {s : Inclusions α} {grown : List (List Nat)} {p : Sets α × List (List Nat)}
    (h : s.Settled p.1 (grown ++ p.2)) :
    s.Settled (s.round grown p).1 (s.round grown p).2 := by
  intro x y hxy hx b hb
  have hgrows := grows_round s grown p
  rw [hgrows.changed hx] at hb
  by_cases hgrown : x ∈ grown
  · exact handed_round hxy hgrown hb
  · refine hgrows.kept (h x y hxy ?_ b hb)
    rw [List.mem_append]
    rintro (hmem | hmem)
    · exact hgrown hmem
    · exact hx (hgrows.noted hmem)

/-! ### What follows is found -/

/-- `a` comes into the set `x` along at most `n` inclusions. -/
inductive Within (s : Inclusions α) (a : α) : Nat → List Nat → Prop
  | given {n : Nat} {x : List Nat} {m : BitSet α} (h : (x, m) ∈ s.given) (ha : a ∈ m) :
      Within s a n x
  | included {n : Nat} {x y : List Nat} (h : (x, y) ∈ s.included) (hx : Within s a n x) :
      Within s a (n + 1) y

def Covers (s : Inclusions α) (sets : Sets α) (n : Nat) : Prop :=
  ∀ a x, s.Within a n x → a ∈ members sets x

theorem covers_settle {s : Inclusions α} {fuel n : Nat} {sets : Sets α} {grown : List (List Nat)}
    (h : s.Settled sets grown) (hn : s.Covers sets n) :
    s.Covers (settle s.supersets fuel sets grown) (n + fuel) := by
  induction fuel generalizing n sets grown with
  | zero => exact hn
  | succ fuel ih =>
      cases grown with
      | nil =>
          -- nothing has grown, so all inclusions hold
          rw [settle_nil]
          suffices ∀ m a x, s.Within a m x → a ∈ members sets x from this _
          intro m a x hx
          induction hx with
          | given hgiven ha => exact hn a _ (.given hgiven ha)
          | included hxy _ ihx => exact h _ _ hxy List.not_mem_nil a ihx
      | cons z grown =>
          rw [settle_cons, Nat.add_comm fuel 1, ← Nat.add_assoc]
          have hgrows := grows_round s (z :: grown) (sets, [])
          apply ih (settled_round (by rwa [List.append_nil]))
          intro a x hx
          cases hx with
          | given hgiven ha => exact hgrows.kept (hn a x (.given hgiven ha))
          | @included _ w _ hwx hw =>
              by_cases hgrown : w ∈ z :: grown
              · exact handed_round hwx hgrown (hn a w hw)
              · exact hgrows.kept (h w x hwx hgrown a (hn a w hw))

theorem mem_members_initial {s : Inclusions α} {x : List Nat} :
    a ∈ members s.initial x ↔ ∃ new, (x, new) ∈ s.given ∧ a ∈ new := by
  suffices ∀ (given : List (List Nat × BitSet α)) (sets : Sets α),
      a ∈ members (given.foldl (fun sets entry => (add sets entry.1 entry.2).1) sets) x ↔
        a ∈ members sets x ∨ ∃ new, (x, new) ∈ given ∧ a ∈ new by
    have hfold := this s.given ∅
    rw [members_empty] at hfold
    exact hfold.trans (or_iff_right (BitSet.not_mem_empty a))
  intro given
  induction given with
  | nil => simp
  | cons entry given ih =>
      intro sets
      obtain ⟨y, new⟩ := entry
      rw [List.foldl_cons, ih, mem_members_add]
      constructor
      · rintro ((h | ⟨rfl, h⟩) | ⟨new', hmem, h⟩)
        · exact .inl h
        · exact .inr ⟨new, List.mem_cons_self, h⟩
        · exact .inr ⟨new', List.mem_cons_of_mem _ hmem, h⟩
      · rintro (h | ⟨new', hmem, h⟩)
        · exact .inl (.inl h)
        · rcases List.mem_cons.mp hmem with heq | hmem
          · cases heq
            exact .inl (.inr ⟨rfl, h⟩)
          · exact .inr ⟨new', hmem, h⟩

theorem settled_initial (s : Inclusions α) : s.Settled s.initial (s.given.map (·.1)) := by
  intro x y _ hx a ha
  obtain ⟨new, hgiven, -⟩ := mem_members_initial.mp ha
  exact absurd (List.mem_map_of_mem (f := (·.1)) hgiven) hx

theorem covers_initial (s : Inclusions α) : s.Covers s.initial 0 := by
  intro a x hx
  cases hx with
  | given hgiven ha => exact mem_members_initial.mpr ⟨_, hgiven, ha⟩

/-- `a` comes into the set `x` along the inclusions `path`, the last one first, each used once. -/
inductive Along (s : Inclusions α) (a : α) : List (List Nat × List Nat) → List Nat → Prop
  | given {x : List Nat} {m : BitSet α} (h : (x, m) ∈ s.given) (ha : a ∈ m) : Along s a [] x
  | included {x y : List Nat} {path : List (List Nat × List Nat)} (h : (x, y) ∈ s.included)
      (fresh : (x, y) ∉ path) (hx : Along s a path x) : Along s a ((x, y) :: path) y

theorem Along.of_mem {s : Inclusions α} {x y z : List Nat} {path : List (List Nat × List Nat)}
    (h : s.Along a path z) (hxy : (x, y) ∈ path) : ∃ path', s.Along a path' y := by
  induction h with
  | given => contradiction
  | @included u v path huv fresh hu ih =>
      rcases List.mem_cons.mp hxy with heq | hxy
      · cases heq
        exact ⟨_, .included huv fresh hu⟩
      · exact ih hxy

theorem Entails.along {s : Inclusions α} {x : List Nat} (h : s.Entails a x) :
    ∃ path, s.Along a path x := by
  induction h with
  | given hgiven ha => exact ⟨[], .given hgiven ha⟩
  | @included x y hxy _ ih =>
      obtain ⟨path, hpath⟩ := ih
      by_cases hmem : (x, y) ∈ path
      · exact hpath.of_mem hmem
      · exact ⟨_, .included hxy hmem hpath⟩

theorem Along.within {s : Inclusions α} {x : List Nat} {path : List (List Nat × List Nat)}
    (h : s.Along a path x) : path.Nodup ∧ path ⊆ s.included ∧ s.Within a path.length x := by
  induction h with
  | given hgiven ha => exact ⟨List.nodup_nil, List.nil_subset _, .given hgiven ha⟩
  | included hxy fresh _ ih =>
      obtain ⟨hnodup, hsubset, hwithin⟩ := ih
      exact ⟨List.nodup_cons.mpr ⟨fresh, hnodup⟩, List.cons_subset.mpr ⟨hxy, hsubset⟩,
        .included hxy hwithin⟩

theorem Within.mono {s : Inclusions α} {m n : Nat} {x : List Nat} (h : s.Within a m x)
    (hmn : m ≤ n) : s.Within a n x := by
  induction h generalizing n with
  | given hgiven ha => exact .given hgiven ha
  | included hxy _ ih =>
      obtain ⟨n, rfl⟩ := Nat.exists_eq_add_one_of_ne_zero (Nat.ne_zero_of_lt hmn)
      exact .included hxy (ih (Nat.le_of_succ_le_succ hmn))

/-! ### Nothing else is found -/

def Justified (s : Inclusions α) (sets : Sets α) : Prop :=
  ∀ a x, a ∈ members sets x → s.Entails a x

theorem justified_round {s : Inclusions α} {grown : List (List Nat)}
    {p : Sets α × List (List Nat)} (h : s.Justified p.1) : s.Justified (s.round grown p).1 := by
  induction grown generalizing p with
  | nil => exact h
  | cons x grown ih =>
      refine ih fun a y hy => ?_
      rcases mem_members_spread.mp hy with hy | ⟨hxy, hx⟩
      · exact h a y hy
      · exact .included ((s.mem_supersets x y).mp hxy) (h a x hx)

theorem justified_settle {s : Inclusions α} {fuel : Nat} {sets : Sets α}
    {grown : List (List Nat)} (h : s.Justified sets) :
    s.Justified (settle s.supersets fuel sets grown) := by
  induction fuel generalizing sets grown with
  | zero => exact h
  | succ fuel ih =>
      cases grown with
      | nil =>
          rw [settle_nil]
          exact h
      | cons x grown =>
          rw [settle_cons]
          exact ih (justified_round h)

/-- The sets that are found have just the members that follow. -/
theorem mem_solve_iff {s : Inclusions α} {x : List Nat} :
    a ∈ s.solve.getD x ∅ ↔ s.Entails a x := by
  show a ∈ members s.solve x ↔ _
  constructor
  · refine justified_settle (fun a x h => ?_) a x
    obtain ⟨new, hgiven, ha⟩ := mem_members_initial.mp h
    exact .given hgiven ha
  · intro h
    obtain ⟨path, hpath⟩ := h.along
    obtain ⟨hnodup, hsubset, hwithin⟩ := hpath.within
    have hlength : path.length ≤ s.rounds :=
      Nat.le_trans (hnodup.subperm hsubset).length_le s.length_included_le_rounds
    have hcovers : s.Covers s.solve (0 + s.rounds) :=
      covers_settle s.settled_initial s.covers_initial
    exact hcovers a x (hwithin.mono (by omega))

end SyntaxTriage.Inclusions
