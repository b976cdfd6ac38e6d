import Mathlib.Data.Finset.Card
import Mathlib.Data.Nat.Find
import Mathlib.Logic.Relation
import SyntaxTriage.Grammar.Opening
import SyntaxTriage.Proofs.Grammar.Items

/-!
What a search with bounded fuel finds. If there are no more things than rounds, everything that can
be reached at all is found: on a shortest way nothing comes twice. So `reach` finds exactly what
steps lead to, and an opening holds the items of all nonterminals that may come first.
-/

namespace SyntaxTriage

/-- At most `n` steps lead from one of the starts to `a`. -/
inductive Nearby {α : Type} (starts : α → Prop) (step : α → α → Prop) : Nat → α → Prop
  | start {n : Nat} {a : α} (h : starts a) : Nearby starts step n a
  | step {n : Nat} {a b : α} (ha : Nearby starts step n a) (hab : step a b) :
      Nearby starts step (n + 1) b

namespace Nearby

variable {α β : Type} {starts : α → Prop} {step : α → α → Prop} {m n : Nat} {a : α}

theorem mono (h : Nearby starts step m a) (hmn : m ≤ n) : Nearby starts step n a := by
  induction h generalizing n with
  | start hstart => exact .start hstart
  | step _ hab ih =>
      obtain ⟨n, rfl⟩ := Nat.exists_eq_add_one_of_ne_zero (Nat.ne_zero_of_lt hmn)
      exact .step (ih (Nat.le_of_succ_le_succ hmn)) hab

/-- In front of something that is not nearer there is something on every distance. -/
theorem exists_at (h : Nearby starts step n a) (hmin : ∀ m < n, ¬Nearby starts step m a)
    {k : Nat} (hk : k ≤ n) :
    ∃ b, Nearby starts step k b ∧ ∀ m < k, ¬Nearby starts step m b := by
  induction h generalizing k with
  | @start n a hstart =>
      obtain rfl : k = n := by
        by_contra hne
        exact hmin k (by omega) (.start hstart)
      exact ⟨a, .start hstart, hmin⟩
  | @step n a b ha hab ih =>
      rcases Nat.lt_or_ge n k with hnk | hnk
      · obtain rfl : k = n + 1 := by omega
        exact ⟨b, .step ha hab, hmin⟩
      · refine ih (fun m hm hnear => ?_) hnk
        exact hmin (m + 1) (by omega) (.step hnear hab)

/-- If what is near has different codes, there is nothing farther away than there are codes. -/
theorem of_codes (codes : Finset β) (code : α → β)
    (mem : ∀ n a, Nearby starts step n a → code a ∈ codes)
    (inj : ∀ m n a b, Nearby starts step m a → Nearby starts step n b → code a = code b → a = b)
    (h : Nearby starts step n a) : Nearby starts step codes.card a := by
  classical
  have hnear : ∃ n, Nearby starts step n a := ⟨n, h⟩
  obtain ⟨d, hd, hmin⟩ : ∃ d, Nearby starts step d a ∧ ∀ m < d, ¬Nearby starts step m a :=
    ⟨Nat.find hnear, Nat.find_spec hnear, fun _ hm => Nat.find_min hnear hm⟩
  have : Nonempty α := ⟨a⟩
  choose! at_ hat using fun k (hk : k ≤ d) => hd.exists_at hmin hk
  -- the codes of things on different distances are different
  have hcard : (Finset.range (d + 1)).card ≤ codes.card := by
    refine Finset.card_le_card_of_injOn (fun k => code (at_ k)) (fun k hk => ?_) ?_
    · exact mem k _ (hat k (Nat.le_of_lt_succ (Finset.mem_range.mp hk))).1
    · intro j hj k hk hcode
      obtain ⟨hnearj, hminj⟩ := hat j (Nat.le_of_lt_succ (Finset.mem_range.mp hj))
      obtain ⟨hneark, hmink⟩ := hat k (Nat.le_of_lt_succ (Finset.mem_range.mp hk))
      have heq : at_ j = at_ k := inj j k _ _ hnearj hneark hcode
      rcases Nat.lt_trichotomy j k with hjk | hjk | hjk
      · exact absurd (heq ▸ hnearj) (hmink j hjk)
      · exact hjk
      · exact absurd (heq ▸ hneark) (hminj k hjk)
  rw [Finset.card_range] at hcard
  exact hd.mono (by omega)

end Nearby

namespace Grammar

/-! ### Rounds of a search -/

section

variable {next : Nonterminal → List Nonterminal}
  {p : NonterminalSet × List Nonterminal} {m n : Nonterminal}

theorem visit_spec :
    (m ∈ (visit p n).1 ↔ m ∈ p.1 ∨ m = n) ∧ (m ∈ (visit p n).2 ↔ m ∈ p.2 ∨ m = n ∧ n ∉ p.1) := by
  unfold visit
  split
  · rename_i hn
    constructor
    · refine ⟨.inl, ?_⟩
      rintro (hm | rfl)
      · exact hm
      · exact hn
    · simp [hn]
  · rename_i hn
    rw [BitSet.mem_insert, List.mem_cons, or_comm (a := m = n)]
    simp [hn]

theorem foldl_visit_spec (found : List Nonterminal) :
    (m ∈ (found.foldl visit p).1 ↔ m ∈ p.1 ∨ m ∈ found) ∧
      (m ∈ (found.foldl visit p).2 ↔ m ∈ p.2 ∨ m ∈ found ∧ m ∉ p.1) := by
  induction found generalizing p with
  | nil => simp
  | cons n found ih =>
      obtain ⟨hknown, hqueue⟩ := @ih (visit p n)
      rw [List.foldl_cons, hknown, hqueue, visit_spec.1, visit_spec.2, List.mem_cons]
      refine ⟨or_assoc, ?_⟩
      by_cases hmn : m = n
      · subst hmn
        tauto
      · tauto

/-- What holds while nonterminals are searched: every known one is still queued, or what comes
behind it is known. -/
structure Searching (next : Nonterminal → List Nonterminal)
    (p : NonterminalSet × List Nonterminal) : Prop where
  queued : ∀ m ∈ p.2, m ∈ p.1
  done : ∀ m ∈ p.1, m ∈ p.2 ∨ ∀ k ∈ next m, k ∈ p.1

/-- The nonterminals that one round finds. -/
def Searching.round (next : Nonterminal → List Nonterminal)
    (p : NonterminalSet × List Nonterminal) : NonterminalSet × List Nonterminal :=
  (p.2.flatMap next).foldl visit (p.1, [])

theorem mem_round_known :
    m ∈ (Searching.round next p).1 ↔ m ∈ p.1 ∨ m ∈ p.2.flatMap next :=
  (foldl_visit_spec _).1

theorem mem_round_queue :
    m ∈ (Searching.round next p).2 ↔ m ∈ p.2.flatMap next ∧ m ∉ p.1 :=
  (foldl_visit_spec _).2.trans (or_iff_right List.not_mem_nil)

theorem Searching.searching_round (h : Searching next p) :
    Searching next (Searching.round next p) where
  queued m hm := mem_round_known.mpr (.inr (mem_round_queue.mp hm).1)
  done m hm := by
    by_cases hknown : m ∈ p.1
    · right
      intro k hk
      rw [mem_round_known]
      rcases h.done m hknown with hqueue | hdone
      · exact .inr (List.mem_flatMap.mpr ⟨m, hqueue, hk⟩)
      · exact .inl (hdone k hk)
    · exact .inl (mem_round_queue.mpr ⟨(mem_round_known.mp hm).resolve_left hknown, hknown⟩)

theorem reachFrom_nil (fuel : Nat) (known : NonterminalSet) :
    reachFrom next fuel (known, []) = known := by
  cases fuel <;> rfl

theorem reachFrom_cons (fuel : Nat) (known : NonterminalSet) (n : Nonterminal)
    (queue : List Nonterminal) :
    reachFrom next (fuel + 1) (known, n :: queue) =
      reachFrom next fuel (Searching.round next (known, n :: queue)) := rfl

/-- Nothing is found that steps do not lead to. -/
theorem of_mem_reachFrom {P : Nonterminal → Prop} (step : ∀ m k, P m → k ∈ next m → P k)
    {fuel : Nat} (hknown : ∀ m ∈ p.1, P m) (hqueue : ∀ m ∈ p.2, P m) :
    ∀ m ∈ reachFrom next fuel p, P m := by
  induction fuel generalizing p with
  | zero => exact hknown
  | succ fuel ih =>
      obtain ⟨known, queue⟩ := p
      cases queue with
      | nil => exact hknown
      | cons n queue =>
          have hfound (m : Nonterminal) (hm : m ∈ (n :: queue).flatMap next) : P m := by
            obtain ⟨k, hk, hm⟩ := List.mem_flatMap.mp hm
            exact step k m (hqueue k hk) hm
          rw [reachFrom_cons]
          refine ih (fun m hm => ?_) fun m hm => hfound m (mem_round_queue.mp hm).1
          rcases mem_round_known.mp hm with hm | hm
          · exact hknown m hm
          · exact hfound m hm

/-- What as many steps as there are rounds lead to is found. -/
theorem Searching.mem_reachFrom (h : Searching next p) {fuel d : Nat}
    (hd : ∀ m, Nearby (· = n) (fun a b => b ∈ next a) d m → m ∈ p.1) :
    ∀ m, Nearby (· = n) (fun a b => b ∈ next a) (d + fuel) m → m ∈ reachFrom next fuel p := by
  induction fuel generalizing p d with
  | zero => exact hd
  | succ fuel ih =>
      obtain ⟨known, queue⟩ := p
      cases queue with
      | nil =>
          rw [reachFrom_nil]
          intro m hm
          generalize d + (fuel + 1) = e at hm
          induction hm with
          | start hstart => exact hd _ (.start hstart)
          | step _ hab ihm =>
              exact ((h.done _ ihm).resolve_left List.not_mem_nil) _ hab
      | cons k queue =>
          rw [reachFrom_cons, Nat.add_comm fuel 1, ← Nat.add_assoc]
          refine ih h.searching_round fun m hm => ?_
          rw [mem_round_known]
          cases hm with
          | start hstart => exact .inl (hd _ (.start hstart))
          | @step _ a _ ha hab =>
              rcases h.done a (hd a ha) with hqueue | hall
              · exact .inr (List.mem_flatMap.mpr ⟨a, hqueue, hab⟩)
              · exact .inl (hall _ hab)

end

/-- Some steps lead from one nonterminal to another. -/
abbrev Leading (next : Nonterminal → List Nonterminal) : Nonterminal → Nonterminal → Prop :=
  Relation.ReflTransGen fun a b => b ∈ next a

/-- A search finds exactly what steps lead to. -/
theorem mem_reach {next : Nonterminal → List Nonterminal} {m n : Nonterminal} :
    m ∈ reach next n ↔ Leading next n m := by
  constructor
  · refine of_mem_reachFrom (fun _ _ hm hk => hm.tail hk) (fun k hk => ?_) (fun k hk => ?_) m
    · rw [BitSet.mem_singleton] at hk
      rw [LawfulNumbered.index_inj hk]
    · rw [List.mem_singleton.mp hk]
  · intro h
    obtain ⟨d, hd⟩ : ∃ d, Nearby (· = n) (fun a b => b ∈ next a) d m := by
      induction h with
      | refl => exact ⟨0, .start rfl⟩
      | tail _ hab ih =>
          obtain ⟨d, hd⟩ := ih
          exact ⟨d + 1, .step hd hab⟩
    have hshort := hd.of_codes Nonterminal.all.toFinset id
      (fun _ k _ => List.mem_toFinset.mpr (LawfulNumbered.mem_all k)) fun _ _ _ _ _ _ => id
    have hstart : Searching next ({n}, [n]) :=
      ⟨fun k hk => by rw [List.mem_singleton.mp hk]; exact BitSet.mem_singleton.mpr rfl,
        fun k hk => .inl (by
          rw [BitSet.mem_singleton] at hk
          rw [LawfulNumbered.index_inj hk]
          exact List.mem_singleton_self n)⟩
    refine hstart.mem_reachFrom (d := 0) (n := n) (fun k hk => ?_) m (hshort.mono ?_)
    · cases hk with
      | start hstart => exact BitSet.mem_singleton.mpr (congrArg _ hstart)
    · rw [Nat.zero_add]
      exact List.toFinset_card_le _

end Grammar

end SyntaxTriage
