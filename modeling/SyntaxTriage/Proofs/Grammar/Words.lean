import SyntaxTriage.Proofs.Grammar.Opening

/-!
Short texts of the grammar. Of all productions that begin in the same way the shortest ones are
brief; a text is written with them wherever there is a choice. Every rest of a brief production has
a text of this kind, whose terminals all have a spelling.
-/

namespace SyntaxTriage.Grammar

/-! ### Brief productions -/

/-- Whether an input that the production makes ends with its last line. -/
def endsLine (p : Production) : Bool :=
  !(p.head = .evalInput && p.symbols = [.nonterminal .testList])

/-- How many symbols two right-hand sides begin with in the same way. -/
def alike : List Symbol → List Symbol → Nat
  | x :: xs, y :: ys => if x = y then alike xs ys + 1 else 0
  | _, _ => 0

/-- How much of a production has to be read until none that begins in the same way is shorter. -/
def briefFrom (p : Production) : Nat :=
  (productionsOf p.head).foldr (fun q count =>
    if q.symbols.length < p.symbols.length ∧ endsLine q = true then
      max count (alike p.symbols q.symbols + 1)
    else count) 0

/-- Whether no production with the same beginning, of `count` symbols, is shorter. -/
def isBrief (p : Production) (count : Nat) : Bool := endsLine p && decide (briefFrom p ≤ count)

theorem take_eq_of_le_alike {count : Nat} {xs ys : List Symbol} (h : count ≤ alike xs ys) :
    xs.take count = ys.take count := by
  induction xs generalizing count ys with
  | nil => simp [Nat.le_zero.mp h]
  | cons x xs ih =>
      cases ys with
      | nil => simp [Nat.le_zero.mp h]
      | cons y ys =>
          rw [alike] at h
          split at h
          · rename_i hxy
            cases count with
            | zero => rfl
            | succ count =>
                rw [List.take_succ_cons, List.take_succ_cons, hxy, ih (Nat.le_of_succ_le_succ h)]
          · simp [Nat.le_zero.mp h]

theorem exists_of_lt_briefFrom {p : Production} {count : Nat} (h : count < briefFrom p) :
    ∃ q ∈ productionsOf p.head, q.symbols.length < p.symbols.length ∧ endsLine q = true ∧
      q.symbols.take count = p.symbols.take count := by
  unfold briefFrom at h
  generalize productionsOf p.head = qs at h ⊢
  induction qs with
  | nil => contradiction
  | cons q qs ih =>
      rw [List.foldr_cons] at h
      have hrest := fun hlt => (ih hlt).imp fun _ => And.imp_left (List.mem_cons_of_mem q)
      split at h
      · rename_i hshorter
        rcases lt_max_iff.mp h with hlt | hlt
        · exact hrest hlt
        · exact ⟨q, List.mem_cons_self, hshorter.1, hshorter.2,
            (take_eq_of_le_alike (Nat.le_of_lt_succ hlt)).symm⟩
      · exact hrest h

theorem exists_isBrief_of_endsLine {n : Nonterminal} {p : Production} {count : Nat}
    (hp : p ∈ productionsOf n) (hends : endsLine p = true) : ∃ q ∈ productionsOf n,
      q.symbols.take count = p.symbols.take count ∧ isBrief q count = true := by
  obtain ⟨bound, hbound⟩ : ∃ bound, p.symbols.length ≤ bound := ⟨_, Nat.le_refl _⟩
  induction bound generalizing p with
  | zero =>
      refine ⟨p, hp, rfl, ?_⟩
      rw [isBrief, hends, Bool.true_and, decide_eq_true_eq]
      refine Nat.le_of_not_lt fun hlt => ?_
      obtain ⟨q, -, hshorter, -⟩ := exists_of_lt_briefFrom hlt
      omega
  | succ bound ih =>
      by_cases hbrief : isBrief p count = true
      · exact ⟨p, hp, rfl, hbrief⟩
      · -- a shorter production with this beginning
        rw [isBrief, hends, Bool.true_and, decide_eq_true_eq, Nat.not_le] at hbrief
        obtain ⟨q, hq, hlength, hq_ends, htake⟩ := exists_of_lt_briefFrom hbrief
        rw [head_of_mem_productionsOf hp] at hq
        obtain ⟨r, hr, hrtake, hbrief⟩ := ih hq hq_ends (by omega)
        exact ⟨r, hr, hrtake.trans htake, hbrief⟩

/-- What has been read of a production can go on in a brief way. -/
theorem exists_isBrief {n : Nonterminal} {p : Production} {count : Nat} (hp : p ∈ productionsOf n)
    (hcount : count ≤ p.symbols.length) : ∃ q ∈ productionsOf n,
      q.symbols.take count = p.symbols.take count ∧ isBrief q count = true := by
  by_cases hends : endsLine p = true
  · exact exists_isBrief_of_endsLine hp hends
  · -- an expression on its own, which the end of its line may follow
    have hwhole : ∃ q ∈ productionsOf .evalInput, endsLine q = true ∧
        q.symbols.take 1 = [.nonterminal .testList] := by decide +kernel
    obtain ⟨q, hq, hq_ends, htake⟩ := hwhole
    simp only [endsLine, Bool.not_eq_true', Bool.and_eq_true, decide_eq_true_eq,
      Bool.not_eq_false] at hends
    obtain ⟨hhead, hsymbols⟩ := hends
    rw [head_of_mem_productionsOf hp] at hhead
    subst hhead
    have hsame : q.symbols.take count = p.symbols.take count := by
      rw [hsymbols, List.length_singleton] at hcount
      rw [hsymbols, ← htake, List.take_take, Nat.min_eq_left hcount]
    obtain ⟨r, hr, hrtake, hbrief⟩ := @exists_isBrief_of_endsLine _ _ count hq hq_ends
    exact ⟨r, hr, hrtake.trans hsame, hbrief⟩

theorem isBrief_mono {p : Production} {count count' : Nat} (h : isBrief p count = true)
    (hcount : count ≤ count') : isBrief p count' = true := by
  obtain ⟨hends, hfrom⟩ := Bool.and_eq_true_iff.mp h
  rw [isBrief, hends, Bool.true_and, decide_eq_true_eq]
  exact (of_decide_eq_true hfrom).trans hcount

/-- Nothing begins with itself when it is brief. -/
theorem head?_ne_of_isBrief {n : Nonterminal} {p : Production} (hp : p ∈ productionsOf n)
    (hbrief : isBrief p 0 = true) : p.symbols.head? ≠ some (.nonterminal n) := by
  have h : (Nonterminal.all.all fun n => (productionsOf n).all fun p =>
      !isBrief p 0 || decide (p.symbols.head? ≠ some (.nonterminal p.head))) = true := by
    decide +kernel
  have hcheck := forall_productions h hp
  rw [hbrief, head_of_mem_productionsOf hp] at hcheck
  simpa using hcheck

/-! ### Texts -/

/-- Whether the terminal can be written down. -/
def isSpelled (t : Terminal) : Bool :=
  t.text?.isSome || t = .identifier || t = .newline || t = .indent || t = .dedent

/-- The symbols stand for the terminals, by brief productions. -/
inductive Expands : List Symbol → List Terminal → Prop
  | nil : Expands [] []
  | terminal {t : Terminal} {rest : List Symbol} {word : List Terminal}
      (spelled : isSpelled t = true) (behind : Expands rest word) :
      Expands (.terminal t :: rest) (t :: word)
  | nonterminal {n : Nonterminal} {p : Production} {rest : List Symbol} {word more : List Terminal}
      (mem : p ∈ productionsOf n) (brief : isBrief p 0 = true) (parts : Expands p.symbols word)
      (behind : Expands rest more) : Expands (.nonterminal n :: rest) (word ++ more)

theorem Expands.isSpelled {symbols : List Symbol} {word : List Terminal}
    (h : Expands symbols word) : ∀ t ∈ word, isSpelled t = true := by
  induction h with
  | nil => exact fun t ht => by cases ht
  | terminal spelled _ ih => exact List.forall_mem_cons.mpr ⟨spelled, ih⟩
  | nonterminal _ _ _ _ ihparts ih =>
      intro t ht
      exact (List.mem_append.mp ht).elim (ihparts t) (ih t)

/-- The texts of symbols one behind the other. -/
def textsWith (text : Symbol → Option (List Terminal)) : List Symbol → Option (List Terminal)
  | [] => some []
  | x :: rest =>
    match text x, textsWith text rest with
    | some word, some more => some (word ++ more)
    | _, _ => none

/-- A short text of a symbol; `fuel` bounds how deep productions are nested. -/
def textFrom : (fuel : Nat) → Symbol → Option (List Terminal)
  | _, .terminal t => if isSpelled t then some [t] else none
  | 0, .nonterminal _ => none
  | fuel + 1, .nonterminal n =>
    ((productionsOf n).filter (isBrief · 0)).findSome? fun p => textsWith (textFrom fuel) p.symbols

/-- A short text of the symbols. -/
def textOf (symbols : List Symbol) : Option (List Terminal) := textsWith (textFrom 30) symbols

theorem Expands.of_textsWith {text : Symbol → Option (List Terminal)}
    (htext : ∀ x word, text x = some word → ∀ rest more, Expands rest more →
      Expands (x :: rest) (word ++ more))
    {symbols : List Symbol} {word : List Terminal} (h : textsWith text symbols = some word) :
    Expands symbols word := by
  induction symbols generalizing word with
  | nil =>
      cases h
      exact .nil
  | cons x rest ih =>
      rw [textsWith] at h
      split at h
      · rename_i found more hfound hmore
        cases h
        exact htext x found hfound rest more (ih hmore)
      · contradiction

theorem Expands.of_textFrom {fuel : Nat} {x : Symbol} {word : List Terminal}
    (h : textFrom fuel x = some word) {rest : List Symbol} {more : List Terminal}
    (hrest : Expands rest more) : Expands (x :: rest) (word ++ more) := by
  induction fuel generalizing x word rest more with
  | zero =>
      cases x with
      | nonterminal n => contradiction
      | terminal t =>
          rw [textFrom] at h
          split at h
          · rename_i ht
            cases h
            exact .terminal ht hrest
          · contradiction
  | succ fuel ih =>
      cases x with
      | terminal t =>
          rw [textFrom] at h
          split at h
          · rename_i ht
            cases h
            exact .terminal ht hrest
          · contradiction
      | nonterminal n =>
          obtain ⟨p, hp, hword⟩ := List.exists_of_findSome?_eq_some h
          obtain ⟨hp, hbrief⟩ := List.mem_filter.mp hp
          exact .nonterminal hp hbrief
            (.of_textsWith (fun x word hx rest more => ih hx) hword) hrest

theorem expands_of_textOf {symbols : List Symbol} {word : List Terminal}
    (h : textOf symbols = some word) : Expands symbols word :=
  .of_textsWith (fun _ _ hx _ _ => .of_textFrom hx) h

/-! ### Beginnings of texts -/

theorem isNullable_of_symbols {n : Nonterminal} {p : Production} (hp : p ∈ productionsOf n)
    (hsymbols : p.symbols.all isNullable = true) : isNullable (.nonterminal n) = true := by
  have h : (Nonterminal.all.all fun n => (productionsOf n).all fun p =>
      !p.symbols.all isNullable || isNullable (.nonterminal p.head)) = true := by decide +kernel
  have hcheck := forall_productions h hp
  rw [hsymbols, head_of_mem_productionsOf hp] at hcheck
  simpa using hcheck

theorem Expands.all_isNullable {symbols : List Symbol} (h : Expands symbols []) :
    symbols.all isNullable = true := by
  generalize hword : ([] : List Terminal) = word at h
  induction h with
  | nil => rfl
  | terminal => contradiction
  | nonterminal mem _ _ _ ihparts ih =>
      obtain ⟨hparts, hrest⟩ := List.append_eq_nil_iff.mp hword.symm
      rw [List.all_cons, isNullable_of_symbols mem (ihparts hparts.symm), ih hrest.symm]
      rfl

/-- A text of a nonterminal begins as its productions do. -/
theorem mem_first_of_production {n : Nonterminal} {p : Production} {t : Terminal}
    (hp : p ∈ productionsOf n) (ht : t ∈ firstOf p.symbols) : t ∈ first (.nonterminal n) := by
  obtain ⟨x, hx, ht⟩ := mem_firstOf.mp ht
  have hexposed : x ∈ exposedIn n := List.mem_flatMap.mpr ⟨p, hp, hx⟩
  rw [mem_first_nonterminal]
  cases x with
  | terminal u =>
      rw [first, BitSet.mem_singleton] at ht
      rw [LawfulNumbered.index_inj ht]
      exact ⟨n, .refl, hexposed⟩
  | nonterminal m =>
      obtain ⟨k, hlead, hk⟩ := mem_first_nonterminal.mp ht
      have hm : m ∈ (nonterminalsOf ∘ exposedIn) n := List.mem_filterMap.mpr ⟨_, hexposed, rfl⟩
      exact ⟨k, .head hm hlead, hk⟩

/-- A text begins with what the symbols may begin with. -/
theorem Expands.mem_firstOf {symbols : List Symbol} {t : Terminal} {word : List Terminal}
    (h : Expands symbols (t :: word)) : t ∈ firstOf symbols := by
  generalize hwhole : t :: word = whole at h
  induction h generalizing word with
  | nil => contradiction
  | terminal =>
      cases hwhole
      refine Grammar.mem_firstOf.mpr ⟨_, List.mem_singleton_self _, ?_⟩
      rw [first, BitSet.mem_singleton]
  | @nonterminal n p rest parts more mem _ hparts _ ihparts ih =>
      cases parts with
      | nil =>
          obtain ⟨x, hx, ht⟩ := Grammar.mem_firstOf.mp (ih hwhole)
          refine Grammar.mem_firstOf.mpr ⟨x, ?_, ht⟩
          rw [exposed, isNullable_of_symbols mem hparts.all_isNullable]
          exact List.mem_cons_of_mem _ hx
      | cons u parts =>
          cases hwhole
          refine Grammar.mem_firstOf.mpr ⟨_, ?_, mem_first_of_production mem (ihparts rfl)⟩
          rw [exposed]
          split
          · exact List.mem_cons_self
          · exact List.mem_singleton_self _

end SyntaxTriage.Grammar
