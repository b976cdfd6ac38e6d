import SyntaxTriage.Proofs.Grammar.Contexts

/-!
Words that can be laid out. Not every terminal can come right behind every other one: a line ends
behind something, and a level of indentation begins and ends with a line. The rest of a brief
production has a word that keeps to this, together with whatever comes behind it.
-/

namespace SyntaxTriage

open Grammar

namespace Grammar

-- the tables are large, and nothing here should compute them
attribute [local irreducible] wanted briefs

variable {a t : Terminal} {x : Symbol} {ends : TerminalSet} {word more : List Terminal}

theorem joins_of_joinsAll (h : joinsAll a ends = true) (ht : t ∈ ends) : Joins a t := by
  rw [joinsAll, force_eq, decide_eq_true_eq] at h
  intro happart
  have hbit := congrArg (Nat.testBit · (Numbered.index t)) h
  have hends : ends.bits.testBit (Numbered.index t) = true := ht
  have happart : (apart a).bits.testBit (Numbered.index t) = true := happart
  simp [hends, happart] at hbit

/-- The terminals can come one right behind the other, and the input can end behind them. -/
def LaysOut (word : List Terminal) : Prop := (word ++ [Terminal.endOfInput]).IsChain Joins

theorem LaysOut.cons (h : LaysOut more) (ha : Joins a (nextOf more .endOfInput)) :
    LaysOut (a :: more) := by
  cases more with
  | nil => exact .cons_cons ha h
  | cons t more => exact .cons_cons ha h

theorem LaysOut.of_cons (h : LaysOut (a :: more)) :
    LaysOut more ∧ Joins a (nextOf more .endOfInput) := by
  cases more with
  | nil => exact ⟨h.tail, h.rel⟩
  | cons t more => exact ⟨h.tail, h.rel⟩

/-- Words that can be laid out between terminals can be put together. -/
theorem laysOut_of_isLaidOut (h : isLaidOut ends x word = true) (hmore : LaysOut more)
    (hnext : nextOf more .endOfInput ∈ ends) :
    LaysOut (word ++ more) ∧ ∀ t, x = .terminal t → Joins t (nextOf (word ++ more) .endOfInput) := by
  induction word generalizing x with
  | nil =>
      refine ⟨hmore, ?_⟩
      rintro t rfl
      exact joins_of_joinsAll h hnext
  | cons u word ih =>
      have hbehind : isLaidOut ends (.terminal u) word = true ∧
          ∀ t, x = .terminal t → Joins t u := by
        cases x with
        | nonterminal n => exact ⟨h, fun _ hx => by cases hx⟩
        | terminal t =>
            obtain ⟨hjoins, h⟩ := Bool.and_eq_true_iff.mp h
            refine ⟨h, ?_⟩
            rintro _ ⟨⟩
            exact of_decide_eq_true hjoins
      obtain ⟨hchain, hu⟩ := ih hbehind.1
      exact ⟨hchain.cons (hu u rfl), hbehind.2⟩

theorem of_checkTexts {p : Production} {number : Nat} {before rest : List Symbol}
    (h : checkTexts p ends number (before ++ x :: rest) = true)
    (hbrief : briefs.testBit (number + before.length + 1) = true)
    (hrec : ¬(p.symbols.length = rest.length + 1 ∧ x = .nonterminal p.head)) :
    ∃ word, Expands rest word ∧ isLaidOut ends x word = true := by
  induction before generalizing number with
  | nil =>
      obtain ⟨h, -⟩ := Bool.and_eq_true_iff.mp h
      rw [List.length_nil, Nat.add_zero] at hbrief
      rw [hbrief, decide_eq_false hrec] at h
      cases htext : textOf rest with
      | none =>
          rw [htext] at h
          contradiction
      | some word =>
          rw [htext] at h
          exact ⟨word, expands_of_textOf htext, h⟩
  | cons y before ih =>
      have h := (Bool.and_eq_true_iff.mp h).2
      rw [force_eq] at h
      refine ih h ?_
      rw [List.length_cons] at hbrief
      rw [show number + 1 + before.length + 1 = number + (before.length + 1) + 1 by omega]
      exact hbrief


end Grammar

/-- The rest of a brief production has a text that can be laid out. -/
theorem Item.HasRead.exists_text {i : Item} {before : List Symbol} {x : Symbol}
    (hi : i.HasRead (before ++ [x]))
    (hbrief : isBrief i.production (before.length + 1) = true)
    (hrec : ¬(before = [] ∧ x = .nonterminal i.head)) :
    ∃ word, Expands i.rest word ∧ isLaidOut (wantedBehind i.head) x word = true := by
  have hsymbols := hi.symbols
  rw [List.append_assoc, List.singleton_append] at hsymbols
  have hcheck := hi.check_calls.2
  rw [hsymbols] at hcheck
  refine of_checkTexts hcheck ?_ fun ⟨hlength, hx⟩ => hrec ⟨?_, hx⟩
  · have hbit := testBit_briefs hi (by rwa [List.length_append])
    rwa [hi.number_eq, List.length_append, ← Nat.add_assoc] at hbit
  · rw [hsymbols, List.length_append, List.length_cons] at hlength
    exact List.eq_nil_of_length_eq_zero (by omega)

end SyntaxTriage
