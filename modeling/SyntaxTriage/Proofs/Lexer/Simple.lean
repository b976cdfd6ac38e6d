import SyntaxTriage.Proofs.Lexer.Delimiters

/-!
Text in which quotes can be told one by one. The scanner of format strings takes every quote for the
beginning or the end of a string; the lexer passes over quotes that are escaped or commented, and
takes three in a row for one. Where there is none of that, both find the same strings.
-/

namespace SyntaxTriage.Lexer

open FString (IsPlain isPlain_iff delimiters Closed)

/-- Text without escapes, without comments, and without three quotes in a row. Quotes can be told in
it one by one. -/
structure Simple (text : List Char) : Prop where
  escape : '\\' ∉ text
  comment : '#' ∉ text
  triple : ∀ q, isQuote q = true → ¬[q, q, q] <:+: text

theorem Simple.of_part {part text : List Char} (h : Simple text) (hpart : part <:+: text) :
    Simple part :=
  ⟨fun hmem => h.escape (hpart.subset hmem), fun hmem => h.comment (hpart.subset hmem),
    fun q hq htriple => h.triple q hq (htriple.trans hpart)⟩

/-- What stands in front of the rest of the text closes its quotes and brackets, if it is simple. -/
def ClosesTo (text rest : List Char) : Prop :=
  ∃ taken, text = taken ++ rest ∧ (Simple taken → Closed taken)

section

variable {text rest behind : List Char} {q : Char}

theorem PlainTo.closesTo (h : PlainTo text rest) : ClosesTo text rest := by
  obtain ⟨taken, htext, hplain⟩ := h
  exact ⟨taken, htext, fun _ => .of_plain hplain⟩

theorem ClosesTo.trans (h : ClosesTo text rest) (h' : ClosesTo rest behind) :
    ClosesTo text behind := by
  obtain ⟨taken, rfl, htaken⟩ := h
  obtain ⟨taken', rfl, htaken'⟩ := h'
  refine ⟨taken ++ taken', (List.append_assoc ..).symm, fun hsimple => ?_⟩
  have hfirst := htaken (hsimple.of_part (List.prefix_append ..).isInfix)
  exact hfirst.append (htaken' (hsimple.of_part (List.suffix_append ..).isInfix))

theorem closesTo_emptyLine (h : emptyLine text = some rest) : ClosesTo text rest := by
  rcases Option.or_eq_some_iff.mp h with hbreak | ⟨-, hcomment⟩
  · have hblanks : delimiters.any (fun c => c = '\t' || c = ' ') = false := by decide
    exact ((takesPlain_lineBreak.map (plainTo_dropWhile hblanks)).plainTo text rest hbreak).closesTo
  · unfold comment at hcomment
    split at hcomment
    · cases hcomment
      rename_i text
      refine ⟨'#' :: text.takeWhile (· ≠ '\n'), ?_, fun hsimple => ?_⟩
      · rw [List.cons_append, List.takeWhile_append_dropWhile]
      · exact absurd List.mem_cons_self hsimple.comment
    · contradiction

theorem closesTo_skipEmptyLines (fuel : Nat) (text : List Char) :
    ClosesTo text (skipEmptyLines fuel text) := by
  induction fuel generalizing text with
  | zero => exact (PlainTo.refl text).closesTo
  | succ fuel ih =>
      rw [skipEmptyLines]
      split
      · rename_i rest hline
        exact (closesTo_emptyLine hline).trans (ih rest)
      · exact (PlainTo.refl text).closesTo

theorem closesTo_newline (h : newline text = some rest) : ClosesTo text rest := by
  obtain ⟨behind, hline, rfl⟩ := Option.map_eq_some_iff.mp h
  exact (closesTo_emptyLine hline).trans (closesTo_skipEmptyLines _ behind)

/-- Without escapes a string ends at the first quote. -/
theorem exists_of_shortBody_simple (h : shortBody q false text = some rest) :
    ∃ body, text = body ++ q :: rest ∧ ('\\' ∉ body → q ∉ body) := by
  induction text with
  | nil => contradiction
  | cons c text ih =>
      rw [shortBody] at h
      split at h
      · rename_i hend
        cases h
        simp only [Bool.and_eq_true, decide_eq_true_eq] at hend
        exact ⟨[], by rw [hend.1]; rfl, fun _ => List.not_mem_nil⟩
      · rename_i hne
        split at h
        · contradiction
        · by_cases hescape : c = '\\'
          · obtain ⟨body, hbody⟩ := exists_of_shortBody h
            exact ⟨c :: body, by rw [hbody]; rfl, fun hsimple => by simp [hescape] at hsimple⟩
          · rw [decide_eq_false hescape] at h
            obtain ⟨body, rfl, hsimple⟩ := ih h
            refine ⟨c :: body, rfl, fun hnone => ?_⟩
            rw [List.mem_cons, not_or] at hnone ⊢
            exact ⟨by simpa [eq_comm] using hne, hsimple hnone.2⟩

/-- The letters in front of a string are plain. -/
theorem isPlain_of_isStringLetters {letters : List Char}
    (h : isStringLetters (letters.map Char.toLower) = true) : ∀ c ∈ letters, IsPlain c := by
  have hnone : delimiters.any (·.toLower ∈ ['r', 'u', 'b', 'f']) = false := by decide
  exact fun c hc => isPlain_of_test hnone
    (decide_eq_true (mem_of_isStringLetters h (List.mem_map_of_mem hc)))

theorem closesTo_shortString (h : shortString text = some rest) : ClosesTo text rest := by
  obtain ⟨⟨q, behind⟩, hopening, hbody⟩ := Option.bind_eq_some_iff.mp h
  obtain ⟨letters, rfl, hquote, hletters, -⟩ := opening_eq_some_iff.mp hopening
  simp only at hbody
  split at hbody
  · contradiction
  · obtain ⟨body, rfl, hinside⟩ := exists_of_shortBody_simple hbody
    refine ⟨letters ++ (q :: body ++ [q]), by simp, fun hsimple => ?_⟩
    have hq : FString.IsQuote q := by
      simpa [isQuote, FString.IsQuote, or_comm] using hquote
    have hescape : '\\' ∉ body := fun hmem => hsimple.escape (by simp [hmem])
    exact (Closed.of_plain (isPlain_of_isStringLetters hletters)).append
      (.quoted hq (hinside hescape) .nil)

theorem closesTo_longString (h : longString text = some rest) : ClosesTo text rest := by
  obtain ⟨⟨q, behind⟩, hopening, hbody⟩ := Option.bind_eq_some_iff.mp h
  obtain ⟨letters, rfl, hquote, -, -⟩ := opening_eq_some_iff.mp hopening
  simp only at hbody
  split at hbody
  · rename_i htake
    obtain ⟨body, hbehind⟩ := exists_of_longBody hbody
    have hall : behind = q :: q :: (body ++ q :: rest) := by
      rw [← hbehind, ← List.take_append_drop 2 behind, htake]
      rfl
    refine ⟨letters ++ q :: q :: q :: (body ++ [q]), by simp [hall], fun hsimple => ?_⟩
    exact absurd ⟨letters, body ++ [q], by simp⟩ (hsimple.triple q hquote)
  · contradiction

/-- A string and a line break, if they are simple, close their quotes and brackets. -/
theorem TakenByKind.closed {l : Lexeme Terminal} (h : TakenByKind l rest)
    (hkind : l.kind = .shortString ∨ l.kind = .longString ∨ l.kind = .newline)
    (hsimple : Simple l.text.toList) : Closed l.text.toList := by
  obtain ⟨behind, hread, hlength⟩ := h (by rcases hkind with h | h | h <;> rw [h] <;> rfl)
  obtain ⟨taken, htext, hclosed⟩ : ClosesTo (l.text.toList ++ rest) behind := by
    rcases hkind with h | h | h
    all_goals rw [h] at hread
    · exact closesTo_shortString hread
    · exact closesTo_longString hread
    · exact closesTo_newline hread
  rw [(List.append_inj' htext hlength.symm).1] at hsimple ⊢
  exact hclosed hsimple

end

end SyntaxTriage.Lexer
