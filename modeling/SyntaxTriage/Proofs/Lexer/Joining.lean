import SyntaxTriage.Proofs.Lexer.Delimiters
import SyntaxTriage.Proofs.Lexer.OpenString

/-!
Ends of lines. A line break leaves the place behind it at the beginning of a line, perhaps behind
some blanks. Whole lines that are skipped to their end join the next line, and there the place is at
the beginning of a line only if the last line holds nothing but what joins it.
-/

namespace SyntaxTriage.Lexer

variable {candidates : TerminalSet} {c : Cursor} {t : Terminal} {a b text rest : List Char}

/-- Behind the last end of a line there are only blanks. -/
def EndsBlank (text : List Char) : Prop :=
  ∃ before blanks, text = before ++ blanks ∧ Lines before ∧ ∀ c ∈ blanks, isBlankChar c = true

/-- The last line holds nothing but what joins it to the next one. -/
def JoinsBlank (text : List Char) : Prop :=
  ∃ before last, text = before ++ last ∧ EndsBlank before ∧ continuation last = some []

theorem not_joinsBlank (h : '\\' ∉ text) : ¬JoinsBlank text := by
  rintro ⟨before, last, rfl, -, hlast⟩
  unfold continuation at hlast
  split at hlast
  · exact h (List.mem_append_right before List.mem_cons_self)
  · contradiction

theorem Lines.endsBlank (h : Lines text) : EndsBlank text :=
  ⟨text, [], (List.append_nil text).symm, h, by simp⟩

theorem EndsBlank.append (ha : EndsBlank a) (hb : EndsBlank b) : EndsBlank (a ++ b) := by
  obtain ⟨before, blanks, rfl, hbefore, hblanks⟩ := ha
  obtain ⟨before', blanks', rfl, hbefore', hblanks'⟩ := hb
  rcases hbefore' with rfl | hlines
  · refine ⟨before, blanks ++ blanks', by simp, hbefore, fun c hc => ?_⟩
    exact (List.mem_append.mp hc).elim (hblanks c) (hblanks' c)
  · refine ⟨(before ++ blanks) ++ before', blanks', by simp, .inr ?_, hblanks'⟩
    exact hlines.append_left _

/-- Where a line ends, it does not matter what stands in front. -/
theorem EndsBlank.append_left (hb : EndsBlank b) (hhead : b.head? = some '\n') (a : List Char) :
    EndsBlank (a ++ b) := by
  obtain ⟨before, blanks, rfl, hbefore, hblanks⟩ := hb
  rcases hbefore with rfl | hlines
  · have hmem : '\n' ∈ blanks := List.mem_of_mem_head? hhead
    exact absurd (hblanks _ hmem) (by decide)
  · exact ⟨a ++ before, blanks, (List.append_assoc ..).symm, .inr (hlines.append_left a), hblanks⟩

/-! ### Line breaks -/

/-- What is left behind a piece of text, which takes the place to the beginning of a line or up to a
line break. -/
def ToLineEnd (text rest : List Char) : Prop :=
  ∃ taken, text = taken ++ rest ∧ ((∃ before blanks, taken = before ++ blanks ∧
    WholeLines before ∧ ∀ c ∈ blanks, isBlankChar c = true) ∨ rest.head?.all (· = '\n') = true)

theorem ToLineEnd.prepend (h : ToLineEnd text rest) (a : List Char) :
    ToLineEnd (a ++ text) rest := by
  obtain ⟨taken, rfl, h⟩ := h
  refine ⟨a ++ taken, (List.append_assoc ..).symm, h.imp_left ?_⟩
  rintro ⟨before, blanks, rfl, hbefore, hblanks⟩
  exact ⟨a ++ before, blanks, (List.append_assoc ..).symm, hbefore.append_left a, hblanks⟩

/-- A comment goes up to the line break. -/
theorem exists_comment (h : comment text = some rest) :
    ∃ taken, text = taken ++ rest ∧ rest.head?.all (· = '\n') = true := by
  unfold comment at h
  split at h
  · rename_i behind
    cases h
    refine ⟨'#' :: behind.takeWhile (· ≠ '\n'), ?_, ?_⟩
    · rw [List.cons_append, List.takeWhile_append_dropWhile]
    · have hnot := List.head?_dropWhile_not (fun c => decide (c ≠ '\n')) behind
      cases hhead : (behind.dropWhile (· ≠ '\n')).head? with
      | none => rfl
      | some c =>
          rw [hhead] at hnot
          simpa using hnot
  · contradiction

theorem toLineEnd_emptyLine (h : emptyLine text = some rest) : ToLineEnd text rest := by
  rcases Option.or_eq_some_iff.mp h with h | ⟨-, h⟩
  · obtain ⟨behind, hbreak, rfl⟩ := Option.map_eq_some_iff.mp h
    have hblanks : ∀ c ∈ behind.takeWhile (fun c => c = '\t' || c = ' '),
        isBlankChar c = true := by
      intro c hc
      have htest := List.mem_takeWhile_imp hc
      rw [isBlankChar, Bool.or_eq_true]
      exact .inl htest
    have hsplit := (List.takeWhile_append_dropWhile (p := fun c => c = '\t' || c = ' ')
      (l := behind)).symm
    rcases lineBreak_eq_some_iff.mp hbreak with rfl | rfl
    · exact ⟨'\n' :: _, congrArg (List.cons '\n') hsplit, .inl ⟨['\n'], _, rfl, rfl, hblanks⟩⟩
    · exact ⟨'\r' :: '\n' :: _, congrArg (fun l => '\r' :: '\n' :: l) hsplit,
        .inl ⟨['\r', '\n'], _, rfl, rfl, hblanks⟩⟩
  · obtain ⟨taken, rfl, hhead⟩ := exists_comment h
    exact ⟨taken, rfl, .inr hhead⟩

theorem toLineEnd_newline (h : newline text = some rest) : ToLineEnd text rest := by
  have hskip (fuel : Nat) (text : List Char) :
      skipEmptyLines fuel text = text ∨ ToLineEnd text (skipEmptyLines fuel text) := by
    induction fuel generalizing text with
    | zero => exact .inl rfl
    | succ fuel ih =>
        rw [skipEmptyLines]
        cases hline : emptyLine text with
        | none => exact .inl rfl
        | some behind =>
            right
            have hfirst := toLineEnd_emptyLine hline
            rcases ih behind with hsame | hmore
            · simpa only [hsame] using hfirst
            · obtain ⟨taken, rfl, -⟩ := hfirst
              exact hmore.prepend taken
  obtain ⟨behind, hline, rfl⟩ := Option.map_eq_some_iff.mp h
  have hfirst := toLineEnd_emptyLine hline
  rcases hskip text.length behind with hsame | hmore
  · rwa [hsame]
  · obtain ⟨taken, rfl, -⟩ := hfirst
    exact hmore.prepend taken

/-- Behind a line break there is the beginning of a line, or another line break. -/
theorem TakenByKind.endsBlank {l : Lexeme Terminal} (h : TakenByKind l rest)
    (hl : l.kind = .newline) (hne : rest ≠ []) (before : List Char) :
    EndsBlank (before ++ l.text.toList) ∨ rest.head? = some '\n' := by
  obtain ⟨behind, hread, hlength⟩ := h (by rw [hl]; rfl)
  rw [hl] at hread
  obtain ⟨taken, htaken, hend⟩ := toLineEnd_newline hread
  obtain ⟨htext, rfl⟩ := List.append_inj' htaken hlength.symm
  rcases hend with ⟨lines, blanks, rfl, hlines, hblanks⟩ | hhead
  · left
    rw [htext, ← List.append_assoc]
    exact ⟨before ++ lines, blanks, rfl, .inr (hlines.append_left before), hblanks⟩
  · right
    cases rest with
    | nil => contradiction
    | cons c rest => exact congrArg some (of_decide_eq_true hhead)

/-! ### The end of whole lines -/

/-- All but line breaks and what is skipped leave the line break behind that ends the lines. -/
theorem first?_lineEnd_eq (ha : WholeLines text) (h : first? candidates text = some (t, text.length))
    (hkept : t.isSkipped = false) : t = .newline := by
  obtain ⟨u, rest, hfound, hlength, -, rfl⟩ := first?_eq_some_iff.mp h
  have hread := (read_of_firstRead hfound).2
  obtain rfl : rest = [] := by
    have hpos := List.length_pos_of_ne_nil ha.ne_nil
    exact List.eq_nil_of_length_eq_zero (by omega)
  by_cases hnewline : u = .newline
  · subst hnewline
    exact kindOf_of_ne (by decide)
  by_cases hcontinuation : u = .continuation
  · subst hcontinuation
    rw [kindOf_of_ne (by decide)] at hkept
    cases hkept
  exfalso
  by_cases hlong : u = .longString
  · subst hlong
    exact (longString_append [] ha hread).2.ne_nil rfl
  · exact ((inLine_read hlong hnewline hcontinuation).rest ha hread).ne_nil rfl

theorem SkipsTo.lines {d : Cursor} (h : SkipsTo candidates c d) (hlines : Lines c.rest) :
    Lines d.rest := by
  induction h with
  | here => exact hlines
  | @skip c d t length _ _ _ ih => exact ih (hlines.drop length)

/-- The last lexeme of whole lines is the line break that ends them. -/
theorem Finds.exists_lineEnd {l : Lexeme Terminal} {behind : Cursor}
    (h : Finds candidates c (.lexeme l behind)) (hlines : WholeLines c.rest)
    (hlast : behind.rest = []) :
    l.kind = .newline ∧ ∃ d, SkipsTo candidates c d ∧ WholeLines d.rest ∧
      first? candidates d.rest = some (.newline, d.rest.length) ∧
        d.take .newline d.rest.length = (l, behind) := by
  obtain ⟨d, length, skips, hfirst, hkept, htake⟩ : ∃ d length, SkipsTo candidates c d ∧
      first? candidates d.rest = some (l.kind, length) ∧ l.kind.isSkipped = false ∧
        d.take l.kind length = (l, behind) := by
    clear hlines hlast
    generalize hfound : Next.lexeme l behind = found at h
    induction h with
    | finished | misplaced | unreadable => cases hfound
    | skip first skipped _ ih =>
        obtain ⟨d, length, skips, hd⟩ := ih hfound
        exact ⟨d, length, .skip first skipped skips, hd⟩
    | @lexeme c t length first kept =>
        cases hfound
        exact ⟨c, length, .here, first, kept, rfl⟩
  have hd : WholeLines d.rest := (skips.lines (.inr hlines)).wholeLines fun hnil => by
    rw [hnil, first?_nil] at hfirst
    contradiction
  have hlength : length = d.rest.length := by
    have hdrop : d.rest.drop length = [] := (congrArg (·.2.rest) htake).trans hlast
    have hle := (length_of_first? hfirst).2
    exact Nat.le_antisymm hle (List.drop_eq_nil_iff.mp hdrop)
  rw [hlength] at hfirst htake
  have hl := first?_lineEnd_eq hd hfirst hkept
  rw [hl] at hfirst htake
  exact ⟨hl, d, skips, hd, hfirst, htake⟩

/-! ### Lines that are skipped -/

theorem skipsTo_of_finished (h : Finds candidates c .finished) :
    ∃ d, SkipsTo candidates c d ∧ d.rest = [] := by
  generalize hfound : Next.finished = found at h
  induction h with
  | @finished c done => exact ⟨c, .here, done⟩
  | skip first skipped _ ih =>
      obtain ⟨d, skips, hd⟩ := ih hfound
      exact ⟨d, .skip first skipped skips, hd⟩
  | lexeme | misplaced | unreadable => cases hfound

theorem exists_blanks (h : blank text = some rest) :
    ∃ blanks, text = blanks ++ rest ∧ ∀ c ∈ blanks, isBlankChar c = true := by
  unfold blank at h
  split at h
  · split at h
    · rename_i c behind hc
      cases h
      refine ⟨c :: behind.takeWhile isBlankChar, ?_, ?_⟩
      · rw [List.cons_append, List.takeWhile_append_dropWhile]
      · exact List.forall_mem_cons.mpr ⟨hc, fun d hd => List.mem_takeWhile_imp hd⟩
    · contradiction
  · contradiction

theorem exists_joint (h : continuation text = some rest) :
    ∃ joint, text = joint ++ rest ∧ WholeLines joint := by
  unfold continuation at h
  split at h
  · rename_i behind
    obtain ⟨blanks, hblanks⟩ : ∃ blanks, behind = blanks ++ behind.dropWhile isBlankChar :=
      ⟨_, List.takeWhile_append_dropWhile.symm⟩
    rcases lineBreak_eq_some_iff.mp h with hbreak | hbreak
    · rw [hbreak] at hblanks
      refine ⟨'\\' :: blanks ++ ['\n'], by simp [hblanks],
        WholeLines.singleton.append_left _⟩
    · rw [hbreak] at hblanks
      refine ⟨'\\' :: blanks ++ ['\r', '\n'], by simp [hblanks],
        WholeLines.append_left (b := ['\r', '\n']) rfl _⟩
  · contradiction

/-- Whole lines that are skipped to their end join the next line, over blank text. -/
theorem exists_joint_of_finished (hnewline : Terminal.newline ∈ candidates)
    (h : Finds candidates c .finished) (hlines : WholeLines c.rest) :
    ∃ before last, c.rest = before ++ last ∧ EndsBlank before ∧ continuation last = some [] := by
  generalize hfound : Next.finished = found at h
  induction h with
  | finished done => exact absurd done hlines.ne_nil
  | @skip c t length found first skipped _ ih =>
      have hkind : t = .continuation ∨ t = .blank := by
        have hcomment := (madeOf_of_first? hnewline first).2
        unfold Terminal.isSkipped at skipped
        split at skipped <;> simp_all
      obtain ⟨rest, hread, rfl⟩ := read_of_first? first (by rcases hkind with rfl | rfl <;> rfl)
      -- the last line stands behind what is skipped
      have hbehind {taken : List Char} (htaken : c.rest = taken ++ rest) (hblank : EndsBlank taken)
          (hne : rest ≠ []) : ∃ before last, c.rest = before ++ last ∧ EndsBlank before ∧
            continuation last = some [] := by
        have hrest : (c.take t (c.rest.length - rest.length)).2.rest = rest := by
          show c.rest.drop (c.rest.length - rest.length) = rest
          rw [htaken, List.length_append, Nat.add_sub_cancel, List.drop_left]
        rw [hrest] at ih
        obtain ⟨before, last, hlast, hbefore, hjoins⟩ :=
          ih ((htaken ▸ hlines).of_append hne) hfound
        exact ⟨taken ++ before, last, by rw [htaken, hlast, List.append_assoc],
          hblank.append hbefore, hjoins⟩
      rcases hkind with rfl | rfl
      · obtain ⟨joint, htext, hjoint⟩ := exists_joint hread
        by_cases hnil : rest = []
        · subst hnil
          exact ⟨[], c.rest, rfl, Lines.endsBlank (.inl rfl), hread⟩
        · exact hbehind htext (Lines.endsBlank (.inr hjoint)) hnil
      · obtain ⟨blanks, htext, hblanks⟩ := exists_blanks hread
        refine hbehind htext ⟨[], blanks, rfl, .inl rfl, hblanks⟩ fun hnil => ?_
        rw [htext, hnil, List.append_nil] at hlines
        exact absurd (hblanks _ (List.mem_of_getLast? hlines)) (by decide)
  | lexeme | misplaced | unreadable => cases hfound

end SyntaxTriage.Lexer
