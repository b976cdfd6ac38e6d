import Mathlib.Data.List.Chain
import SyntaxTriage.Proofs.Layout.TabSize

/-!
Indentations that grow and shrink. One character more is at least one column more, however wide tabs
are, so that of two indentations of which one begins with the other the longer one is the wider one
at every tab size. Lines that add to the indentation of the line before, repeat it or cut it short
are therefore never refused for mixed tabs and blanks.
-/

namespace SyntaxTriage.Layout

variable {κ : Type} [LayoutKind κ] {tabSize : Nat} {line previous : List Char}
  {lines : List (List Char)} {input : List (Lexeme κ)}

def Nested (line previous : List Char) : Prop := line <+: previous ∨ previous <+: line

instance (line previous : List Char) : Decidable (Nested line previous) :=
  inferInstanceAs (Decidable (line <+: previous ∨ previous <+: line))

/-- Each line break outside brackets that is come to leads to an indentation that extends the one
before it, repeats it or cuts it short. -/
def GrowsAndShrinks (tabSize : Nat) (input : List (Lexeme κ)) : Prop :=
  ∀ before l after, input = before ++ l :: after → (readAll tabSize before).2 = none →
    LayoutKind.role l.kind = .newline → before.foldl bracketsBehind 0 = 0 →
      Nested (indentation l.text.toList) ((logicalLines 0 before).getLastD [])

/-! ### Columns -/

theorem width_concat (tabSize : Nat) (line : List Char) (c : Char) :
    width tabSize (line ++ [c]) = if c = '\t' then (width tabSize line / tabSize + 1) * tabSize
      else width tabSize line + 1 := by
  rw [width, List.foldl_append]
  rfl

/-- A tab moves on even from a tab stop. -/
theorem width_lt_width_concat (htab : 0 < tabSize) (line : List Char) (c : Char) :
    width tabSize line < width tabSize (line ++ [c]) := by
  rw [width_concat]
  split
  · rw [Nat.succ_mul]
    exact Nat.lt_div_mul_add htab
  · exact Nat.lt_succ_self _

theorem width_le_width_append (htab : 0 < tabSize) (line more : List Char) :
    width tabSize line ≤ width tabSize (line ++ more) := by
  induction more generalizing line with
  | nil => rw [List.append_nil]
  | cons c more ih =>
      have hmore := ih (line ++ [c])
      rw [List.append_assoc, List.singleton_append] at hmore
      exact Nat.le_trans (Nat.le_of_lt (width_lt_width_concat htab line c)) hmore

theorem width_lt_width_append (htab : 0 < tabSize) (line : List Char) {more : List Char}
    (hmore : more ≠ []) : width tabSize line < width tabSize (line ++ more) := by
  obtain ⟨c, more, rfl⟩ := List.exists_cons_of_ne_nil hmore
  have hbehind := width_le_width_append htab (line ++ [c]) more
  rw [List.append_assoc, List.singleton_append] at hbehind
  exact Nat.lt_of_lt_of_le (width_lt_width_concat htab line c) hbehind

/-! ### Nested indentations -/

theorem nested_nil (previous : List Char) : Nested [] previous := .inl (List.nil_prefix)

theorem Nested.symm (h : Nested line previous) : Nested previous line := Or.symm h

/-- Nested indentations are ordered by their lengths. -/
theorem Nested.width_lt_iff (htab : 0 < tabSize) (h : Nested line previous) :
    width tabSize line < width tabSize previous ↔ line.length < previous.length := by
  rcases h with ⟨more, rfl⟩ | ⟨more, rfl⟩
  · cases more with
    | nil => simp
    | cons c more =>
        refine iff_of_true (width_lt_width_append htab line (List.cons_ne_nil c more)) ?_
        rw [List.length_append, List.length_cons]
        omega
  · refine iff_of_false (Nat.not_lt.mpr (width_le_width_append htab previous more)) ?_
    rw [List.length_append]
    omega

theorem Nested.not_inconsistent (htab : 0 < tabSize) (h : Nested line previous) :
    inconsistent tabSize line previous = false := by
  have hcompare : compare (width tabSize line) (width tabSize previous) =
      compare (width 1 line) (width 1 previous) := by
    rw [compare_eq_compare_iff, h.width_lt_iff htab, h.symm.width_lt_iff htab,
      h.width_lt_iff Nat.zero_lt_one, h.symm.width_lt_iff Nat.zero_lt_one]
    exact ⟨Iff.rfl, Iff.rfl⟩
  exact decide_eq_false (not_not_intro hcompare)

/-- Of two indentations by the same character one always begins with the other. -/
theorem nested_of_uniform {c : Char} (hline : ∀ d ∈ line, d = c)
    (hprevious : ∀ d ∈ previous, d = c) : Nested line previous := by
  rw [List.eq_replicate_of_mem hline, List.eq_replicate_of_mem hprevious]
  rcases Nat.le_total line.length previous.length with hle | hle
  · exact .inl (List.prefix_replicate_iff.mpr ⟨by simpa, by simp⟩)
  · exact .inr (List.prefix_replicate_iff.mpr ⟨by simpa, by simp⟩)

/-! ### Lines -/

theorem logicalLines_append (depth : Nat) (before after : List (Lexeme κ)) :
    logicalLines depth (before ++ after) =
      logicalLines depth before ++ logicalLines (before.foldl bracketsBehind depth) after := by
  induction before generalizing depth with
  | nil => rfl
  | cons l before ih =>
      rw [List.cons_append, logicalLines, logicalLines, ih, List.append_assoc, List.foldl_cons]

/-- It is enough that all lines are nested in their neighbours, those included that are not come
to. -/
theorem growsAndShrinks_of_isChain (h : (logicalLines 0 input).IsChain Nested) :
    GrowsAndShrinks tabSize input := by
  rintro before l after rfl - hl houtside
  rw [logicalLines_append, houtside, logicalLines, if_pos ⟨hl, rfl⟩, List.isChain_append] at h
  obtain ⟨-, -, hneighbours⟩ := h
  rw [List.getLastD_eq_getLast?]
  cases hlast : (logicalLines 0 before).getLast? with
  | none => exact (nested_nil _).symm
  | some previous => exact (hneighbours previous hlast _ rfl).symm

/-- Lines that are indented by blanks only, or by tabs only, are nested. -/
theorem isChain_of_uniform {c : Char} (h : ∀ line ∈ lines, ∀ d ∈ line, d = c) :
    lines.IsChain Nested := by
  refine List.Pairwise.isChain (List.pairwise_of_forall_mem_list fun line hline previous hprevious => ?_)
  exact nested_of_uniform (h line hline) (h previous hprevious)

/-! ### Main result -/

/-- Main result. The width of an indentation grows with every character, at every tab size. Nested
indentations are therefore never at odds, and an input whose lines grow and shrink is not refused for
mixed tabs and blanks. All inputs with nested neighbours are of this kind, and so are all that are
indented with one character only. -/
theorem process_ne_tabError (htab : 0 < tabSize) :
    (∀ line c, width tabSize line < width tabSize (line ++ [c])) ∧
    (∀ line previous, Nested line previous →
      inconsistent tabSize line previous = false ∧ inconsistent tabSize previous line = false) ∧
    (∀ (used : Layout) (input : List (Lexeme κ)), GrowsAndShrinks tabSize input →
      ∀ location, (process tabSize used input).2 ≠ some (.lexical ⟨.tabError, location⟩)) ∧
    ∀ input : List (Lexeme κ),
      ((logicalLines 0 input).IsChain Nested → GrowsAndShrinks tabSize input) ∧
      ∀ c, (∀ line ∈ logicalLines 0 input, ∀ d ∈ line, d = c) → GrowsAndShrinks tabSize input := by
  refine ⟨width_lt_width_concat htab, fun line previous h => ?_, fun used input h location => ?_,
    fun input => ⟨growsAndShrinks_of_isChain, fun c h => ?_⟩⟩
  · exact ⟨h.not_inconsistent htab, h.symm.not_inconsistent htab⟩
  · intro htabError
    obtain ⟨before, l, after, hinput, hread, hmixed, -⟩ := readAll_tabError_iff.mp htabError
    have hnested := h before l after hinput hread hmixed.newline hmixed.outside
    exact ne_true_of_eq_false (hnested.not_inconsistent htab) hmixed.inconsistent
  · exact growsAndShrinks_of_isChain (isChain_of_uniform h)

/-- Lines that add blanks to a tab and a tab to the blanks, and go back again. The line inside the
brackets fits none of them. -/
def growing : List (Lexeme String) :=
  [⟨"_NEWLINE", "\n\t", some 1, some 2, some 2, some 2⟩,
    ⟨"_NEWLINE", "\n\t  ", some 2, some 3, some 3, some 4⟩,
    ⟨"LPAR", "(", some 3, some 4, some 3, some 5⟩,
    ⟨"_NEWLINE", "\n   \t", some 3, some 5, some 4, some 5⟩,
    ⟨"RPAR", ")", some 4, some 5, some 4, some 6⟩,
    ⟨"_NEWLINE", "\n\t  \t", some 4, some 6, some 5, some 5⟩,
    ⟨"_NEWLINE", "\n\t", some 5, some 6, some 6, some 2⟩,
    ⟨"_NEWLINE", "\n", some 6, some 3, some 7, some 1⟩]

theorem process_ne_tabError_growing :
    0 < 8 ∧ GrowsAndShrinks 8 growing ∧
      ∀ location, (process 8 {} growing).2 ≠ some (.lexical ⟨.tabError, location⟩) := by
  have hpos : 0 < 8 := by decide
  obtain ⟨-, -, hnone, hkinds⟩ := @process_ne_tabError String _ 8 hpos
  have hgrows := (hkinds growing).1 (by decide)
  exact ⟨hpos, hgrows, hnone {} growing hgrows⟩

end SyntaxTriage.Layout
