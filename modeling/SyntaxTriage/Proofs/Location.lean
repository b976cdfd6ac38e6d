import SyntaxTriage.Location

/-!
Positions reached by reading a text. The position behind a text is the one that reading it character
by character comes to, and reading never goes back: every character leads to a later position, so
that a position tells how much of a text lies in front of it.
-/

namespace SyntaxTriage.Location

theorem step_endOf (before : List Char) (c : Char) :
    (endOf before).step c = endOf (before ++ [c]) := by
  unfold step endOf
  split
  · rename_i hc
    simp [hc]
  · rename_i hc
    simp [hc]

theorem advance_endOf (before text : List Char) :
    (endOf before).advance text = endOf (before ++ text) := by
  induction text generalizing before with
  | nil => rw [List.append_nil]; rfl
  | cons c text ih =>
      show ((endOf before).step c).advance text = _
      rw [step_endOf, ih, List.append_assoc]
      rfl

theorem le_iff {a b : Location} :
    a ≤ b ↔ a.row < b.row ∨ a.row = b.row ∧ a.column ≤ b.column := Iff.rfl

theorem le_refl (a : Location) : a ≤ a := .inr ⟨rfl, Int.le_refl _⟩

theorem le_trans {a b c : Location} (hab : a ≤ b) (hbc : b ≤ c) : a ≤ c := by
  rw [le_iff] at *
  omega

theorem le_step (l : Location) (c : Char) : l ≤ l.step c := by
  rw [le_iff, step]
  split
  · exact .inl (Int.lt_add_one_iff.mpr (Int.le_refl _))
  · exact .inr ⟨rfl, Int.le_add_one (Int.le_refl _)⟩

theorem le_advance (l : Location) (text : List Char) : l ≤ l.advance text := by
  induction text generalizing l with
  | nil => exact le_refl l
  | cons c text ih => exact le_trans (le_step l c) (ih (l.step c))

/-- The position behind a part of a text is not past the position behind the text. -/
theorem endOf_le_endOf_of_prefix {before text : List Char} (h : before <+: text) :
    endOf before ≤ endOf text := by
  obtain ⟨behind, rfl⟩ := h
  rw [← advance_endOf]
  exact le_advance _ _

theorem one_le_row (text : List Char) : 1 ≤ (endOf text).row := by
  show 1 ≤ (text.count '\n' : Int) + 1
  omega

theorem one_le_column (text : List Char) : 1 ≤ (endOf text).column := by
  show 1 ≤ ((text.reverse.takeWhile (· ≠ '\n')).length : Int) + 1
  omega

/-- The coordinates of a position in a text are known and positive. -/
theorem ofCoordinates_endOf (text : List Char) (fallback : Location) :
    ofCoordinates (endOf text).row (endOf text).column fallback = endOf text := by
  have hrow := one_le_row text
  have hcolumn := one_le_column text
  rw [ofCoordinates, if_pos ⟨by omega, by omega⟩]

/-! ### Reading goes on -/

theorem lt_iff {a b : Location} :
    a < b ↔ a.row < b.row ∨ a.row = b.row ∧ a.column < b.column := Iff.rfl

theorem lt_irrefl (a : Location) : ¬a < a := by
  rw [lt_iff]
  omega

theorem not_lt_of_lt {a b : Location} (h : a < b) : ¬b < a := by
  rw [lt_iff] at *
  omega

theorem lt_of_lt_of_le {a b c : Location} (hab : a < b) (hbc : b ≤ c) : a < c := by
  rw [lt_iff] at *
  rw [le_iff] at hbc
  omega

theorem lt_step (l : Location) (c : Char) : l < l.step c := by
  rw [lt_iff, step]
  split
  · exact .inl (Int.lt_succ _)
  · exact .inr ⟨rfl, Int.lt_succ _⟩

theorem lt_advance (l : Location) {text : List Char} (h : text ≠ []) : l < l.advance text := by
  cases text with
  | nil => contradiction
  | cons c text => exact lt_of_lt_of_le (lt_step l c) (le_advance (l.step c) text)

theorem endOf_lt_endOf_append (before : List Char) {more : List Char} (h : more ≠ []) :
    endOf before < endOf (before ++ more) := by
  rw [← advance_endOf]
  exact lt_advance (endOf before) h

section

variable {text p q : List Char} (hp : p <+: text) (hq : q <+: text)

include hp hq

/-- Of two initial parts of a text, the shorter one ends at the earlier position. -/
theorem endOf_lt_endOf_of_length_lt (h : p.length < q.length) : endOf p < endOf q := by
  obtain ⟨more, rfl⟩ := List.prefix_of_prefix_length_le hp hq (Nat.le_of_lt h)
  refine endOf_lt_endOf_append p ?_
  rintro rfl
  rw [List.append_nil] at h
  exact Nat.lt_irrefl _ h

theorem endOf_lt_endOf_iff : endOf p < endOf q ↔ p.length < q.length := by
  refine ⟨fun h => ?_, endOf_lt_endOf_of_length_lt hp hq⟩
  rcases Nat.lt_trichotomy p.length q.length with hlt | heq | hgt
  · exact hlt
  · have hstarts : p <+: q := List.prefix_of_prefix_length_le hp hq (Nat.le_of_eq heq)
    rw [hstarts.eq_of_length heq] at h
    exact absurd h (lt_irrefl _)
  · exact absurd h (not_lt_of_lt (endOf_lt_endOf_of_length_lt hq hp hgt))

theorem endOf_eq_endOf_iff : endOf p = endOf q ↔ p = q := by
  refine ⟨fun h => ?_, congrArg endOf⟩
  have hshorter : ¬p.length < q.length := by
    rw [← endOf_lt_endOf_iff hp hq, h]
    exact lt_irrefl _
  have hlonger : ¬q.length < p.length := by
    rw [← endOf_lt_endOf_iff hq hp, h]
    exact lt_irrefl _
  have hlength : p.length = q.length := by omega
  exact (List.prefix_of_prefix_length_le hp hq (Nat.le_of_eq hlength)).eq_of_length hlength

end

/-! ### The last line -/

/-- The index of the last line break in a text, searched from the right; -1 if there is none. -/
inductive LastBreak : List Char → Int → Prop
  | none {text : List Char} (h : '\n' ∉ text) : LastBreak text (-1)
  | found {before line : List Char} (h : '\n' ∉ line) :
      LastBreak (before ++ '\n' :: line) before.length

theorem exists_lastBreak (text : List Char) : ∃ i, LastBreak text i := by
  by_cases h : '\n' ∈ text
  · obtain ⟨line, before, htext, hline⟩ := List.eq_append_cons_of_mem (List.mem_reverse.mpr h)
    have hsplit : text = before.reverse ++ '\n' :: line.reverse := by
      rw [← List.reverse_reverse text, htext, List.reverse_append, List.reverse_cons,
        List.append_assoc]
      rfl
    rw [hsplit]
    exact ⟨_, .found (by rwa [List.mem_reverse])⟩
  · exact ⟨-1, .none h⟩

theorem takeWhile_reverse {line : List Char} (h : '\n' ∉ line) (behind : List Char) :
    (line.reverse ++ behind).takeWhile (· ≠ '\n') =
      line.reverse ++ behind.takeWhile (· ≠ '\n') := by
  refine List.takeWhile_append_of_pos fun c hc => ?_
  rw [List.mem_reverse] at hc
  exact decide_eq_true fun heq => h (heq ▸ hc)

/-- The column counts from the last line break, as if there were one in front of the first line. -/
theorem column_endOf {text : List Char} {i : Int} (h : LastBreak text i) :
    (endOf text).column = text.length - (i + 1) + 1 := by
  show ((text.reverse.takeWhile (· ≠ '\n')).length : Int) + 1 = _
  cases h with
  | none h =>
      have hline := takeWhile_reverse h []
      rw [List.append_nil, List.takeWhile_nil, List.append_nil] at hline
      rw [hline, List.length_reverse]
      omega
  | @found before line h =>
      rw [List.reverse_append, List.reverse_cons, List.append_assoc, takeWhile_reverse h,
        List.singleton_append, List.takeWhile_cons_of_neg (by simp), List.append_nil,
        List.length_reverse, List.length_append, List.length_cons]
      omega

/-! ### Main result -/

/-- The position behind a text is the one that reading it from the first row and column comes to.
Its row counts the line breaks, its column the characters behind the last of them. Every character
more leads to a later position, so the initial parts of a text have distinct positions in the order
of their lengths. -/
theorem endOf_reads :
    (∀ text : List Char, endOf text = advance ⟨1, 1⟩ text ∧
      ∃ i, LastBreak text i ∧ endOf text = ⟨text.count '\n' + 1, text.length - (i + 1) + 1⟩) ∧
    (∀ before more : List Char, more ≠ [] → endOf before < endOf (before ++ more)) ∧
    ∀ text p q : List Char, p <+: text → q <+: text →
      (endOf p < endOf q ↔ p.length < q.length) ∧ (endOf p = endOf q ↔ p = q) := by
  refine ⟨fun text => ⟨?_, ?_⟩, fun before more h => endOf_lt_endOf_append before h,
    fun text p q hp hq => ⟨endOf_lt_endOf_iff hp hq, endOf_eq_endOf_iff hp hq⟩⟩
  · have hread := advance_endOf [] text
    rw [List.nil_append] at hread
    exact hread.symm
  · obtain ⟨i, hi⟩ := exists_lastBreak text
    refine ⟨i, hi, ?_⟩
    rw [← column_endOf hi]
    rfl

/-- The end of a line stands in front of the beginning of the next one. -/
theorem endOf_reads_lineEnd :
    ['\n'] ≠ [] ∧ endOf ['a'] < endOf (['a'] ++ ['\n']) ∧
      ['a'] <+: ['a', '\n', 'b'] ∧ ['a', '\n'] <+: ['a', '\n', 'b'] ∧
      endOf ['a'] ≠ endOf ['a', '\n'] := by
  obtain ⟨-, hmore, hparts⟩ := endOf_reads
  have hline : ['a'] <+: ['a', '\n', 'b'] := ⟨_, rfl⟩
  have hnext : ['a', '\n'] <+: ['a', '\n', 'b'] := ⟨_, rfl⟩
  exact ⟨by simp, hmore _ _ (by simp), hline, hnext,
    fun h => absurd ((hparts _ _ _ hline hnext).2.mp h) (by simp)⟩

end SyntaxTriage.Location
