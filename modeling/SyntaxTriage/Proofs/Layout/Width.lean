import SyntaxTriage.Proofs.Layout.TabSize

/-!
The two measures of an indentation. The lexemes that layout puts in behind a line break go by the
levels, where every tab counts the same. The check for mixed tabs goes by the columns, where tabs
move to the next tab stop. The two are the same where all tabs stand in front of all blanks, and may
order two lines in different ways where they do not.
-/

namespace SyntaxTriage.Layout

variable {κ : Type} [LayoutKind κ] {tabSize : Nat} {s s' : Layout} {l : Lexeme κ}
  {ls before out : List (Lexeme κ)} {line previous : List Char}

/-- What is put in behind a line break tells the order of the line and the line before it. -/
structure Orders (measure : List Char → Nat) (line previous : List Char) (inserted : List κ) :
    Prop where
  indent : LayoutKind.indent ∈ inserted ↔ measure previous < measure line
  dedent : LayoutKind.dedent ∈ inserted ↔ measure line < measure previous
  neither : LayoutKind.indent ∉ inserted ∧ LayoutKind.dedent ∉ inserted ↔
    measure line = measure previous

def TabsFirst (line : List Char) : Prop :=
  ∃ tabs blanks, line = List.replicate tabs '\t' ++ List.replicate blanks ' '

/-! ### Measures -/

theorem foldl_tabs (tabSize tabs : Nat) :
    (List.replicate tabs '\t').foldl
      (fun column c => if c = '\t' then (column / tabSize + 1) * tabSize else column + 1) 0 =
        tabs * tabSize := by
  induction tabs with
  | zero => exact (Nat.zero_mul tabSize).symm
  | succ tabs ih =>
      rw [List.replicate_succ', List.foldl_append, ih, List.foldl_cons, List.foldl_nil, if_pos rfl]
      rcases Nat.eq_zero_or_pos tabSize with rfl | htab
      · simp
      · rw [Nat.mul_div_cancel tabs htab]

theorem foldl_blanks (tabSize column blanks : Nat) :
    (List.replicate blanks ' ').foldl
      (fun column c => if c = '\t' then (column / tabSize + 1) * tabSize else column + 1) column =
        column + blanks := by
  induction blanks generalizing column with
  | zero => rfl
  | succ blanks ih =>
      rw [List.replicate_succ, List.foldl_cons, ih, if_neg (by decide)]
      omega

theorem TabsFirst.width_eq_level (h : TabsFirst line) (tabSize : Nat) :
    width tabSize line = level tabSize line := by
  obtain ⟨tabs, blanks, rfl⟩ := h
  rw [width, List.foldl_append, foldl_tabs, foldl_blanks]
  simp [level, List.count_replicate, Nat.mul_comm, Nat.add_comm]

/-! ### The order that is told -/

section Orders

variable [LawfulLayoutKind κ] {measure measure' : List Char → Nat}

theorem orders_indent (h : measure previous < measure line) :
    Orders measure line previous [(LayoutKind.indent : κ)] := by
  have hdifferent : (LayoutKind.dedent : κ) ≠ LayoutKind.indent :=
    LawfulLayoutKind.indent_ne_dedent.symm
  refine ⟨by simpa, ?_, ?_⟩
  · simp only [List.mem_singleton, hdifferent, false_iff]
    omega
  · simp only [List.mem_singleton, not_true_eq_false, false_and, false_iff]
    omega

theorem orders_dedents {count : Nat} (h : measure line ≤ measure previous)
    (hcount : 0 < count ↔ measure line < measure previous) :
    Orders measure line previous (List.replicate count (LayoutKind.dedent : κ)) := by
  have hdifferent : (LayoutKind.indent : κ) ≠ LayoutKind.dedent :=
    LawfulLayoutKind.indent_ne_dedent
  refine ⟨?_, ?_, ?_⟩
  · simp only [List.mem_replicate, hdifferent, and_false, false_iff]
    omega
  · simp only [List.mem_replicate, and_true]
    omega
  · simp only [List.mem_replicate, hdifferent, and_false, and_true, not_false_eq_true, true_and]
    omega

end Orders

theorem Orders.iff_compare {measure measure' : List Char → Nat} {inserted : List κ}
    (h : Orders measure line previous inserted) : Orders measure' line previous inserted ↔
      compare (measure' line) (measure' previous) = compare (measure line) (measure previous) := by
  rw [compare_eq_compare_iff]
  constructor
  · intro h'
    exact ⟨h'.dedent.symm.trans h.dedent, h'.indent.symm.trans h.indent⟩
  · rintro ⟨hbelow, habove⟩
    refine ⟨h.indent.trans habove.symm, h.dedent.trans hbelow.symm, h.neither.trans ?_⟩
    omega

/-! ### The innermost level -/

def IsTop (tabSize : Nat) (s : Layout) : Prop := s.levels.head? = some (level tabSize s.previous)

theorem IsTop.read (hline : LayoutKind.role l.kind = .newline → ∃ line, LeadsTo l line)
    (h : (s.read tabSize l).next = .ok s') (hs : IsTop tabSize s) : IsTop tabSize s' := by
  have hstep := atLexeme tabSize s l
  generalize s.read tabSize l = step at h hstep
  cases hstep with
  | newline role found =>
      obtain ⟨line, hline⟩ := hline role
      cases found with
      | bracketed =>
          cases h
          exact hs
      | deeper _ _ text =>
          cases hline.lastLine?.symm.trans text
          cases h
          rw [IsTop, hline.indentation]
          rfl
      | returns _ _ text _ known =>
          cases hline.lastLine?.symm.trans text
          cases h
          rw [IsTop, hline.indentation]
          exact known
      | mixed | unbroken | astray => cases h
  | opening | closing | other =>
      cases h
      exact hs
  | unopened => cases h

theorem Reads.isTop (h : Reads tabSize s ls out s') (hlines : HasLines ls)
    (hs : IsTop tabSize s) : IsTop tabSize s' := by
  induction h with
  | nil => exact hs
  | cons first _ ih =>
      exact ih (fun k hk => hlines k (List.mem_cons_of_mem _ hk))
        (hs.read (hlines _ List.mem_cons_self) first)

theorem IsTop.start (tabSize : Nat) : IsTop tabSize {} := by
  simp [IsTop, level]

/-! ### Line breaks -/

/-- What is put in behind a line break goes by the levels. -/
theorem orders_level [LawfulLayoutKind κ] (hs : IsTop tabSize s) (houtside : s.brackets = 0)
    (hline : LeadsTo l line) (h : (readNewline tabSize s l).next = .ok s') :
    ∃ inserted, (readNewline tabSize s l).emitted = l :: inserted ∧
      Orders (level tabSize) line s.previous (inserted.map Lexeme.kind) := by
  have hstep := atNewline tabSize s l
  generalize readNewline tabSize s l = step at h hstep ⊢
  cases hstep with
  | bracketed inside => omega
  | mixed | unbroken | astray => cases h
  | deeper _ _ text above =>
      cases hline.lastLine?.symm.trans text
      rw [hs, Option.any_some, decide_eq_true_eq] at above
      exact ⟨_, rfl, orders_indent above⟩
  | returns _ _ text notAbove =>
      cases hline.lastLine?.symm.trans text
      rw [hs, Option.any_some, decide_eq_false_iff_not, Nat.not_lt] at notAbove
      obtain ⟨outer, hlevels⟩ := List.head?_eq_some_iff.mp hs
      refine ⟨_, rfl, ?_⟩
      rw [List.map_map, Function.comp_def, Lexeme.borrow, List.map_const']
      refine orders_dedents notAbove ?_
      rw [hlevels, List.takeWhile_cons]
      split
      · rename_i hbelow
        exact iff_of_true (Nat.succ_pos _) (of_decide_eq_true hbelow)
      · rename_i hnotBelow
        exact iff_of_false (Nat.lt_irrefl 0) fun hbelow => hnotBelow (decide_eq_true hbelow)

/-- Main result. Behind every line break outside brackets that is not refused, the lexemes that are
put in tell the order of the levels. They tell the order of the columns if and only if it is the
same, as it is where all tabs of the two lines stand in front of all blanks. -/
theorem orders_width_iff [LawfulLayoutKind κ] (hlines : HasLines (before ++ [l]))
    (hread : (readAll tabSize (before ++ [l])).2 = none)
    (hl : LayoutKind.role l.kind = .newline) (houtside : before.foldl bracketsBehind 0 = 0)
    (hline : LeadsTo l line) (hprevious : previous = (logicalLines 0 before).getLastD []) :
    ∃ out s inserted, Reads tabSize {} before out s ∧
      (s.read tabSize l).emitted = l :: inserted ∧
      Orders (level tabSize) line previous (inserted.map Lexeme.kind) ∧
      (Orders (width tabSize) line previous (inserted.map Lexeme.kind) ↔
        compare (width tabSize line) (width tabSize previous) =
          compare (level tabSize line) (level tabSize previous)) ∧
      (TabsFirst line → TabsFirst previous →
        Orders (width tabSize) line previous (inserted.map Lexeme.kind)) := by
  obtain ⟨all, s', hreads⟩ := readAll_eq_none_iff.mp hread
  obtain ⟨out, _, s, hbefore, hlast, -⟩ := hreads.of_append
  cases hlast with
  | cons first =>
      rw [read_newline hl] at first
      have hlinesBefore : HasLines before := fun k hk => hlines k (List.mem_append_left _ hk)
      have htop := hbefore.isTop hlinesBefore (.start tabSize)
      have hbrackets := hbefore.brackets_eq.trans houtside
      obtain ⟨inserted, hemitted, horders⟩ := orders_level htop hbrackets hline first
      rw [hbefore.previous_eq, ← hprevious] at horders
      refine ⟨out, s, inserted, hbefore, by rwa [read_newline hl], horders,
        horders.iff_compare, fun htabs htabs' => horders.iff_compare.mpr ?_⟩
      rw [htabs.width_eq_level, htabs'.width_eq_level]

/-- A line indented by eight blanks, and one by seven blanks and a tab. With tab stops at every eight
columns both begin in the same column. -/
def blanksThenTab : List (Lexeme String) :=
  [⟨"_NEWLINE", "\n        ", some 1, some 1, some 2, some 9⟩,
    ⟨"_NEWLINE", "\n       \t", some 2, some 9, some 3, some 9⟩]

theorem hasLines_blanksThenTab : HasLines blanksThenTab := by
  intro l hl _
  simp only [blanksThenTab, List.mem_cons, List.not_mem_nil, or_false] at hl
  rcases hl with rfl | rfl <;> exact ⟨_, [], rfl, List.all_eq_true.mp (by decide)⟩

theorem not_orders_blanksThenTab :
    HasLines blanksThenTab ∧ (readAll 8 blanksThenTab).2 = none ∧
      ∃ out s inserted, Reads 8 {} (blanksThenTab.take 1) out s ∧
        (s.read 8 blanksThenTab[1]).emitted = blanksThenTab[1] :: inserted ∧
        ¬Orders (width 8) (indentation blanksThenTab[1].text.toList)
          (indentation blanksThenTab[0].text.toList) (inserted.map Lexeme.kind) := by
  have hlines : HasLines (blanksThenTab.take 1 ++ [blanksThenTab[1]]) := hasLines_blanksThenTab
  have hread : (readAll 8 (blanksThenTab.take 1 ++ [blanksThenTab[1]])).2 = none := by decide
  obtain ⟨out, s, inserted, hreads, hemitted, -, hiff, -⟩ :=
    orders_width_iff hlines hread rfl rfl ⟨[], rfl, List.all_eq_true.mp (by decide)⟩ rfl
  refine ⟨hlines, hread, out, s, inserted, hreads, hemitted, fun horders => ?_⟩
  exact absurd (hiff.mp horders) (by decide)

/-- The second line is read as deeper than the first, though it begins in the same column. -/
theorem readAll_blanksThenTab :
    HasLines blanksThenTab ∧
      width 8 (indentation blanksThenTab[1].text.toList) =
        width 8 (indentation blanksThenTab[0].text.toList) ∧
      readAll 8 blanksThenTab =
        ([blanksThenTab[0], blanksThenTab[0].borrow "_INDENT" "        ",
          blanksThenTab[1], blanksThenTab[1].borrow "_INDENT" "       \t",
          blanksThenTab[1].borrow "_DEDENT" "", blanksThenTab[1].borrow "_DEDENT" ""], none) :=
  ⟨hasLines_blanksThenTab, by decide, by decide⟩

end SyntaxTriage.Layout
