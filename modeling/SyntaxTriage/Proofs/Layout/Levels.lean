import SyntaxTriage.Proofs.Layout.Balance
import SyntaxTriage.Proofs.Layout.Width

/-!
The open levels. They fall strictly from the line before to the left margin, and there is one more of
them than levels have been opened and not closed. A line break therefore closes exactly the levels
above that of its line, and is refused if that one was not open.
-/

namespace SyntaxTriage.Layout

variable {κ : Type} [LayoutKind κ] {tabSize new : Nat} {levels : List Nat} {s s' : Layout}
  {l : Lexeme κ} {ls before after out : List (Lexeme κ)} {line : List Char}

def top (s : Layout) : Nat := s.levels.headD 0

/-- How many of the lexemes handed on pass the test, without those that the input itself holds;
`depth` brackets are open before the input. -/
def putIn (test : Lexeme κ → Bool) (depth : Nat) (ls out : List (Lexeme κ)) : Int :=
  out.countP test - (withoutInnerBreaks depth ls).countP test

/-- The levels that are open behind the lexemes `before`, where `out` has been handed on. -/
structure Stacked [DecidableEq κ] (tabSize : Nat) (before out : List (Lexeme κ)) (s : Layout) :
    Prop where
  margin : s.levels.getLast? = some 0
  falls : s.levels.Pairwise (· > ·)
  count : (s.levels.length : Int) = 1 + putIn isIndent 0 before out - putIn isDedent 0 before out
  top : s.top = level tabSize s.previous

/-- What comes of a line break outside brackets that leads to the line. -/
structure BreaksTo (tabSize : Nat) (s : Layout) (l : Lexeme κ) (line : List Char)
    (step : LayoutStep κ) : Prop where
  tabError : (∃ location, step.next = .error (.lexical ⟨.tabError, location⟩)) ↔
    inconsistent tabSize line s.previous = true
  /-- The line break itself is not handed on either. -/
  mixed : inconsistent tabSize line s.previous = true → step.emitted = []
  deeper : inconsistent tabSize line s.previous = false → s.top < level tabSize line →
    step.emitted = [l, l.borrow LayoutKind.indent (String.ofList line)]
  returns : inconsistent tabSize line s.previous = false → level tabSize line ≤ s.top →
    step.emitted = l :: List.replicate (s.levels.countP (level tabSize line < ·))
      (l.borrow LayoutKind.dedent (String.ofList line))
  indentationError :
    (∃ location, step.next = .error (.lexical ⟨.indentationError, location⟩)) ↔
      inconsistent tabSize line s.previous = false ∧ level tabSize line < s.top ∧
        level tabSize line ∉ s.levels
  goesOn : (∃ s', step.next = .ok s') ↔ inconsistent tabSize line s.previous = false ∧
    (level tabSize line < s.top → level tabSize line ∈ s.levels)

/-! ### Falling levels -/

theorem length_takeWhile_levels (h : levels.Pairwise (· > ·)) :
    (levels.takeWhile (new < ·)).length = levels.countP (new < ·) := by
  induction levels with
  | nil => rfl
  | cons level levels ih =>
      obtain ⟨hbelow, hlevels⟩ := List.pairwise_cons.mp h
      rw [List.takeWhile_cons, List.countP_cons]
      split
      · rw [List.length_cons, ih hlevels]
      · rename_i hlevel
        rw [decide_eq_true_eq, Nat.not_lt] at hlevel
        refine (List.countP_eq_zero.mpr fun old hold => ?_).symm
        have hold := hbelow old hold
        rw [decide_eq_true_eq]
        omega

/-- A level that is returned to is one of the open ones, and the other way round. -/
theorem head?_dropWhile_levels (h : levels.Pairwise (· > ·)) :
    (levels.dropWhile (new < ·)).head? = some new ↔ new ∈ levels := by
  induction levels with
  | nil => simp
  | cons level levels ih =>
      obtain ⟨hbelow, hlevels⟩ := List.pairwise_cons.mp h
      rw [List.dropWhile_cons, List.mem_cons]
      split
      · rename_i hlevel
        rw [decide_eq_true_eq] at hlevel
        rw [ih hlevels]
        exact (or_iff_right (Nat.ne_of_lt hlevel)).symm
      · rename_i hlevel
        rw [decide_eq_true_eq] at hlevel
        rw [List.head?_cons, Option.some.injEq, eq_comm]
        exact (or_iff_left fun hnew => hlevel (hbelow new hnew)).symm

theorem getLast?_levels (h : levels.Pairwise (· > ·)) (hmargin : 0 ∈ levels) :
    levels.getLast? = some 0 := by
  obtain ⟨outer, inner, rfl⟩ := List.append_of_mem hmargin
  have hinner := (List.pairwise_cons.mp (List.pairwise_append.mp h).2.1).1
  cases inner with
  | nil => exact List.getLast?_concat
  | cons level inner => exact absurd (hinner level List.mem_cons_self) (Nat.not_lt_zero level)

theorem head?_levels (h : s.levels ≠ []) : s.levels.head? = some s.top := by
  rw [top, List.headD_eq_head?_getD, List.head?_eq_some_head h, Option.getD_some]

theorem falls_read (h : (s.read tabSize l).next = .ok s') (hs : s.levels.Pairwise (· > ·)) :
    s'.levels.Pairwise (· > ·) := by
  have hstep := atLexeme tabSize s l
  generalize s.read tabSize l = step at h hstep
  cases hstep with
  | newline role found =>
      cases found with
      | bracketed =>
          cases h
          exact hs
      | deeper _ _ _ above =>
          cases h
          have hbelow := @lt_of_head?_any Nat id _ _ (by simpa using above) hs
          exact List.pairwise_cons.mpr ⟨hbelow, hs⟩
      | returns =>
          cases h
          exact hs.sublist (List.dropWhile_sublist _)
      | mixed | unbroken | astray => cases h
  | opening | closing | other =>
      cases h
      exact hs
  | unopened => cases h

theorem Reads.falls (h : Reads tabSize s ls out s') (hs : s.levels.Pairwise (· > ·)) :
    s'.levels.Pairwise (· > ·) := by
  induction h with
  | nil => exact hs
  | cons first _ ih => exact ih (falls_read first hs)

/-! ### The number of levels -/

theorem putIn_cons (test : Lexeme κ → Bool) (depth : Nat) (l : Lexeme κ)
    (ls emitted out : List (Lexeme κ)) :
    putIn test depth (l :: ls) (emitted ++ out) =
      putIn test depth [l] emitted + putIn test (bracketsBehind depth l) ls out := by
  simp only [putIn, withoutInnerBreaks, List.append_nil, List.countP_append]
  omega

/-- A lexeme that is handed on is not counted. -/
theorem putIn_taken {depth : Nat} (hl : ¬(LayoutKind.role l.kind = .newline ∧ 0 < depth))
    (test : Lexeme κ → Bool) (inserted : List (Lexeme κ)) :
    putIn test depth [l] (l :: inserted) = inserted.countP test := by
  simp only [putIn, withoutInnerBreaks, if_neg hl, List.append_nil, List.countP_cons,
    List.countP_nil]
  omega

section Count

variable [DecidableEq κ] [LawfulLayoutKind κ]

/-- A lexeme changes the number of levels by what is put in at it. -/
theorem length_levels_read (h : (s.read tabSize l).next = .ok s') :
    (s'.levels.length : Int) = s.levels.length +
      putIn isIndent s.brackets [l] (s.read tabSize l).emitted -
        putIn isDedent s.brackets [l] (s.read tabSize l).emitted := by
  have hstep := atLexeme tabSize s l
  generalize s.read tabSize l = step at h hstep
  cases hstep with
  | newline role found =>
      cases found with
      | bracketed inside =>
          cases h
          simp [putIn, withoutInnerBreaks, role, inside]
      | @deeper line outside =>
          cases h
          have hindent := isIndent_borrow l (String.ofList line)
          rw [putIn_taken (by omega), putIn_taken (by omega), List.countP_singleton,
            List.countP_singleton, hindent, isDedent_of_isIndent hindent]
          simp
      | @returns line outside =>
          cases h
          have hdedent := isDedent_borrow l (String.ofList line)
          have hlength := congrArg List.length (List.takeWhile_append_dropWhile
            (p := fun old => decide (level tabSize line < old)) (l := s.levels))
          rw [List.length_append] at hlength
          rw [putIn_taken (by omega), putIn_taken (by omega), List.map_const',
            List.countP_replicate, List.countP_replicate, hdedent, isIndent_of_isDedent hdedent,
            if_pos rfl, if_neg Bool.false_ne_true]
          simp only
          omega
      | mixed | unbroken | astray => cases h
  | opening role | closing role | other role =>
      cases h
      rw [putIn_taken (by simp [role]), putIn_taken (by simp [role])]
      simp
  | unopened => cases h

theorem Reads.length_levels (h : Reads tabSize s ls out s') :
    (s'.levels.length : Int) =
      s.levels.length + putIn isIndent s.brackets ls out - putIn isDedent s.brackets ls out := by
  induction h with
  | nil => simp [putIn, withoutInnerBreaks]
  | cons first _ ih =>
      have hfirst := length_levels_read first
      rw [ih, putIn_cons, putIn_cons, ← brackets_read first]
      omega

/-- At every place of a run the levels are stacked. -/
theorem Reads.stacked (h : Reads tabSize {} before out s) (hlines : HasLines before) :
    Stacked tabSize before out s where
  margin := getLast?_levels (h.falls (List.pairwise_singleton ..)) (h.margin (by simp))
  falls := h.falls (List.pairwise_singleton ..)
  count := h.length_levels
  top := by
    rw [top, List.headD_eq_head?_getD, h.isTop hlines (.start tabSize), Option.getD_some]

end Count

/-! ### One line break -/

theorem breaksTo (hl : LayoutKind.role l.kind = .newline) (houtside : s.brackets = 0)
    (hline : LeadsTo l line) (hfalls : s.levels.Pairwise (· > ·)) (hlevels : s.levels ≠ []) :
    BreaksTo tabSize s l line (s.read tabSize l) := by
  have hhead := head?_levels hlevels
  have htop : s.top ∈ s.levels := List.mem_of_mem_head? hhead
  have hlength := @length_takeWhile_levels (level tabSize line) _ hfalls
  have hopen := @head?_dropWhile_levels (level tabSize line) _ hfalls
  have hstep := atNewline tabSize s l
  rw [← read_newline hl] at hstep
  generalize s.read tabSize l = step at hstep ⊢
  cases hstep with
  | bracketed inside => omega
  | mixed _ mixed =>
      rw [hline.indentation] at mixed
      constructor <;> simp [mixed]
  | unbroken _ _ text => simp [hline.lastLine?] at text
  | deeper _ consistent text above =>
      cases hline.lastLine?.symm.trans text
      rw [hline.indentation] at consistent
      rw [hhead, Option.any_some, decide_eq_true_eq] at above
      constructor <;> simp [consistent, above, Nat.not_le_of_lt above, Nat.lt_asymm above]
  | returns _ consistent text notAbove known =>
      cases hline.lastLine?.symm.trans text
      rw [hline.indentation] at consistent
      rw [hhead, Option.any_some, decide_eq_false_iff_not] at notAbove
      have hknown := hopen.mp known
      constructor <;> simp [consistent, notAbove, hknown, hlength]
  | astray _ consistent text notAbove unknown =>
      cases hline.lastLine?.symm.trans text
      rw [hline.indentation] at consistent
      rw [hhead, Option.any_some, decide_eq_false_iff_not] at notAbove
      have hunknown := mt hopen.mpr unknown
      have hbelow : level tabSize line < s.top :=
        Nat.lt_of_le_of_ne (Nat.not_lt.mp notAbove) fun h => hunknown (h ▸ htop)
      constructor <;> simp [consistent, notAbove, hunknown, hlength, hbelow]

/-! ### Main result -/

/-- Main result. At every place of a run the levels fall strictly from that of the line before to the
margin, and there is one more of them than have been opened and not closed. A line break outside
brackets is refused for mixed tabs before it is handed on, or it is handed on and opens one level or
closes all levels above its line; then it is refused if its line is not on an open level. -/
theorem readAll_stacked [DecidableEq κ] [LawfulLayoutKind κ] (tabSize : Nat)
    (hlines : HasLines (before ++ after)) (hread : (readAll tabSize before).2 = none) :
    ∃ out s, Reads tabSize {} before out s ∧ Stacked tabSize before out s ∧
      readAll tabSize (before ++ after) =
        (out ++ (readFrom tabSize s before.getLast? after).1,
          (readFrom tabSize s before.getLast? after).2) ∧
      ∀ l rest, after = l :: rest → LayoutKind.role l.kind = .newline → s.brackets = 0 →
        ∃ line, LeadsTo l line ∧ BreaksTo tabSize s l line (s.read tabSize l) := by
  obtain ⟨out, s, hreads⟩ := readAll_eq_none_iff.mp hread
  have hstacked := hreads.stacked fun k hk => hlines k (List.mem_append_left after hk)
  refine ⟨out, s, hreads, hstacked, ?_, ?_⟩
  · have hall := hreads.readFrom_append none after
    rwa [Option.or_none] at hall
  · rintro l rest rfl hl houtside
    obtain ⟨line, hline⟩ := hlines l (by simp) hl
    have hlevels : s.levels ≠ [] := by
      intro hnil
      have hmargin := hstacked.margin
      rw [hnil] at hmargin
      contradiction
    exact ⟨line, hline, breaksTo hl houtside hline hstacked.falls hlevels⟩

def stairs : List (Lexeme String) :=
  [⟨"_NEWLINE", "\n  ", some 1, some 1, some 2, some 3⟩,
    ⟨"_NEWLINE", "\n    ", some 2, some 3, some 3, some 5⟩,
    ⟨"_NEWLINE", "\n      ", some 3, some 5, some 4, some 7⟩,
    ⟨"_NEWLINE", "\n   ", some 4, some 7, some 5, some 4⟩]

theorem hasLines_stairs : HasLines stairs := by
  intro l hl _
  simp only [stairs, List.mem_cons, List.not_mem_nil, or_false] at hl
  rcases hl with rfl | rfl | rfl | rfl <;> exact ⟨_, [], rfl, List.all_eq_true.mp (by decide)⟩

/-- The last line closes two levels and is then refused. -/
theorem readAll_stacked_stairs :
    HasLines (stairs.take 3 ++ stairs.drop 3) ∧ (readAll 8 (stairs.take 3)).2 = none ∧
      ∃ out s, Reads 8 {} (stairs.take 3) out s ∧ Stacked 8 (stairs.take 3) out s ∧
        s.levels = [6, 4, 2, 0] ∧
        (s.read 8 stairs[3]).emitted =
          stairs[3] :: List.replicate 2 (stairs[3].borrow "_DEDENT" "   ") ∧
        ∃ location, (s.read 8 stairs[3]).next = .error (.lexical ⟨.indentationError, location⟩) := by
  have hlines : HasLines (stairs.take 3 ++ stairs.drop 3) := hasLines_stairs
  have hread : (readAll 8 (stairs.take 3)).2 = none := by decide
  obtain ⟨out, s, hreads, hstacked, -, hbreak⟩ := readAll_stacked 8 hlines hread
  have hplace : Reads 8 {} (stairs.take 3) _ ⟨0, [6, 4, 2, 0], "      ".toList⟩ :=
    .cons rfl (.cons rfl (.cons rfl .nil))
  obtain ⟨-, rfl⟩ := hreads.unique hplace
  obtain ⟨line, hline, hbreak⟩ := hbreak stairs[3] [] rfl rfl rfl
  cases hline.indentation
  exact ⟨hlines, hread, out, _, hreads, hstacked, rfl, hbreak.returns (by decide) (by decide),
    hbreak.indentationError.mpr (by decide)⟩

end SyntaxTriage.Layout
