import SyntaxTriage.Proofs.Layout.Growth
import SyntaxTriage.Proofs.Layout.Levels

/-!
Lines to return to. Where every open level has an indentation of its own, each deeper than those
around it however wide tabs are, a line can return to any of the levels by the indentation of that
level, or open one more by the indentation of the line before and some blanks. If there are enough
of these blanks, blanks alone lead back to all levels that have been open before.
-/

namespace SyntaxTriage.Layout

variable {κ : Type} [LayoutKind κ] {tabSize count : Nat} {s s' : Layout} {l : Lexeme κ}
  {line inner outer : List Char} {lines : List (List Char)}

/-! ### Deeper lines -/

/-- One line is deeper than another one, however wide tabs are. -/
structure Deeper (inner outer : List Char) : Prop where
  level_lt (tabSize : Nat) : level tabSize outer < level tabSize inner
  width_lt {tabSize : Nat} (htab : 0 < tabSize) : width tabSize outer < width tabSize inner

theorem Deeper.trans {outermost : List Char} (h : Deeper inner outer)
    (h' : Deeper outer outermost) : Deeper inner outermost :=
  ⟨fun tabSize => Nat.lt_trans (h'.level_lt tabSize) (h.level_lt tabSize),
    fun htab => Nat.lt_trans (h'.width_lt htab) (h.width_lt htab)⟩

theorem Deeper.not_inconsistent (h : Deeper inner outer) (htab : 0 < tabSize) :
    inconsistent tabSize outer inner = false := by
  have hcompare : compare (width tabSize outer) (width tabSize inner) =
      compare (width 1 outer) (width 1 inner) := by
    rw [Nat.compare_eq_lt.mpr (h.width_lt htab),
      Nat.compare_eq_lt.mpr (h.width_lt Nat.zero_lt_one)]
  exact decide_eq_false (not_not_intro hcompare)

theorem level_append_blanks (tabSize : Nat) (line : List Char) (count : Nat) :
    level tabSize (line ++ List.replicate count ' ') = level tabSize line + count := by
  rw [level, level, List.count_append, List.count_append, List.count_replicate_self,
    List.count_replicate, if_neg (by decide), Nat.add_zero]
  omega

theorem level_blanks (tabSize count : Nat) : level tabSize (List.replicate count ' ') = count := by
  simpa [level] using level_append_blanks tabSize [] count

theorem width_append_blanks (tabSize : Nat) (line : List Char) (count : Nat) :
    width tabSize (line ++ List.replicate count ' ') = width tabSize line + count := by
  rw [width, List.foldl_append, foldl_blanks]
  rfl

theorem width_blanks (tabSize count : Nat) : width tabSize (List.replicate count ' ') = count := by
  simpa [width] using width_append_blanks tabSize [] count

theorem deeper_append_blanks (line : List Char) (h : 0 < count) :
    Deeper (line ++ List.replicate count ' ') line := by
  refine ⟨fun tabSize => ?_, fun _ => ?_⟩
  · rw [level_append_blanks]
    omega
  · rw [width_append_blanks]
    omega

/-- Enough blanks behind a line are deeper than blanks alone. -/
theorem deeper_blanks {fewer : Nat} (line : List Char) (h : fewer < count) :
    Deeper (line ++ List.replicate count ' ') (List.replicate fewer ' ') := by
  refine ⟨fun tabSize => ?_, fun _ => ?_⟩
  · rw [level_append_blanks, level_blanks]
    omega
  · rw [width_append_blanks, width_blanks]
    omega

/-! ### Turning -/

/-- The open levels are those of the lines, and the line before stands at the innermost of them. -/
structure Stands (tabSize : Nat) (s : Layout) (lines : List (List Char)) : Prop where
  levels : s.levels = lines.map (level tabSize)
  previous : lines.head? = some s.previous
  deeper : lines.Pairwise Deeper
  margin : lines.getLast? = some []
  indents : ∀ line ∈ lines, ∀ c ∈ line, isIndentChar c = true

theorem stands_margin (hlevels : s.levels = [0]) (hprevious : s.previous = []) :
    Stands tabSize s [[]] :=
  ⟨hlevels, congrArg some hprevious.symm, List.pairwise_singleton _ _, rfl, by simp⟩

theorem read_deeper (hl : LayoutKind.role l.kind = .newline) (hs : s.brackets = 0)
    (hline : LeadsTo l line) (hconsistent : inconsistent tabSize line s.previous = false)
    (habove : s.levels.head?.any (· < level tabSize line) = true) :
    s.read tabSize l = ⟨[l, l.borrow LayoutKind.indent (String.ofList line)],
      .ok { s with levels := level tabSize line :: s.levels, previous := line }⟩ := by
  rw [read_newline hl]
  unfold readNewline
  rw [if_neg (by omega)]
  simp only [hline.indentation, hline.lastLine?, hconsistent]
  rw [if_neg Bool.false_ne_true, if_pos habove]

theorem indents_append_blanks (h : ∀ c ∈ line, isIndentChar c = true) (count : Nat) :
    ∀ c ∈ line ++ List.replicate count ' ', isIndentChar c = true := by
  intro c hc
  rcases List.mem_append.mp hc with hc | hc
  · exact h c hc
  · rw [List.eq_of_mem_replicate hc]
    rfl

/-- A line opens one level more by blanks behind the indentation of the line before. -/
theorem Stands.read_deeper (h : Stands tabSize s lines) (htab : 0 < tabSize)
    (hl : LayoutKind.role l.kind = .newline) (hs : s.brackets = 0) (hcount : 0 < count)
    (hline : LeadsTo l (s.previous ++ List.replicate count ' ')) :
    ∃ text s', s.read tabSize l = ⟨[l, l.borrow LayoutKind.indent text], .ok s'⟩ ∧
      Stands tabSize s' ((s.previous ++ List.replicate count ' ') :: lines) := by
  have hdeeper := deeper_append_blanks s.previous hcount
  obtain ⟨outer, hlines⟩ := List.head?_eq_some_iff.mp h.previous
  refine ⟨_, _, Layout.read_deeper hl hs hline ?_ ?_, ?_, rfl, ?_, ?_, ?_⟩
  · exact Nested.not_inconsistent htab (.inr (List.prefix_append ..))
  · rw [h.levels, hlines]
    exact decide_eq_true (hdeeper.level_lt tabSize)
  · exact congrArg (List.cons _) h.levels
  · refine List.pairwise_cons.mpr ⟨fun line hmem => ?_, h.deeper⟩
    rw [hlines] at hmem
    rcases List.mem_cons.mp hmem with rfl | hmem
    · exact hdeeper
    · have houter := h.deeper
      rw [hlines] at houter
      exact hdeeper.trans ((List.pairwise_cons.mp houter).1 line hmem)
  · rw [List.getLast?_cons, h.margin]
    rfl
  · refine List.forall_mem_cons.mpr ⟨indents_append_blanks ?_ count, h.indents⟩
    exact h.indents _ (List.mem_of_mem_head? h.previous)

/-- A line returns to a level by the indentation of that level. -/
theorem Stands.read_back {ended rest : List (List Char)}
    (h : Stands tabSize s (ended ++ line :: rest)) (htab : 0 < tabSize)
    (hl : LayoutKind.role l.kind = .newline) (hs : s.brackets = 0) (hline : LeadsTo l line) :
    ∃ text s', s.read tabSize l =
        ⟨l :: ended.map fun _ => l.borrow LayoutKind.dedent text, .ok s'⟩ ∧
      Stands tabSize s' (line :: rest) := by
  obtain ⟨-, hrest, hended⟩ := List.pairwise_append.mp h.deeper
  have habove (a : List Char) (ha : a ∈ ended) : level tabSize line < level tabSize a :=
    (hended a ha line List.mem_cons_self).level_lt tabSize
  have hconsistent : inconsistent tabSize line s.previous = false := by
    have hprevious := h.previous
    cases ended with
    | nil =>
        obtain rfl : line = s.previous := Option.some.inj hprevious
        exact Nested.not_inconsistent htab (.inl List.prefix_rfl)
    | cons first ended =>
        obtain rfl : first = s.previous := Option.some.inj hprevious
        exact (hended _ List.mem_cons_self line List.mem_cons_self).not_inconsistent htab
  have hhead : ¬s.levels.head?.any (· < level tabSize line) = true := by
    rw [h.levels]
    cases ended with
    | nil => simp
    | cons first ended => simpa using Nat.le_of_lt (habove first List.mem_cons_self)
  have hread : s.read tabSize l =
      ⟨l :: ended.map fun _ => l.borrow LayoutKind.dedent (String.ofList line),
        .ok { s with levels := (line :: rest).map (level tabSize), previous := line }⟩ := by
    rw [read_newline hl]
    unfold readNewline
    rw [if_neg (by omega)]
    simp only [hline.indentation, hline.lastLine?, hconsistent]
    rw [if_neg Bool.false_ne_true, if_neg hhead, h.levels, takeWhile_levels habove (Nat.lt_irrefl _),
      dropWhile_levels habove (Nat.lt_irrefl _), List.map_map, List.map_cons, List.head?_cons,
      if_pos rfl]
    rfl
  have hmem (a : List Char) (ha : a ∈ line :: rest) : a ∈ ended ++ line :: rest :=
    List.mem_append_right ended ha
  refine ⟨_, _, hread, rfl, rfl, hrest, ?_, fun a ha => h.indents a (hmem a ha)⟩
  rw [← h.margin, List.getLast?_append_of_ne_nil _ (List.cons_ne_nil line rest)]

/-- An indentation deeper than that of the line before, and than as many blanks as the innermost
level has columns. -/
def deeperLine (s : Layout) : List Char := s.previous ++ List.replicate (s.top + 1) ' '

theorem indents_deeperLine (h : ∀ c ∈ s.previous, isIndentChar c = true) :
    ∀ c ∈ s.deeperLine, isIndentChar c = true :=
  indents_append_blanks h _

/-- Whatever the lines before have been, a line can open one level more, and blanks lead back. -/
theorem exists_stands (htab : 0 < tabSize) (hl : LayoutKind.role l.kind = .newline)
    (hs : s.brackets = 0) (hmargin : 0 ∈ s.levels) (hfalls : s.levels.Pairwise (· > ·))
    (hprevious : ∀ c ∈ s.previous, isIndentChar c = true)
    (hline : LeadsTo l s.deeperLine) :
    ∃ text s', s.read tabSize l = ⟨[l, l.borrow LayoutKind.indent text], .ok s'⟩ ∧
      Stands tabSize s' (s.deeperLine :: s.levels.map (List.replicate · ' ')) := by
  have hhead := head?_levels (List.ne_nil_of_mem hmargin)
  have hle (level : Nat) (hlevel : level ∈ s.levels) : level ≤ s.top := by
    obtain ⟨outer, hlevels⟩ := List.head?_eq_some_iff.mp hhead
    rw [hlevels] at hlevel hfalls
    rcases List.mem_cons.mp hlevel with rfl | hlevel
    · exact Nat.le_refl _
    · exact Nat.le_of_lt ((List.pairwise_cons.mp hfalls).1 level hlevel)
  refine ⟨_, _, read_deeper hl hs hline ?_ ?_, ?_, rfl, ?_, ?_, ?_⟩
  · exact Nested.not_inconsistent htab (.inr (List.prefix_append ..))
  · rw [hhead, deeperLine, level_append_blanks]
    exact decide_eq_true (by omega)
  · have hmap : (s.levels.map (List.replicate · ' ')).map (level tabSize) = s.levels := by
      rw [List.map_map]
      exact List.map_id'' (fun count => level_blanks tabSize count) s.levels
    rw [List.map_cons, hmap]
  · refine List.pairwise_cons.mpr ⟨?_, List.pairwise_map.mpr ?_⟩
    · intro line hline
      obtain ⟨level, hlevel, rfl⟩ := List.mem_map.mp hline
      exact deeper_blanks s.previous (Nat.lt_succ_of_le (hle level hlevel))
    · exact hfalls.imp fun h => deeper_blanks [] h
  · rw [List.getLast?_cons, List.getLast?_map, getLast?_levels hfalls hmargin]
    rfl
  · refine List.forall_mem_cons.mpr ⟨indents_deeperLine hprevious, fun line hline => ?_⟩
    obtain ⟨level, -, rfl⟩ := List.mem_map.mp hline
    exact fun c hc => List.eq_of_mem_replicate hc ▸ rfl

/-! ### The line before -/

theorem indents_previous (h : (s.read tabSize l).next = .ok s')
    (hs : ∀ c ∈ s.previous, isIndentChar c = true) :
    ∀ c ∈ s'.previous, isIndentChar c = true := by
  rw [previous_read h]
  split
  · exact fun c hc => List.mem_takeWhile_imp hc
  · exact hs

/-- The indentation of the line before is not above the innermost level. -/
theorem level_previous_le (h : (s.read tabSize l).next = .ok s')
    (hs : level tabSize s.previous ≤ s.top) : level tabSize s'.previous ≤ s'.top := by
  have hindentation {line : List Char} (hline : lastLine? l.text.toList = some line) :
      level tabSize (indentation l.text.toList) ≤ level tabSize line := by
    rw [indentation, hline, Option.getD_some]
    have hsub := List.takeWhile_sublist (l := line) isIndentChar
    exact Nat.add_le_add (hsub.count_le ' ') (Nat.mul_le_mul_left tabSize (hsub.count_le '\t'))
  have hstep := atLexeme tabSize s l
  generalize s.read tabSize l = step at h hstep
  cases hstep with
  | newline role found =>
      cases found with
      | bracketed =>
          cases h
          exact hs
      | deeper _ _ text =>
          cases h
          exact hindentation text
      | returns _ _ text _ known =>
          cases h
          rw [top, List.headD_eq_head?_getD, known, Option.getD_some]
          exact hindentation text
      | mixed | unbroken | astray => cases h
  | opening | closing | other =>
      cases h
      exact hs
  | unopened => cases h

end SyntaxTriage.Layout
