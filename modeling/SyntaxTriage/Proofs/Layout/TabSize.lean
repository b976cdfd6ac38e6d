import Mathlib.Data.List.TakeWhile
import SyntaxTriage.Proofs.Layout.Reading

/-!
What the width of tabs changes. Two readers that differ only in the width of tabs stay in step as
long as every line is ordered in the same way with both against all lines that are still open. The
check for mixed tabs compares a line with the line before it and with no other: a line that returns
to a level from further up may still be read in two ways.
-/

namespace SyntaxTriage.Layout

variable {κ : Type} [LayoutKind κ] {tabSize : Nat} {s s' t t' : Layout} {l : Lexeme κ}
  {ls : List (Lexeme κ)} {line : List Char} {seen openers : List (List Char)}

/-- The text holds a line break, and nothing but `line` behind the last one, which is all blanks and
tabs. -/
def LeadsTo (l : Lexeme κ) (line : List Char) : Prop :=
  ∃ before, l.text.toList = before ++ '\n' :: line ∧ ∀ c ∈ line, isIndentChar c = true

def HasLines (input : List (Lexeme κ)) : Prop :=
  ∀ l ∈ input, LayoutKind.role l.kind = .newline → ∃ line, LeadsTo l line

/-- The indentations of the lines that begin outside brackets, in order. -/
def logicalLines : (depth : Nat) → List (Lexeme κ) → List (List Char)
  | _, [] => []
  | depth, l :: ls =>
    (if LayoutKind.role l.kind = .newline ∧ depth = 0 then [indentation l.text.toList] else []) ++
      logicalLines (bracketsBehind depth l) ls

/-- Behind `before` the line break begins a logical line that tabs of this width and tabs as wide as
blanks put in different orders with the logical line before it. -/
structure Mixed (tabSize : Nat) (before : List (Lexeme κ)) (l : Lexeme κ) : Prop where
  newline : LayoutKind.role l.kind = .newline
  outside : before.foldl bracketsBehind 0 = 0
  inconsistent : inconsistent tabSize (indentation l.text.toList)
    ((logicalLines 0 before).getLastD []) = true

/-- A line is open up to the first line of a lower level. Of the lines seen the last one comes
first. -/
inductive IsOpen (tabSize : Nat) : (seen : List (List Char)) → List Char → Prop
  | last {seen : List (List Char)} {line : List Char} : IsOpen tabSize (line :: seen) line
  | behind {seen : List (List Char)} {line next : List Char} (before : IsOpen tabSize seen line)
      (notBelow : level tabSize line ≤ level tabSize next) : IsOpen tabSize (next :: seen) line

/-- A line is ordered against the open lines as it would be if tabs were blanks. -/
def Ordered (tabSize : Nat) (seen : List (List Char)) (line : List Char) : Prop :=
  ∀ old, IsOpen tabSize seen old →
    compare (level tabSize old) (level tabSize line) = compare (level 1 old) (level 1 line)

def AllOrdered (tabSize : Nat) : (seen lines : List (List Char)) → Prop
  | _, [] => True
  | seen, line :: lines => Ordered tabSize seen line ∧ AllOrdered tabSize (line :: seen) lines

/-- Two readers, the second with tabs as wide as blanks, read all of the lexemes and hand on the
same kinds for each. -/
inductive InStep (tabSize : Nat) : Layout → Layout → List (Lexeme κ) → Prop
  | nil {s t : Layout} : InStep tabSize s t []
  | cons {s s' t t' : Layout} {l : Lexeme κ} {ls : List (Lexeme κ)}
      (first : (s.read tabSize l).next = .ok s') (second : (t.read 1 l).next = .ok t')
      (kinds : (s.read tabSize l).emitted.map Lexeme.kind = (t.read 1 l).emitted.map Lexeme.kind)
      (behind : InStep tabSize s' t' ls) : InStep tabSize s t (l :: ls)

/-! ### Lines -/

omit [LayoutKind κ] in
theorem LeadsTo.lastLine? (h : LeadsTo l line) : lastLine? l.text.toList = some line := by
  obtain ⟨before, htext, hline⟩ := h
  have hnone : ∀ c ∈ line.reverse, decide (c ≠ '\n') = true := by
    intro c hc
    have hc := hline c (List.mem_reverse.mp hc)
    rw [decide_eq_true_eq]
    rintro rfl
    contradiction
  rw [htext, Layout.lastLine?, if_pos (by simp), List.reverse_append, List.reverse_cons,
    List.append_assoc, List.takeWhile_append_of_pos hnone]
  simp

omit [LayoutKind κ] in
theorem LeadsTo.indentation (h : LeadsTo l line) : indentation l.text.toList = line := by
  rw [Layout.indentation, h.lastLine?, Option.getD_some]
  obtain ⟨-, -, hline⟩ := h
  exact List.takeWhile_eq_self_iff.mpr hline

/-- Where tabs are as wide as blanks the check for mixed tabs never fails. -/
theorem not_inconsistent_one (indent previous : List Char) :
    inconsistent 1 indent previous = false := by
  simp [inconsistent]

theorem compare_eq_compare_iff {a b c d : Nat} :
    compare a b = compare c d ↔ (a < b ↔ c < d) ∧ (b < a ↔ d < c) := by
  rcases Nat.lt_trichotomy a b with h | h | h
  · rw [Nat.compare_eq_lt.mpr h, eq_comm, Nat.compare_eq_lt]
    omega
  · rw [Nat.compare_eq_eq.mpr h, eq_comm, Nat.compare_eq_eq]
    omega
  · rw [Nat.compare_eq_gt.mpr h, eq_comm, Nat.compare_eq_gt]
    omega

/-! ### Open lines -/

/-- The lines that have opened the levels, the innermost first. Every open line is on the level of
one of them. -/
structure Openers (tabSize : Nat) (seen openers : List (List Char)) : Prop where
  isOpen : ∀ old ∈ openers, IsOpen tabSize seen old
  covers : ∀ old, IsOpen tabSize seen old →
    ∃ opener ∈ openers, level tabSize opener = level tabSize old ∧ level 1 opener = level 1 old
  falls : openers.Pairwise fun inner outer =>
    level tabSize outer < level tabSize inner ∧ level 1 outer < level 1 inner

theorem Openers.ordered_iff (h : Openers tabSize seen openers) :
    Ordered tabSize seen line ↔ ∀ old ∈ openers,
      compare (level tabSize old) (level tabSize line) = compare (level 1 old) (level 1 line) := by
  constructor
  · exact fun hordered old hold => hordered old (h.isOpen old hold)
  · intro hordered old hold
    obtain ⟨opener, hopener, hlevel, hlevel₁⟩ := h.covers old hold
    rw [← hlevel, ← hlevel₁]
    exact hordered opener hopener

/-- A line above all levels opens one more. -/
theorem Openers.deeper (h : Openers tabSize seen openers)
    (habove : ∀ old ∈ openers, level tabSize old < level tabSize line ∧ level 1 old < level 1 line) :
    Openers tabSize (line :: seen) (line :: openers) where
  isOpen old hold := by
    rcases List.mem_cons.mp hold with rfl | hold
    · exact .last
    · exact .behind (h.isOpen old hold) (Nat.le_of_lt (habove old hold).1)
  covers old hold := by
    cases hold with
    | last => exact ⟨line, List.mem_cons_self, rfl, rfl⟩
    | behind before =>
        obtain ⟨opener, hopener, hlevels⟩ := h.covers old before
        exact ⟨opener, List.mem_cons_of_mem _ hopener, hlevels⟩
  falls := List.pairwise_cons.mpr ⟨habove, h.falls⟩

/-- A line on a level closes those above it. -/
theorem Openers.returns {ended rest : List (List Char)} {opener : List Char}
    (h : Openers tabSize seen (ended ++ opener :: rest))
    (hended : ∀ old ∈ ended, level tabSize line < level tabSize old)
    (hlevel : level tabSize opener = level tabSize line) (hlevel₁ : level 1 opener = level 1 line) :
    Openers tabSize (line :: seen) (opener :: rest) where
  isOpen old hold := by
    refine .behind (h.isOpen old (List.mem_append_right _ hold)) ?_
    rcases List.mem_cons.mp hold with rfl | hold
    · exact Nat.le_of_eq hlevel
    · have hfalls := (List.pairwise_append.mp h.falls).2.1
      have hbelow := (List.pairwise_cons.mp hfalls).1 old hold
      omega
  covers old hold := by
    cases hold with
    | last => exact ⟨opener, List.mem_cons_self, hlevel, hlevel₁⟩
    | behind before notBelow =>
        obtain ⟨found, hfound, hlevels⟩ := h.covers old before
        refine ⟨found, (List.mem_append.mp hfound).resolve_left fun hfound => ?_, hlevels⟩
        have habove := hended found hfound
        omega
  falls := (List.pairwise_append.mp h.falls).2.1

/-! ### Levels -/

section Levels

variable {α : Type} {measure : α → Nat} {n : Nat} {as ended rest : List α} {a : α}

theorem lt_of_head?_any (h : (as.map measure).head?.any (· < n) = true)
    (hfalls : as.Pairwise fun inner outer => measure outer < measure inner) :
    ∀ a ∈ as, measure a < n := by
  cases as with
  | nil => contradiction
  | cons first as =>
      have hfirst : measure first < n := of_decide_eq_true h
      intro a ha
      rcases List.mem_cons.mp ha with rfl | ha
      · exact hfirst
      · exact Nat.lt_trans ((List.pairwise_cons.mp hfalls).1 a ha) hfirst

theorem takeWhile_levels (hended : ∀ a ∈ ended, n < measure a) (hlevel : ¬n < measure a) :
    ((ended ++ a :: rest).map measure).takeWhile (n < ·) = ended.map measure := by
  rw [List.map_append, List.takeWhile_append_of_pos (by simpa using hended), List.map_cons,
    List.takeWhile_cons, if_neg (by simpa using hlevel), List.append_nil]

theorem dropWhile_levels (hended : ∀ a ∈ ended, n < measure a) (hlevel : ¬n < measure a) :
    ((ended ++ a :: rest).map measure).dropWhile (n < ·) = (a :: rest).map measure := by
  rw [List.map_append, List.dropWhile_append_of_pos (by simpa using hended), List.map_cons,
    List.dropWhile_cons, if_neg (by simpa using hlevel)]

/-- A level that is returned to parts the levels above it from the ones below. -/
theorem exists_split (h : ((as.map measure).dropWhile (n < ·)).head? = some n) :
    ∃ ended a rest, as = ended ++ a :: rest ∧ (∀ a ∈ ended, n < measure a) ∧ measure a = n := by
  induction as with
  | nil => contradiction
  | cons first as ih =>
      rw [List.map_cons, List.dropWhile_cons] at h
      split at h
      · rename_i hfirst
        obtain ⟨ended, a, rest, rfl, hended, hlevel⟩ := ih h
        refine ⟨first :: ended, a, rest, rfl, ?_, hlevel⟩
        exact List.forall_mem_cons.mpr ⟨of_decide_eq_true hfirst, hended⟩
      · exact ⟨[], first, as, rfl, by simp, Option.some.inj h⟩

end Levels

/-! ### Line breaks -/

structure Paired (tabSize : Nat) (seen : List (List Char)) (s t : Layout) : Prop where
  brackets : t.brackets = s.brackets
  openers : ∃ openers, Openers tabSize seen openers ∧
    s.levels = openers.map (level tabSize) ∧ t.levels = openers.map (level 1)

theorem kinds_deeper_ne_returns [LawfulLayoutKind κ] (text text' : String) (ended : List Nat) :
    [l, l.borrow LayoutKind.indent text].map Lexeme.kind ≠
      (l :: ended.map fun _ => l.borrow LayoutKind.dedent text').map Lexeme.kind := by
  intro h
  cases ended with
  | nil => simp at h
  | cons _ ended =>
      simp only [List.map_cons, List.cons.injEq] at h
      exact LawfulLayoutKind.indent_ne_dedent h.2.1

/-- If the same kinds are handed on at a line break, the line is ordered alike, and the levels
still have been opened by the same lines. -/
theorem Paired.ordered [LawfulLayoutKind κ] (h : Paired tabSize seen s t) (hs : s.brackets = 0)
    (hline : LeadsTo l line) (hnext : (readNewline tabSize s l).next = .ok s')
    (hnext' : (readNewline 1 t l).next = .ok t')
    (hkinds : (readNewline tabSize s l).emitted.map Lexeme.kind =
      (readNewline 1 t l).emitted.map Lexeme.kind) :
    Ordered tabSize seen line ∧ Paired tabSize (line :: seen) s' t' := by
  obtain ⟨hbrackets, openers, hopeners, hlevels, hlevels'⟩ := h
  have hstep := atNewline tabSize s l
  have hstep' := atNewline 1 t l
  generalize readNewline tabSize s l = step at hnext hkinds hstep
  generalize readNewline 1 t l = step' at hnext' hkinds hstep'
  rw [hopeners.ordered_iff]
  cases hstep with
  | bracketed inside => omega
  | mixed | unbroken | astray => cases hnext
  | @deeper found _ _ text above =>
      cases hline.lastLine?.symm.trans text
      cases hnext
      cases hstep' with
      | bracketed inside => omega
      | mixed | unbroken | astray => cases hnext'
      | @deeper found _ _ text above' =>
          cases hline.lastLine?.symm.trans text
          cases hnext'
          rw [hlevels] at above
          rw [hlevels'] at above'
          have hbelow := lt_of_head?_any above (hopeners.falls.imp And.left)
          have hbelow' := lt_of_head?_any above' (hopeners.falls.imp And.right)
          refine ⟨fun old hold => ?_, hbrackets, line :: openers, ?_, ?_, ?_⟩
          · rw [Nat.compare_eq_lt.mpr (hbelow old hold), Nat.compare_eq_lt.mpr (hbelow' old hold)]
          · exact hopeners.deeper fun old hold => ⟨hbelow old hold, hbelow' old hold⟩
          · rw [hlevels, List.map_cons]
          · rw [hlevels', List.map_cons]
      | returns => exact absurd hkinds (kinds_deeper_ne_returns _ _ _)
  | @returns found _ _ text notAbove known =>
      cases hline.lastLine?.symm.trans text
      cases hnext
      cases hstep' with
      | bracketed inside => omega
      | mixed | unbroken | astray => cases hnext'
      | deeper => exact absurd hkinds.symm (kinds_deeper_ne_returns _ _ _)
      | @returns found _ _ text notAbove' known' =>
          cases hline.lastLine?.symm.trans text
          cases hnext'
          rw [hlevels] at known
          rw [hlevels'] at known'
          obtain ⟨ended, opener, rest, rfl, hended, hlevel⟩ := exists_split known
          obtain ⟨ended', opener', rest', hsplit, hended', hlevel'⟩ := exists_split known'
          -- as many levels are closed by both, so that both part the lines in the same place
          rw [hlevels, hlevels', takeWhile_levels hended (by omega), hsplit,
            takeWhile_levels hended' (by omega)] at hkinds
          have hlength : ended.length = ended'.length := by
            simpa using congrArg List.length hkinds
          obtain ⟨rfl, htail⟩ := List.append_inj hsplit hlength
          cases htail
          have hfalls := (List.pairwise_cons.mp (List.pairwise_append.mp hopeners.falls).2.1).1
          refine ⟨fun old hold => compare_eq_compare_iff.mpr ?_, hbrackets, opener :: rest,
            hopeners.returns hended hlevel hlevel', ?_, ?_⟩
          · rcases List.mem_append.mp hold with hold | hold
            · have habove := hended old hold
              have habove' := hended' old hold
              omega
            · rcases List.mem_cons.mp hold with rfl | hold
              · omega
              · have hbelow := hfalls old hold
                omega
          · exact (congrArg _ hlevels).trans (dropWhile_levels hended (by omega))
          · exact (congrArg _ hlevels').trans (dropWhile_levels hended' (by omega))

/-- If the line is ordered alike, both readers go on, and hand on the same kinds. -/
theorem Paired.reads_second (h : Paired tabSize seen s t) (hs : s.brackets = 0)
    (hline : LeadsTo l line) (hordered : Ordered tabSize seen line)
    (hnext : (readNewline tabSize s l).next = .ok s') :
    ∃ t', (readNewline 1 t l).next = .ok t' ∧
      (readNewline tabSize s l).emitted.map Lexeme.kind =
        (readNewline 1 t l).emitted.map Lexeme.kind := by
  obtain ⟨hbrackets, openers, hopeners, hlevels, hlevels'⟩ := h
  have hstep := atNewline tabSize s l
  have hstep' := atNewline 1 t l
  have hmixed := not_inconsistent_one (Layout.indentation l.text.toList) t.previous
  have hunbroken := hline.lastLine?
  generalize readNewline tabSize s l = step at hnext hstep ⊢
  generalize readNewline 1 t l = step' at hstep' ⊢
  rw [hopeners.ordered_iff] at hordered
  have hhead : ((openers.map (level tabSize)).head?.any (· < level tabSize line)) =
      (openers.map (level 1)).head?.any (· < level 1 line) := by
    cases openers with
    | nil => rfl
    | cons opener _ =>
        have hopener := compare_eq_compare_iff.mp (hordered opener List.mem_cons_self)
        simp [hopener.1]
  rw [← hlevels, ← hlevels'] at hhead
  cases hstep with
  | bracketed inside => omega
  | mixed | unbroken | astray => cases hnext
  | @deeper found _ _ text above =>
      cases hunbroken.symm.trans text
      cases hstep' with
      | bracketed inside => omega
      | mixed _ mixed => simp [hmixed] at mixed
      | unbroken _ _ text' => simp [hunbroken] at text'
      | deeper => exact ⟨_, rfl, rfl⟩
      | returns _ _ text' notAbove | astray _ _ text' notAbove =>
          cases hunbroken.symm.trans text'
          rw [← hhead, above] at notAbove
          contradiction
  | @returns found _ _ text notAbove known =>
      cases hunbroken.symm.trans text
      rw [hlevels] at known
      obtain ⟨ended, opener, rest, rfl, hended, hlevel⟩ := exists_split known
      have hended' : ∀ old ∈ ended, level 1 line < level 1 old := by
        intro old hold
        have hold' := compare_eq_compare_iff.mp (hordered old (List.mem_append_left _ hold))
        exact hold'.2.mp (hended old hold)
      have hlevel' : level 1 opener = level 1 line := by
        have hopener := compare_eq_compare_iff.mp (hordered opener (by simp))
        omega
      cases hstep' with
      | bracketed inside => omega
      | mixed _ mixed => simp [hmixed] at mixed
      | unbroken _ _ text' => simp [hunbroken] at text'
      | deeper _ _ text' above =>
          cases hunbroken.symm.trans text'
          rw [← hhead, notAbove] at above
          contradiction
      | returns _ _ text' =>
          cases hunbroken.symm.trans text'
          refine ⟨_, rfl, ?_⟩
          rw [hlevels, hlevels', takeWhile_levels hended (by omega),
            takeWhile_levels hended' (by omega)]
          simp [Lexeme.borrow]
      | astray _ _ text' _ unknown =>
          cases hunbroken.symm.trans text'
          rw [hlevels', dropWhile_levels hended' (by omega), List.map_cons, hlevel'] at unknown
          contradiction

/-! ### Runs -/

/-- What is not the beginning of a logical line is read in the same way by both. -/
theorem Paired.other (h : Paired tabSize seen s t)
    (hl : ¬(LayoutKind.role l.kind = .newline ∧ s.brackets = 0))
    (hnext : (s.read tabSize l).next = .ok s') :
    ∃ t', (t.read 1 l).next = .ok t' ∧
      (s.read tabSize l).emitted.map Lexeme.kind = (t.read 1 l).emitted.map Lexeme.kind ∧
      Paired tabSize seen s' t' := by
  obtain ⟨hbrackets, hopeners⟩ := h
  have hstep := atLexeme tabSize s l
  generalize s.read tabSize l = step at hnext hstep ⊢
  cases hstep with
  | newline role found =>
      cases found with
      | bracketed inside =>
          cases hnext
          refine ⟨t, ?_⟩
          rw [read_newline role, readNewline, if_pos (by omega)]
          exact ⟨rfl, rfl, hbrackets, hopeners⟩
      | mixed outside | unbroken outside | deeper outside | returns outside | astray outside =>
          exact absurd ⟨role, outside⟩ hl
  | opening role =>
      cases hnext
      rw [Layout.read, role]
      exact ⟨_, rfl, rfl, congrArg (· + 1) hbrackets, hopeners⟩
  | closing role inside =>
      cases hnext
      rw [Layout.read, role]
      simp only [if_neg (show ¬t.brackets = 0 by omega)]
      exact ⟨_, rfl, trivial, congrArg (· - 1) hbrackets, hopeners⟩
  | other role =>
      cases hnext
      rw [Layout.read, role]
      exact ⟨t, rfl, rfl, hbrackets, hopeners⟩
  | unopened => cases hnext

theorem logicalLines_cons_of_newline (hl : LayoutKind.role l.kind = .newline) (hs : s.brackets = 0)
    (hline : LeadsTo l line) (hnext : (s.read tabSize l).next = .ok s') :
    logicalLines s.brackets (l :: ls) = line :: logicalLines s'.brackets ls := by
  rw [logicalLines, if_pos ⟨hl, hs⟩, hline.indentation, ← brackets_read hnext]
  rfl

theorem logicalLines_cons_of_other (hl : ¬(LayoutKind.role l.kind = .newline ∧ s.brackets = 0))
    (hnext : (s.read tabSize l).next = .ok s') :
    logicalLines s.brackets (l :: ls) = logicalLines s'.brackets ls := by
  rw [logicalLines, if_neg hl, ← brackets_read hnext]
  rfl

theorem inStep_iff [LawfulLayoutKind κ] {out : List (Lexeme κ)} {e : Layout}
    (hreads : Reads tabSize s ls out e) (hlines : HasLines ls) (h : Paired tabSize seen s t) :
    InStep tabSize s t ls ↔ AllOrdered tabSize seen (logicalLines s.brackets ls) := by
  induction hreads generalizing t seen with
  | nil => exact iff_of_true .nil trivial
  | @cons s s' _ l ls out first _ ih =>
      have hbehind : HasLines ls := fun k hk => hlines k (List.mem_cons_of_mem l hk)
      by_cases hl : LayoutKind.role l.kind = .newline ∧ s.brackets = 0
      · obtain ⟨line, hline⟩ := hlines l List.mem_cons_self hl.1
        rw [logicalLines_cons_of_newline hl.1 hl.2 hline first]
        have hnext := first
        rw [read_newline hl.1] at hnext
        constructor
        · rintro (_ | ⟨hfirst, hsecond, hkinds, hrest⟩)
          cases first.symm.trans hfirst
          rw [read_newline hl.1] at hsecond
          rw [read_newline hl.1, read_newline hl.1] at hkinds
          obtain ⟨hordered, hpaired⟩ := h.ordered hl.2 hline hnext hsecond hkinds
          exact ⟨hordered, (ih hbehind hpaired).mp hrest⟩
        · rintro ⟨hordered, hrest⟩
          obtain ⟨t', hsecond, hkinds⟩ := h.reads_second hl.2 hline hordered hnext
          have hpaired := (h.ordered hl.2 hline hnext hsecond hkinds).2
          rw [← read_newline hl.1] at hsecond
          rw [← read_newline hl.1, ← read_newline hl.1] at hkinds
          exact .cons first hsecond hkinds ((ih hbehind hpaired).mpr hrest)
      · rw [logicalLines_cons_of_other hl first]
        obtain ⟨t', hsecond, hkinds, hpaired⟩ := h.other hl first
        rw [← ih hbehind hpaired]
        constructor
        · rintro (_ | ⟨hfirst, hsecond', -, hrest⟩)
          cases first.symm.trans hfirst
          cases hsecond.symm.trans hsecond'
          exact hrest
        · exact .cons first hsecond hkinds

/-- Readers that stay in step come to the same number of levels. -/
theorem InStep.reads [LawfulLayoutKind κ] (h : InStep tabSize s t ls) (hlines : HasLines ls)
    (hpaired : Paired tabSize seen s t) :
    ∃ out e out' e' seen', Reads tabSize s ls out e ∧ Reads 1 t ls out' e' ∧
      out.map Lexeme.kind = out'.map Lexeme.kind ∧ Paired tabSize seen' e e' := by
  induction h generalizing seen with
  | nil => exact ⟨[], _, [], _, seen, .nil, .nil, rfl, hpaired⟩
  | @cons s s' t t' l ls first second hkinds _ ih =>
      have hbehind : HasLines ls := fun k hk => hlines k (List.mem_cons_of_mem l hk)
      obtain ⟨seen, hpaired⟩ : ∃ seen, Paired tabSize seen s' t' := by
        by_cases hl : LayoutKind.role l.kind = .newline ∧ s.brackets = 0
        · obtain ⟨line, hline⟩ := hlines l List.mem_cons_self hl.1
          rw [read_newline hl.1] at first second
          rw [read_newline hl.1, read_newline hl.1] at hkinds
          exact ⟨_, (hpaired.ordered hl.2 hline first second hkinds).2⟩
        · obtain ⟨_, hsecond, -, hpaired⟩ := hpaired.other hl first
          cases second.symm.trans hsecond
          exact ⟨seen, hpaired⟩
      obtain ⟨out, e, out', e', seen', hreads, hreads', hout, hend⟩ := ih hbehind hpaired
      refine ⟨_, e, _, e', seen', .cons first hreads, .cons second hreads', ?_, hend⟩
      rw [List.map_append, List.map_append, hkinds, hout]

theorem kinds_finish (s : Layout) (last : Option (Lexeme κ)) :
    (s.finish last).map Lexeme.kind = List.replicate (s.levels.length - 1) LayoutKind.dedent := by
  obtain ⟨d, hd, -, hfinish⟩ := finish_eq s last
  rw [hfinish, List.map_map, ← List.length_dropLast, ← List.map_const, ← hd]
  rfl

/-- At the beginning only the margin is open. -/
theorem paired_start (tabSize : Nat) : Paired tabSize [[]] {} {} where
  brackets := rfl
  openers := by
    refine ⟨[[]], ⟨fun old hold => ?_, fun old hold => ?_, List.pairwise_singleton ..⟩, ?_, ?_⟩
    · cases List.mem_singleton.mp hold
      exact .last
    · cases hold with
      | last => exact ⟨[], List.mem_singleton_self _, rfl, rfl⟩
      | behind before => cases before
    all_goals simp [level]

/-! ### The line before -/

theorem previous_read (h : (s.read tabSize l).next = .ok s') :
    s'.previous = if LayoutKind.role l.kind = .newline ∧ s.brackets = 0 then
      indentation l.text.toList else s.previous := by
  have hstep := atLexeme tabSize s l
  generalize s.read tabSize l = step at h hstep
  cases hstep with
  | newline role found =>
      cases found with
      | bracketed inside =>
          cases h
          rw [if_neg (by omega)]
      | deeper outside | returns outside =>
          cases h
          rw [if_pos ⟨role, outside⟩]
      | mixed | unbroken | astray => cases h
  | opening role | closing role | other role =>
      cases h
      rw [if_neg (by simp [role])]
  | unopened => cases h

theorem Reads.previous_eq {out : List (Lexeme κ)} (h : Reads tabSize s ls out s') :
    s'.previous = (logicalLines s.brackets ls).getLastD s.previous := by
  induction h with
  | nil => rfl
  | @cons s s' _ l ls out first _ ih =>
      rw [ih, logicalLines, ← brackets_read first, previous_read first]
      split
      · exact (List.getLastD_cons ..).symm
      · rfl

/-- An input is given up for its tabs at a line that is ordered in two ways against the line
before it. -/
theorem readAll_tabError_iff {input : List (Lexeme κ)} {location : Location} :
    (readAll tabSize input).2 = some (.lexical ⟨.tabError, location⟩) ↔
      ∃ before l after, input = before ++ l :: after ∧ (readAll tabSize before).2 = none ∧
        Mixed tabSize before l ∧ endLocation l = location := by
  constructor
  · intro h
    rcases readFrom_cases tabSize {} none input with ⟨out, s, -, hresult⟩ |
      ⟨before, l, after, out, s, fault, rfl, hreads, hfault, hresult⟩
    · rw [readAll, hresult] at h
      contradiction
    · rw [readAll, hresult] at h
      cases h
      have hstep := atLexeme tabSize s l
      generalize s.read tabSize l = step at hfault hstep
      cases hstep with
      | newline role found =>
          cases found with
          | mixed outside mixed =>
              cases hfault
              rw [hreads.previous_eq] at mixed
              rw [hreads.brackets_eq] at outside
              exact ⟨before, l, after, rfl, readAll_eq_none_iff.mpr ⟨out, s, hreads⟩,
                ⟨role, outside, mixed⟩, rfl⟩
          | bracketed | unbroken | deeper | returns | astray => cases hfault
      | opening | unopened | closing | other => cases hfault
  · rintro ⟨before, l, after, rfl, hbefore, ⟨hl, hbrackets, hmixed⟩, rfl⟩
    obtain ⟨out, s, hreads⟩ := readAll_eq_none_iff.mp hbefore
    have hfault : (s.read tabSize l).next = .error (.lexical ⟨.tabError, endLocation l⟩) := by
      rw [read_newline hl, readNewline, if_neg (by rw [hreads.brackets_eq, hbrackets]; omega)]
      rw [← hreads.previous_eq (s := {})] at hmixed
      simp only [hmixed, if_true]
    rw [readAll, hreads.readFrom_error hfault]

/-- Main result. The check for mixed tabs refuses the lines that are ordered in two ways against the
line before. An input that is read to its end has the same layout with tabs as wide as blanks if and
only if no line is ordered in two ways against a line that is still open. -/
theorem readAll_tabSize [LawfulLayoutKind κ] (tabSize : Nat) {input : List (Lexeme κ)}
    (hlines : HasLines input) :
    (∀ location, (readAll tabSize input).2 = some (.lexical ⟨.tabError, location⟩) ↔
      ∃ before l after, input = before ++ l :: after ∧ (readAll tabSize before).2 = none ∧
        Mixed tabSize before l ∧ endLocation l = location) ∧
    ((readAll tabSize input).2 = none →
      ((readAll 1 input).2 = none ∧
          (readAll tabSize input).1.map Lexeme.kind = (readAll 1 input).1.map Lexeme.kind ∧
          InStep tabSize {} {} input ↔
        AllOrdered tabSize [[]] (logicalLines 0 input))) := by
  refine ⟨fun _ => readAll_tabError_iff, fun hnone => ?_⟩
  obtain ⟨out, e, hreads⟩ := readAll_eq_none_iff.mp hnone
  rw [← inStep_iff hreads hlines (paired_start tabSize)]
  refine ⟨fun h => h.2.2, fun h => ?_⟩
  obtain ⟨out, e, out', e', seen, hreads, hreads', hkinds, _, openers, -, hlevels, hlevels'⟩ :=
    h.reads hlines (paired_start tabSize)
  rw [readAll, readAll, hreads.readFrom_eq, hreads'.readFrom_eq]
  refine ⟨rfl, ?_, h⟩
  rw [List.map_append, List.map_append, hkinds, kinds_finish, kinds_finish, hlevels, hlevels']
  simp

/-- A line indented by a tab, one by nine tabs and one by eight blanks. Each goes deeper than the line
before it, or less deep, with tabs of eight columns as with tabs of one. -/
def tabsAndBlanks : List (Lexeme String) :=
  [⟨"_NEWLINE", "\n\t", some 1, some 1, some 2, some 2⟩,
    ⟨"_NEWLINE", "\n\t\t\t\t\t\t\t\t\t", some 2, some 2, some 3, some 10⟩,
    ⟨"_NEWLINE", "\n        ", some 3, some 10, some 4, some 9⟩]

theorem hasLines_tabsAndBlanks : HasLines tabsAndBlanks := by
  intro l hl _
  simp only [tabsAndBlanks, List.mem_cons, List.not_mem_nil, or_false] at hl
  rcases hl with rfl | rfl | rfl <;> exact ⟨_, [], rfl, List.all_eq_true.mp (by decide)⟩

theorem not_allOrdered_tabsAndBlanks :
    HasLines tabsAndBlanks ∧ (readAll 8 tabsAndBlanks).2 = none ∧
      ¬AllOrdered 8 [[]] (logicalLines 0 tabsAndBlanks) := by
  have hread : (readAll 8 tabsAndBlanks).2 = none := by decide
  refine ⟨hasLines_tabsAndBlanks, hread, fun hordered => ?_⟩
  have hone := ((readAll_tabSize 8 hasLines_tabsAndBlanks).2 hread).mpr hordered
  exact absurd hone.1 (by decide)

/-- The third line returns to the level of the first only if a tab is as wide as eight blanks. -/
theorem readAll_one_ne_readAll_eight :
    HasLines tabsAndBlanks ∧ (readAll 8 tabsAndBlanks).2 = none ∧
      (readAll 1 tabsAndBlanks).2 = some (.lexical ⟨.indentationError, ⟨4, 9⟩⟩) :=
  ⟨hasLines_tabsAndBlanks, by decide, by decide⟩

end SyntaxTriage.Layout
