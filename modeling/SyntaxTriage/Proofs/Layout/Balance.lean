import Mathlib.Data.List.Forall2
import SyntaxTriage.Proofs.Layout.Reading

/-!
What layout hands on. Without the lexemes that it puts in, its output is the input without the line
breaks inside brackets, up to where it stops. The lexemes that it puts in open and close levels, and
no level is closed that has not been opened. Both hold for every input that a reader is given,
whatever the inputs before it have come to.
-/

namespace SyntaxTriage.Layout

variable {κ : Type} [LayoutKind κ] [DecidableEq κ]

def isIndent (l : Lexeme κ) : Bool := l.kind = LayoutKind.indent

def isDedent (l : Lexeme κ) : Bool := l.kind = LayoutKind.dedent

def IsOwn (l : Lexeme κ) : Prop := isIndent l = false ∧ isDedent l = false

instance (l : Lexeme κ) : Decidable (IsOwn l) := inferInstanceAs (Decidable (_ ∧ _))

def own (ls : List (Lexeme κ)) : List (Lexeme κ) := ls.filter fun l => !isIndent l && !isDedent l

omit [DecidableEq κ] in
/-- The lexemes without the line breaks inside brackets; `depth` brackets are open before them. -/
def withoutInnerBreaks : (depth : Nat) → List (Lexeme κ) → List (Lexeme κ)
  | _, [] => []
  | depth, l :: ls =>
    (if LayoutKind.role l.kind = .newline ∧ 0 < depth then [] else [l]) ++
      withoutInnerBreaks (bracketsBehind depth l) ls

/-- The number of open levels behind one more lexeme; a level that is not open cannot be closed. -/
def countLevel (depth : Nat) (l : Lexeme κ) : Option Nat :=
  if isIndent l then some (depth + 1)
  else if isDedent l then (if depth = 0 then none else some (depth - 1))
  else some depth

def openLevels (depth : Nat) (ls : List (Lexeme κ)) : Option Nat := ls.foldlM countLevel depth

/-- The levels that are open besides the margin. -/
def depth (s : Layout) : Nat := s.levels.length - 1

variable {tabSize : Nat} {s s' : Layout} {l : Lexeme κ} {ls out : List (Lexeme κ)}

/-! ### Kinds -/

@[simp] theorem own_append (ls ls' : List (Lexeme κ)) : own (ls ++ ls') = own ls ++ own ls' :=
  List.filter_append ..

theorem own_singleton (h : IsOwn l) : own [l] = [l] := by
  simp [own, h.1, h.2]

theorem own_of_isDedent {α : Type} (h : isDedent l = true) (levels : List α) :
    own (levels.map fun _ => l) = [] := by
  simp [own, h]

theorem own_of_isIndent (h : isIndent l = true) : own [l] = [] := by
  simp [own, h]

theorem isIndent_borrow (l : Lexeme κ) (text : String) :
    isIndent (l.borrow LayoutKind.indent text) = true := by
  simp [isIndent, Lexeme.borrow]

theorem isDedent_borrow (l : Lexeme κ) (text : String) :
    isDedent (l.borrow LayoutKind.dedent text) = true := by
  simp [isDedent, Lexeme.borrow]

theorem isIndent_of_isDedent [LawfulLayoutKind κ] (h : isDedent l = true) : isIndent l = false := by
  simp only [isDedent, isIndent, decide_eq_true_eq, decide_eq_false_iff_not] at h ⊢
  rw [h]
  exact (LawfulLayoutKind.indent_ne_dedent (κ := κ)).symm

theorem isDedent_of_isIndent [LawfulLayoutKind κ] (h : isIndent l = true) : isDedent l = false := by
  rw [← Bool.not_eq_true]
  intro hdedent
  rw [isIndent_of_isDedent hdedent] at h
  contradiction

/-! ### Levels -/

@[simp] theorem openLevels_nil (depth : Nat) : openLevels depth ([] : List (Lexeme κ)) = some depth :=
  rfl

theorem openLevels_cons (depth : Nat) (l : Lexeme κ) (ls : List (Lexeme κ)) :
    openLevels depth (l :: ls) = (countLevel depth l).bind fun depth => openLevels depth ls := rfl

theorem openLevels_append (depth : Nat) (ls ls' : List (Lexeme κ)) :
    openLevels depth (ls ++ ls') =
      (openLevels depth ls).bind fun depth => openLevels depth ls' := by
  simp [openLevels, List.foldlM_append]

theorem countLevel_of_isOwn (h : IsOwn l) (depth : Nat) : countLevel depth l = some depth := by
  simp [countLevel, h.1, h.2]

theorem openLevels_singleton (h : IsOwn l) (depth : Nat) : openLevels depth [l] = some depth := by
  rw [openLevels_cons, countLevel_of_isOwn h]
  rfl

/-- As many levels are closed as there are lexemes that close one. -/
theorem openLevels_dedents [LawfulLayoutKind κ] {α : Type} (h : isDedent l = true)
    (levels : List α) (depth : Nat) :
    openLevels (levels.length + depth) (levels.map fun _ => l) = some depth := by
  induction levels with
  | nil => simp
  | cons level levels ih =>
      have hcount : countLevel (levels.length + 1 + depth) l = some (levels.length + depth) := by
        rw [countLevel, isIndent_of_isDedent h, h, if_neg Bool.false_ne_true, if_pos rfl,
          if_neg (by omega)]
        congr 1
        omega
      rw [List.map_cons, List.length_cons, openLevels_cons, hcount]
      exact ih

/-- What opens levels and what closes them make up the difference in the number of open levels. -/
theorem countP_of_openLevels [LawfulLayoutKind κ] {depth found : Nat}
    (h : openLevels depth ls = some found) :
    depth + ls.countP isIndent = found + ls.countP isDedent := by
  induction ls generalizing depth with
  | nil =>
      cases h
      rfl
  | cons l ls ih =>
      rw [openLevels_cons] at h
      obtain ⟨next, hnext, h⟩ := Option.bind_eq_some_iff.mp h
      have hbehind := ih h
      rw [List.countP_cons, List.countP_cons]
      unfold countLevel at hnext
      cases hindent : isIndent l with
      | true =>
          have hdedent := isDedent_of_isIndent hindent
          rw [hindent, if_pos rfl] at hnext
          cases hnext
          simp only [hdedent, if_true, Bool.false_eq_true, if_false]
          omega
      | false =>
          rw [hindent, if_neg Bool.false_ne_true] at hnext
          cases hdedent : isDedent l with
          | true =>
              rw [hdedent, if_pos rfl] at hnext
              split at hnext
              · contradiction
              · cases hnext
                simp only [if_true, Bool.false_eq_true, if_false]
                omega
          | false =>
              rw [hdedent, if_neg Bool.false_ne_true] at hnext
              cases hnext
              simpa using hbehind

/-- Nowhere in the lexemes have more levels been closed than opened. -/
theorem countP_of_prefix [LawfulLayoutKind κ] {found : Nat} {before : List (Lexeme κ)}
    (h : openLevels 0 ls = some found) (hbefore : before <+: ls) :
    before.countP isDedent ≤ before.countP isIndent := by
  obtain ⟨after, rfl⟩ := hbefore
  rw [openLevels_append] at h
  obtain ⟨next, hnext, -⟩ := Option.bind_eq_some_iff.mp h
  have hcount := countP_of_openLevels hnext
  omega

/-! ### One lexeme -/

/-- A lexeme is handed on unless it is a line break inside brackets, or refused. -/
theorem own_read (tabSize : Nat) (s : Layout) (hl : IsOwn l) :
    own (s.read tabSize l).emitted = withoutInnerBreaks s.brackets [l] ∨
      own (s.read tabSize l).emitted = [] ∧ ∃ fault, (s.read tabSize l).next = .error fault := by
  have hstep := atLexeme tabSize s l
  have hown := own_singleton hl
  generalize s.read tabSize l = step at hstep
  cases hstep with
  | newline role found =>
      cases found with
      | bracketed inside =>
          left
          simp [own, withoutInnerBreaks, role, inside]
      | mixed => exact .inr ⟨rfl, _, rfl⟩
      | unbroken outside =>
          left
          simp [withoutInnerBreaks, outside, hown]
      | deeper outside =>
          left
          rw [← List.singleton_append, own_append, hown, own_of_isIndent (isIndent_borrow l _)]
          simp [withoutInnerBreaks, outside]
      | returns outside | astray outside =>
          left
          rw [← List.singleton_append, own_append, hown, own_of_isDedent (isDedent_borrow l _)]
          simp [withoutInnerBreaks, outside]
  | opening role | unopened role | closing role | other role =>
      left
      simp [withoutInnerBreaks, role, hown]

/-- The lexemes that are put in open and close the levels that are noted. -/
theorem openLevels_read [LawfulLayoutKind κ] (tabSize : Nat) (hmargin : 0 ∈ s.levels)
    (hl : IsOwn l) :
    ∃ found, openLevels s.depth (s.read tabSize l).emitted = some found ∧
      ∀ s', (s.read tabSize l).next = .ok s' → found = s'.depth := by
  have hstep := atLexeme tabSize s l
  have hown := openLevels_singleton hl s.depth
  have hpos : 0 < s.levels.length := List.length_pos_of_mem hmargin
  -- the levels that a line leaves open, with the margin among them
  have hreturn (new : Nat) (text : String) :
      openLevels s.depth (l :: (s.levels.takeWhile (new < ·)).map fun _ =>
        l.borrow LayoutKind.dedent text) = some ((s.levels.dropWhile (new < ·)).length - 1) := by
    have hkept := List.length_pos_of_mem (mem_dropWhile hmargin (Nat.zero_le new))
    have hall := congrArg List.length
      (List.takeWhile_append_dropWhile (p := fun level => decide (new < level)) (l := s.levels))
    rw [List.length_append] at hall
    have hdepth : s.depth = (s.levels.takeWhile (new < ·)).length +
        ((s.levels.dropWhile (new < ·)).length - 1) := by
      unfold depth
      omega
    rw [openLevels_cons, countLevel_of_isOwn hl, hdepth]
    exact openLevels_dedents (isDedent_borrow l text) _ _
  generalize s.read tabSize l = step at hstep
  cases hstep with
  | newline role found =>
      cases found with
      | bracketed => exact ⟨_, rfl, fun s' h => by cases h; rfl⟩
      | mixed => exact ⟨_, rfl, fun s' h => by cases h⟩
      | unbroken => exact ⟨_, hown, fun s' h => by cases h⟩
      | deeper =>
          refine ⟨s.depth + 1, ?_, fun s' h => ?_⟩
          · rw [openLevels_cons, countLevel_of_isOwn hl, Option.bind_some, openLevels_cons,
              countLevel, isIndent_borrow, if_pos rfl]
            rfl
          · cases h
            simp only [depth, List.length_cons]
            omega
      | returns => exact ⟨_, hreturn _ _, fun s' h => by cases h; rfl⟩
      | astray => exact ⟨_, hreturn _ _, fun s' h => by cases h⟩
  | opening | closing | other => exact ⟨_, hown, fun s' h => by cases h; rfl⟩
  | unopened => exact ⟨_, hown, fun s' h => by cases h⟩

/-! ### Many lexemes -/

omit [DecidableEq κ] in
theorem withoutInnerBreaks_append {s s' : Layout} (h : Reads tabSize s ls out s')
    (more : List (Lexeme κ)) : withoutInnerBreaks s.brackets (ls ++ more) =
      withoutInnerBreaks s.brackets ls ++ withoutInnerBreaks s'.brackets more := by
  induction h with
  | nil => rfl
  | cons first _ ih =>
      rw [List.cons_append, withoutInnerBreaks, withoutInnerBreaks, ← brackets_read first, ih,
        List.append_assoc]

theorem Reads.own_eq (h : Reads tabSize s ls out s') (hls : ∀ l ∈ ls, IsOwn l) :
    own out = withoutInnerBreaks s.brackets ls := by
  induction h with
  | nil => rfl
  | @cons s s' s'' l ls out first _ ih =>
      have hfirst := (own_read tabSize s (hls l List.mem_cons_self)).resolve_right
        fun ⟨_, _, hfault⟩ => by rw [first] at hfault; cases hfault
      rw [own_append, hfirst, ih fun k hk => hls k (List.mem_cons_of_mem l hk),
        brackets_read first]
      simp [withoutInnerBreaks]

theorem Reads.openLevels_eq [LawfulLayoutKind κ] (h : Reads tabSize s ls out s')
    (hmargin : 0 ∈ s.levels) (hls : ∀ l ∈ ls, IsOwn l) :
    openLevels s.depth out = some s'.depth := by
  induction h with
  | nil => rfl
  | @cons s s' s'' l ls out first _ ih =>
      obtain ⟨found, hfound, hnext⟩ :=
        openLevels_read tabSize hmargin (hls l List.mem_cons_self)
      rw [openLevels_append, hfound, Option.bind_some, hnext s' first]
      exact ih (margin_read first hmargin) fun k hk => hls k (List.mem_cons_of_mem l hk)

theorem openLevels_finish [LawfulLayoutKind κ] (s : Layout) (last : Option (Lexeme κ)) :
    openLevels s.depth (s.finish last) = some 0 := by
  obtain ⟨d, hd, -, hfinish⟩ := finish_eq s last
  rw [hfinish, depth, ← List.length_dropLast]
  exact openLevels_dedents (decide_eq_true hd) s.levels.dropLast 0

/-! ### Main result -/

/-- What a reader makes of an input: nothing but line breaks inside brackets is lost up to where it
stops, nothing comes in another order, and levels are closed only after they have been opened. -/
structure Faithful (tabSize : Nat) (input : List (Lexeme κ))
    (result : List (Lexeme κ) × Option LayoutFault) : Prop where
  whole : result.2 = none → own result.1 = withoutInnerBreaks 0 input
  /-- Where there is a fault, a lexeme is refused that the input can be read up to. -/
  stopped : ∀ fault, result.2 = some fault → ∃ before l after, input = before ++ l :: after ∧
    (readAll tabSize before).2 = none ∧ (own result.1 = withoutInnerBreaks 0 before ∨
      own result.1 = withoutInnerBreaks 0 (before ++ [l]))
  opened : ∀ before, before <+: result.1 → before.countP isDedent ≤ before.countP isIndent
  closed : result.2 = none → result.1.countP isDedent = result.1.countP isIndent

theorem faithful_readAll [LawfulLayoutKind κ] (tabSize : Nat) {input : List (Lexeme κ)}
    (h : ∀ l ∈ input, IsOwn l) : Faithful tabSize input (readAll tabSize input) := by
  have hmargin : 0 ∈ ({} : Layout).levels := List.mem_singleton_self 0
  rcases readFrom_cases tabSize {} none input with ⟨out, s, hreads, hresult⟩ |
    ⟨before, l, after, out, s, fault, rfl, hreads, hfault, hresult⟩
  · have hlevels : openLevels 0 (out ++ s.finish (input.getLast?.or none)) = some 0 := by
      rw [openLevels_append]
      exact (congrArg (Option.bind · _) (hreads.openLevels_eq hmargin h)).trans
        (openLevels_finish s _)
    rw [readAll, hresult]
    refine ⟨fun _ => ?_, fun _ hnone => ?_, fun before hbefore => ?_, fun _ => ?_⟩
    · obtain ⟨d, hd, -, hfinish⟩ := finish_eq s (input.getLast?.or none)
      rw [own_append, hreads.own_eq h, hfinish, own_of_isDedent (decide_eq_true hd),
        List.append_nil]
    · contradiction
    · exact countP_of_prefix hlevels hbefore
    · simpa using (countP_of_openLevels hlevels).symm
  · have hbefore : ∀ k ∈ before, IsOwn k := fun k hk => h k (List.mem_append_left _ hk)
    have hl : IsOwn l := h l (by simp)
    obtain ⟨found, hfound, -⟩ := openLevels_read tabSize (hreads.margin hmargin) hl
    have hlevels : openLevels 0 (out ++ (s.read tabSize l).emitted) = some found := by
      rw [openLevels_append]
      exact (congrArg (Option.bind · _) (hreads.openLevels_eq hmargin hbefore)).trans hfound
    rw [readAll, hresult]
    refine ⟨fun hsome => ?_, fun _ _ => ?_, fun _ hprefix => ?_, fun hsome => ?_⟩
    · contradiction
    · refine ⟨before, l, after, rfl, readAll_eq_none_iff.mpr ⟨out, s, hreads⟩, ?_⟩
      rw [own_append, hreads.own_eq hbefore, withoutInnerBreaks_append hreads]
      rcases own_read tabSize s hl with hown | ⟨hown, -⟩
      · exact .inr (by rw [hown])
      · exact .inl (by rw [hown, List.append_nil])
    · exact countP_of_prefix hlevels hprefix
    · contradiction

omit [DecidableEq κ] in
/-- A reader that has been used before reads like a new one. -/
theorem process_eq (tabSize : Nat) (used : Layout) (input : List (Lexeme κ)) :
    process tabSize used input = readAll tabSize input := rfl

/-- A reader may be used for one input after another, whatever state it is left in. -/
theorem processAll_faithful [LawfulLayoutKind κ] (tabSize : Nat)
    (left : Layout → List (Lexeme κ) → Layout) (used : Layout)
    {inputs : List (List (Lexeme κ))} (h : ∀ input ∈ inputs, ∀ l ∈ input, IsOwn l) :
    List.Forall₂ (Faithful tabSize) inputs (processAll tabSize left used inputs) := by
  induction inputs generalizing used with
  | nil => exact .nil
  | cons input inputs ih =>
      refine .cons ?_ (ih _ fun next hnext => h next (List.mem_cons_of_mem _ hnext))
      rw [process_eq]
      exact faithful_readAll tabSize (h input List.mem_cons_self)

/-- Two inputs that fail with brackets and levels open, and one that is read to its end. -/
def mishaps : List (List (Lexeme Terminal)) :=
  [[.unplaced .newline "\n  ", .unplaced .leftParen "(", .unplaced .rightParen ")",
      .unplaced .rightBracket "]"],
    [.unplaced .newline "\n\t\t", .unplaced .newline "\n\t", .unplaced .leftParen "("],
    [.unplaced .leftParen "(", .unplaced .newline "\n", .unplaced .rightParen ")",
      .unplaced .newline "\n  ", .unplaced .identifier "x", .unplaced .newline "\n"]]

/-- The first input stops at the bracket that closes nothing and the second one at the line that
returns to no open level, with its level closed. The third is read to its end, where its own level is
closed and none that is left over. -/
theorem processAll_faithful_mishaps :
    let left : Layout → List (Lexeme Terminal) → Layout :=
      fun s _ => { s with brackets := 1, levels := [2, 0] }
    (∀ input ∈ mishaps, ∀ l ∈ input, IsOwn l) ∧
      List.Forall₂ (Faithful 8) mishaps (processAll 8 left {} mishaps) ∧
      (processAll 8 left {} mishaps).map (fun result => (result.1.map (·.kind), result.2)) =
        [([.newline, .indent, .leftParen, .rightParen, .rightBracket], some .unopenedBracket),
          ([.newline, .indent, .newline, .dedent],
            some (.lexical ⟨.indentationError, ⟨1, 1⟩⟩)),
          ([.leftParen, .rightParen, .newline, .indent, .identifier, .newline, .dedent], none)] :=
  have h : ∀ input ∈ mishaps, ∀ l ∈ input, IsOwn l := by decide
  ⟨h, processAll_faithful 8 _ {} h, by decide⟩

end SyntaxTriage.Layout
