import SyntaxTriage.Layout

/-!
How layout reads. `AtNewline` lists all that can happen at a line break, with the conditions under
which it happens; what follows about line breaks is read off these cases. `Reads` follows layout
over lexemes that it does not refuse, and an input is either read to its end or up to the first
lexeme that is refused.
-/

namespace SyntaxTriage

/-- The lexemes that layout puts in are told apart by their kinds. -/
class LawfulLayoutKind (κ : Type) [LayoutKind κ] : Prop where
  indent_ne_dedent : (LayoutKind.indent : κ) ≠ LayoutKind.dedent

instance : LawfulLayoutKind Terminal := ⟨by decide⟩

instance : LawfulLayoutKind String := ⟨by decide⟩

namespace Layout

variable {κ : Type} [LayoutKind κ] {tabSize : Nat} {s s' s'' : Layout} {l : Lexeme κ}
  {ls out : List (Lexeme κ)}

/-! ### One lexeme -/

/-- What a line break can come to. The check for mixed tabs comes first, and levels are closed even
where the line then turns out to return to none of them. -/
inductive AtNewline (tabSize : Nat) (s : Layout) (l : Lexeme κ) : LayoutStep κ → Prop
  | bracketed (inside : 0 < s.brackets) : AtNewline tabSize s l ⟨[], .ok s⟩
  | mixed (outside : s.brackets = 0)
      (mixed : inconsistent tabSize (indentation l.text.toList) s.previous = true) :
      AtNewline tabSize s l ⟨[], .error (.lexical ⟨.tabError, endLocation l⟩)⟩
  | unbroken (outside : s.brackets = 0)
      (consistent : inconsistent tabSize (indentation l.text.toList) s.previous = false)
      (text : lastLine? l.text.toList = none) : AtNewline tabSize s l ⟨[l], .error .noLineBreak⟩
  | deeper {line : List Char} (outside : s.brackets = 0)
      (consistent : inconsistent tabSize (indentation l.text.toList) s.previous = false)
      (text : lastLine? l.text.toList = some line)
      (above : s.levels.head?.any (· < level tabSize line) = true) :
      AtNewline tabSize s l ⟨[l, l.borrow LayoutKind.indent (String.ofList line)],
        .ok { s with
          levels := level tabSize line :: s.levels
          previous := indentation l.text.toList }⟩
  | returns {line : List Char} (outside : s.brackets = 0)
      (consistent : inconsistent tabSize (indentation l.text.toList) s.previous = false)
      (text : lastLine? l.text.toList = some line)
      (notAbove : s.levels.head?.any (· < level tabSize line) = false)
      (known : (s.levels.dropWhile (level tabSize line < ·)).head? = some (level tabSize line)) :
      AtNewline tabSize s l
        ⟨l :: (s.levels.takeWhile (level tabSize line < ·)).map fun _ =>
            l.borrow LayoutKind.dedent (String.ofList line),
          .ok { s with
            levels := s.levels.dropWhile (level tabSize line < ·)
            previous := indentation l.text.toList }⟩
  | astray {line : List Char} (outside : s.brackets = 0)
      (consistent : inconsistent tabSize (indentation l.text.toList) s.previous = false)
      (text : lastLine? l.text.toList = some line)
      (notAbove : s.levels.head?.any (· < level tabSize line) = false)
      (unknown : (s.levels.dropWhile (level tabSize line < ·)).head? ≠ some (level tabSize line)) :
      AtNewline tabSize s l
        ⟨l :: (s.levels.takeWhile (level tabSize line < ·)).map fun _ =>
            l.borrow LayoutKind.dedent (String.ofList line),
          .error (.lexical ⟨.indentationError, endLocation l⟩)⟩

theorem atNewline (tabSize : Nat) (s : Layout) (l : Lexeme κ) :
    AtNewline tabSize s l (readNewline tabSize s l) := by
  unfold readNewline
  split
  · rename_i hinside
    exact .bracketed hinside
  · rename_i houtside
    have houtside := Nat.eq_zero_of_not_pos houtside
    simp only
    split
    · rename_i hmixed
      exact .mixed houtside hmixed
    · rename_i hconsistent
      have hconsistent := eq_false_of_ne_true hconsistent
      split
      · rename_i hline
        exact .unbroken houtside hconsistent hline
      · rename_i line hline
        split
        · rename_i habove
          exact .deeper houtside hconsistent hline habove
        · rename_i hnotAbove
          have hnotAbove := eq_false_of_ne_true hnotAbove
          split
          · rename_i hknown
            exact .returns houtside hconsistent hline hnotAbove hknown
          · rename_i hunknown
            exact .astray houtside hconsistent hline hnotAbove hunknown

inductive AtLexeme (tabSize : Nat) (s : Layout) (l : Lexeme κ) : LayoutStep κ → Prop
  | newline {step : LayoutStep κ} (role : LayoutKind.role l.kind = .newline)
      (found : AtNewline tabSize s l step) : AtLexeme tabSize s l step
  | opening (role : LayoutKind.role l.kind = .opening) :
      AtLexeme tabSize s l ⟨[l], .ok { s with brackets := s.brackets + 1 }⟩
  | unopened (role : LayoutKind.role l.kind = .closing) (outside : s.brackets = 0) :
      AtLexeme tabSize s l ⟨[l], .error .unopenedBracket⟩
  | closing (role : LayoutKind.role l.kind = .closing) (inside : 0 < s.brackets) :
      AtLexeme tabSize s l ⟨[l], .ok { s with brackets := s.brackets - 1 }⟩
  | other (role : LayoutKind.role l.kind = .other) : AtLexeme tabSize s l ⟨[l], .ok s⟩

theorem atLexeme (tabSize : Nat) (s : Layout) (l : Lexeme κ) :
    AtLexeme tabSize s l (s.read tabSize l) := by
  unfold Layout.read
  split
  · rename_i hrole
    exact .newline hrole (atNewline tabSize s l)
  · rename_i hrole
    exact .opening hrole
  · rename_i hrole
    split
    · rename_i houtside
      exact .unopened hrole houtside
    · rename_i hinside
      exact .closing hrole (Nat.pos_of_ne_zero hinside)
  · rename_i hrole
    exact .other hrole

theorem read_newline (hl : LayoutKind.role l.kind = .newline) (tabSize : Nat) (s : Layout) :
    s.read tabSize l = readNewline tabSize s l := by
  rw [Layout.read, hl]

/-- What is handed on at a lexeme is the lexeme itself, or takes its positions from it. -/
theorem mem_emitted_read {e : Lexeme κ} (h : e ∈ (s.read tabSize l).emitted) :
    e = l ∨ ∃ text, e = l.borrow LayoutKind.indent text ∨ e = l.borrow LayoutKind.dedent text := by
  have hstep := atLexeme tabSize s l
  generalize s.read tabSize l = step at h hstep
  cases hstep with
  | newline role found =>
      cases found with
      | bracketed | mixed => contradiction
      | unbroken => exact .inl (List.mem_singleton.mp h)
      | deeper =>
          simp only [List.mem_cons, List.not_mem_nil, or_false] at h
          rcases h with rfl | rfl
          · exact .inl rfl
          · exact .inr ⟨_, .inl rfl⟩
      | returns | astray =>
          rcases List.mem_cons.mp h with rfl | h
          · exact .inl rfl
          · obtain ⟨_, -, rfl⟩ := List.mem_map.mp h
            exact .inr ⟨_, .inr rfl⟩
  | opening | unopened | closing | other => exact .inl (List.mem_singleton.mp h)

theorem emitted_of_role_ne (hl : LayoutKind.role l.kind ≠ .newline) :
    (s.read tabSize l).emitted = [l] := by
  have hstep := atLexeme tabSize s l
  generalize s.read tabSize l = step at hstep
  cases hstep with
  | newline role => exact absurd role hl
  | opening | unopened | closing | other => rfl

/-- A lexeme that is refused for its indentation is refused where it ends. -/
theorem location_of_fault {error : LexicalError}
    (h : (s.read tabSize l).next = .error (.lexical error)) :
    (error.reason = .tabError ∨ error.reason = .indentationError) ∧
      error.location = endLocation l := by
  have hstep := atLexeme tabSize s l
  generalize s.read tabSize l = step at h hstep
  cases hstep with
  | newline role found =>
      cases found with
      | mixed =>
          cases h
          exact ⟨.inl rfl, rfl⟩
      | astray =>
          cases h
          exact ⟨.inr rfl, rfl⟩
      | bracketed | unbroken | deeper | returns => cases h
  | opening | unopened | closing | other => cases h

/-- At the end all levels but the margin are closed. -/
theorem finish_eq (s : Layout) (last : Option (Lexeme κ)) :
    ∃ d : Lexeme κ, d.kind = LayoutKind.dedent ∧ d.text = "" ∧
      s.finish last = s.levels.dropLast.map fun _ => d := by
  refine ⟨_, ?_, ?_, rfl⟩
  all_goals
    cases last with
    | none => rfl
    | some l =>
        simp only
        split <;> rfl

def bracketsBehind (depth : Nat) (l : Lexeme κ) : Nat :=
  match LayoutKind.role l.kind with
  | .opening => depth + 1
  | .closing => depth - 1
  | .newline | .other => depth

theorem brackets_read (h : (s.read tabSize l).next = .ok s') :
    s'.brackets = bracketsBehind s.brackets l := by
  have hstep := atLexeme tabSize s l
  unfold bracketsBehind
  generalize s.read tabSize l = step at h hstep
  cases hstep with
  | newline role found =>
      rw [role]
      cases found <;> cases h <;> rfl
  | opening role | closing role | other role =>
      rw [role]
      cases h
      rfl
  | unopened => cases h

theorem mem_dropWhile {new old : Nat} {levels : List Nat} (h : old ∈ levels) (hle : old ≤ new) :
    old ∈ levels.dropWhile (new < ·) := by
  induction levels with
  | nil => contradiction
  | cons level levels ih =>
      rw [List.dropWhile_cons]
      split
      · rename_i hlt
        have hlt := of_decide_eq_true hlt
        exact ih ((List.mem_cons.mp h).resolve_left (by omega))
      · exact h

/-- The left margin is always an open level. -/
theorem margin_read (h : (s.read tabSize l).next = .ok s') (hs : 0 ∈ s.levels) :
    0 ∈ s'.levels := by
  have hstep := atLexeme tabSize s l
  generalize s.read tabSize l = step at h hstep
  cases hstep with
  | newline role found =>
      cases found with
      | bracketed =>
          cases h
          exact hs
      | deeper =>
          cases h
          exact List.mem_cons_of_mem _ hs
      | returns =>
          cases h
          exact mem_dropWhile hs (Nat.zero_le _)
      | mixed | unbroken | astray => cases h
  | opening | closing | other =>
      cases h
      exact hs
  | unopened => cases h

/-! ### Many lexemes -/

/-- Layout reads the lexemes from `s` to `s'`, refuses none and hands on `out`. -/
inductive Reads (tabSize : Nat) : Layout → List (Lexeme κ) → List (Lexeme κ) → Layout → Prop
  | nil {s : Layout} : Reads tabSize s [] [] s
  | cons {s s' s'' : Layout} {l : Lexeme κ} {ls out : List (Lexeme κ)}
      (first : (s.read tabSize l).next = .ok s') (behind : Reads tabSize s' ls out s'') :
      Reads tabSize s (l :: ls) ((s.read tabSize l).emitted ++ out) s''

theorem Reads.append {ls' out' : List (Lexeme κ)} (h : Reads tabSize s ls out s')
    (h' : Reads tabSize s' ls' out' s'') : Reads tabSize s (ls ++ ls') (out ++ out') s'' := by
  induction h with
  | nil => exact h'
  | cons first _ ih =>
      rw [List.append_assoc]
      exact .cons first (ih h')

theorem Reads.of_append {before after : List (Lexeme κ)}
    (h : Reads tabSize s (before ++ after) out s'') :
    ∃ out₁ out₂ s', Reads tabSize s before out₁ s' ∧ Reads tabSize s' after out₂ s'' ∧
      out = out₁ ++ out₂ := by
  induction before generalizing s out with
  | nil => exact ⟨[], out, s, .nil, h, rfl⟩
  | cons l before ih =>
      cases h with
      | cons first behind =>
          obtain ⟨out₁, out₂, s', hbefore, hafter, rfl⟩ := ih behind
          exact ⟨_, out₂, s', .cons first hbefore, hafter, (List.append_assoc ..).symm⟩

theorem Reads.unique {out' : List (Lexeme κ)} (h : Reads tabSize s ls out s')
    (h' : Reads tabSize s ls out' s'') : out = out' ∧ s' = s'' := by
  induction h generalizing out' s'' with
  | nil =>
      cases h'
      exact ⟨rfl, rfl⟩
  | cons first _ ih =>
      cases h' with
      | cons first' behind' =>
          rw [first] at first'
          cases first'
          obtain ⟨rfl, rfl⟩ := ih behind'
          exact ⟨rfl, rfl⟩

theorem Reads.margin (h : Reads tabSize s ls out s') (hs : 0 ∈ s.levels) : 0 ∈ s'.levels := by
  induction h with
  | nil => exact hs
  | cons first _ ih => exact ih (margin_read first hs)

theorem Reads.brackets_eq (h : Reads tabSize s ls out s') :
    s'.brackets = ls.foldl bracketsBehind s.brackets := by
  induction h with
  | nil => rfl
  | cons first _ ih => rw [List.foldl_cons, ← brackets_read first, ih]

/-- Behind lexemes that are read, an input goes on from the state that they lead to. -/
theorem Reads.readFrom_append (h : Reads tabSize s ls out s') (last : Option (Lexeme κ))
    (after : List (Lexeme κ)) :
    readFrom tabSize s last (ls ++ after) =
      (out ++ (readFrom tabSize s' (ls.getLast?.or last) after).1,
        (readFrom tabSize s' (ls.getLast?.or last) after).2) := by
  induction h generalizing last with
  | nil => rfl
  | @cons s s' s'' l ls out first _ ih =>
      rw [List.cons_append, readFrom]
      simp only [first]
      rw [ih (some l), List.append_assoc, List.getLast?_cons]
      cases ls.getLast? <;> rfl

/-- An input that is read to its end leaves the levels to close. -/
theorem Reads.readFrom_eq (h : Reads tabSize s ls out s') (last : Option (Lexeme κ)) :
    readFrom tabSize s last ls = (out ++ s'.finish (ls.getLast?.or last), none) := by
  have hall := h.readFrom_append last []
  rwa [List.append_nil] at hall

/-- An input that is read up to a lexeme is given up if that one is refused. -/
theorem Reads.readFrom_error {fault : LayoutFault} (h : Reads tabSize s ls out s')
    (hfault : (s'.read tabSize l).next = .error fault) (last : Option (Lexeme κ))
    (after : List (Lexeme κ)) :
    readFrom tabSize s last (ls ++ l :: after) =
      (out ++ (s'.read tabSize l).emitted, some fault) := by
  rw [h.readFrom_append, readFrom]
  simp only [hfault]

/-- An input is read up to its end, or up to the first lexeme that is refused. -/
theorem readFrom_cases (tabSize : Nat) (s : Layout) (last : Option (Lexeme κ))
    (ls : List (Lexeme κ)) :
    (∃ out s', Reads tabSize s ls out s' ∧
      readFrom tabSize s last ls = (out ++ s'.finish (ls.getLast?.or last), none)) ∨
    ∃ before l after out s' fault, ls = before ++ l :: after ∧ Reads tabSize s before out s' ∧
      (s'.read tabSize l).next = .error fault ∧
      readFrom tabSize s last ls = (out ++ (s'.read tabSize l).emitted, some fault) := by
  induction ls generalizing s last with
  | nil => exact .inl ⟨[], s, .nil, rfl⟩
  | cons l ls ih =>
      cases hnext : (s.read tabSize l).next with
      | error fault =>
          have hresult := Reads.nil.readFrom_error hnext last ls
          exact .inr ⟨[], l, ls, [], s, fault, rfl, .nil, hnext, hresult⟩
      | ok s' =>
          rcases ih s' (some l) with ⟨out, s'', hreads, -⟩ |
            ⟨before, k, after, out, s'', fault, rfl, hreads, hfault, -⟩
          · have hall := Reads.cons hnext hreads
            exact .inl ⟨_, s'', hall, hall.readFrom_eq last⟩
          · have hall := Reads.cons hnext hreads
            have hresult := hall.readFrom_error hfault last after
            exact .inr ⟨l :: before, k, after, _, s'', fault, rfl, hall, hfault, hresult⟩

/-- An input is read without a fault if all of it is read. -/
theorem readAll_eq_none_iff {input : List (Lexeme κ)} :
    (readAll tabSize input).2 = none ↔ ∃ out s, Reads tabSize {} input out s := by
  constructor
  · intro h
    rcases readFrom_cases tabSize {} none input with ⟨out, s, hreads, -⟩ |
      ⟨_, _, _, _, _, fault, -, -, -, hresult⟩
    · exact ⟨out, s, hreads⟩
    · rw [readAll, hresult] at h
      contradiction
  · rintro ⟨out, s, hreads⟩
    rw [readAll, hreads.readFrom_eq none]

end Layout

end SyntaxTriage
