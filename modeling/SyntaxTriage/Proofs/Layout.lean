import SyntaxTriage.Proofs.Grammar.Productions
import SyntaxTriage.Proofs.Layout.Growth
import SyntaxTriage.Proofs.Lexer.Lines
import SyntaxTriage.Source

/-!
What layout does to lexemes. It hands every lexeme on unless it is a line break inside brackets, and
puts in lexemes that are neither brackets nor strings. Its count of brackets is therefore the count
over the lexemes that it hands on.
-/

namespace SyntaxTriage

open Grammar

namespace Layout

variable {tabSize : Nat} {s : Layout} {l : Lexeme Terminal}

/-- The terminals that layout puts in count as no brackets. -/
theorem openBrackets_plain {depth : Nat} {ts : List Terminal}
    (h : ∀ t ∈ ts, t = .newline ∨ t = .indent ∨ t = .dedent) :
    openBrackets depth (ts.map .terminal) = some depth := by
  induction ts with
  | nil => rfl
  | cons t ts ih =>
      have ht : countBracket depth (.terminal t) = some depth := by
        rcases h t List.mem_cons_self with rfl | rfl | rfl <;> rfl
      rw [List.map_cons, openBrackets_cons, ht]
      exact ih fun u hu => h u (List.mem_cons_of_mem t hu)

theorem role_eq_newline_iff {t : Terminal} : LayoutKind.role t = .newline ↔ t = .newline := by
  constructor
  · intro h
    unfold LayoutKind.role instLayoutKindTerminal at h
    simp only at h
    split at h
    all_goals first | rfl | contradiction
  · rintro rfl
    rfl

/-- The lexemes that are handed on at a line break are the line break itself, if it is one of the
source, and changes of indentation. -/
theorem emitted_readNewline (hl : l.kind = .newline) :
    ∀ e ∈ (readNewline tabSize s l).emitted,
      e.kind = .newline ∨ e.kind = .indent ∨ e.kind = .dedent := by
  rw [← read_newline (role_eq_newline_iff.mpr hl)]
  intro e he
  rcases mem_emitted_read he with rfl | ⟨_, rfl | rfl⟩
  · exact .inl hl
  · exact .inr (.inl rfl)
  · exact .inr (.inr rfl)

theorem brackets_readNewline {s' : Layout} (h : (readNewline tabSize s l).next = .ok s') :
    s'.brackets = s.brackets := by
  have hstep := atNewline tabSize s l
  generalize readNewline tabSize s l = step at h hstep
  cases hstep with
  | bracketed | deeper | returns =>
      cases h
      rfl
  | mixed | unbroken | astray => cases h

/-- A line break is refused for its indentation, or because it holds no line break. -/
theorem readNewline_fault {fault : LayoutFault}
    (h : (readNewline tabSize s l).next = .error fault) :
    (∃ error, fault = .lexical error ∧ error.reason.cause = none) ∨
      fault = .noLineBreak ∧ '\n' ∉ l.text.toList := by
  have hstep := atNewline tabSize s l
  generalize readNewline tabSize s l = step at h hstep
  cases hstep with
  | bracketed | deeper | returns => cases h
  | mixed | astray =>
      cases h
      exact .inl ⟨_, rfl, rfl⟩
  | unbroken _ _ text =>
      cases h
      refine .inr ⟨rfl, fun hl => ?_⟩
      rw [lastLine?, if_pos hl] at text
      contradiction

/-- Why a lexeme is refused. -/
inductive Refused (l : Lexeme Terminal) : LayoutFault → Prop
  | lexical {error : LexicalError} (cause : error.reason.cause = none) : Refused l (.lexical error)
  | unopened : Refused l .unopenedBracket
  | unbroken (kind : l.kind = .newline) (text : '\n' ∉ l.text.toList) : Refused l .noLineBreak

/-- The count of brackets is the count over the lexemes that are handed on, and there is none if
and only if a bracket closes nothing. -/
theorem openBrackets_read (tabSize : Nat) (s : Layout) (l : Lexeme Terminal) :
    openBrackets s.brackets ((s.read tabSize l).emitted.map fun e => .terminal e.kind) =
      match (s.read tabSize l).next with
      | .ok s' => some s'.brackets
      | .error .unopenedBracket => none
      | .error _ => some s.brackets := by
  unfold Layout.read
  have hsingle (depth : Nat) :
      openBrackets depth ([l].map fun e => .terminal e.kind) =
        countBracket depth (.terminal l.kind) := by
    simp [openBrackets]
  split
  · rename_i hrole
    have hkinds : ∀ t ∈ (readNewline tabSize s l).emitted.map Lexeme.kind,
        t = .newline ∨ t = .indent ∨ t = .dedent := by
      intro t ht
      obtain ⟨e, he, rfl⟩ := List.mem_map.mp ht
      exact emitted_readNewline (role_eq_newline_iff.mp hrole) e he
    have hplain := @openBrackets_plain s.brackets _ hkinds
    rw [List.map_map] at hplain
    rw [show (fun e : Lexeme Terminal => Symbol.terminal e.kind) = Symbol.terminal ∘ Lexeme.kind
      from rfl, hplain]
    cases hnext : (readNewline tabSize s l).next with
    | ok s' => exact congrArg some (brackets_readNewline hnext).symm
    | error fault =>
        rcases readNewline_fault hnext with ⟨error, rfl, -⟩ | ⟨rfl, -⟩
        · rfl
        · rfl
  · rename_i hrole
    rw [hsingle]
    simp only [countBracket, hrole]
  · rename_i hrole
    rw [hsingle]
    simp only [countBracket, hrole]
    split <;> rfl
  · rename_i hrole
    rw [hsingle]
    simp only [countBracket, hrole]

theorem refused_read {fault : LayoutFault} (h : (s.read tabSize l).next = .error fault) :
    Refused l fault := by
  unfold Layout.read at h
  split at h
  · rename_i hrole
    rcases readNewline_fault h with ⟨error, rfl, hcause⟩ | ⟨rfl, hl⟩
    · exact .lexical hcause
    · exact .unbroken (role_eq_newline_iff.mp hrole) hl
  · contradiction
  · simp only at h
    split at h
    · cases h
      exact .unopened
    · contradiction
  · contradiction

/-- No string is lost, and none is put in. -/
theorem filter_isString_read {s' : Layout} (h : (s.read tabSize l).next = .ok s') :
    (s.read tabSize l).emitted.filter Source.isString = [l].filter Source.isString := by
  unfold Layout.read at h ⊢
  split at h
  · rename_i hrole
    have hl := role_eq_newline_iff.mp hrole
    have hnone : ∀ e ∈ (readNewline tabSize s l).emitted, ¬Source.isString e = true := by
      intro e he
      rcases emitted_readNewline hl e he with hkind | hkind | hkind <;>
        simp [Source.isString, hkind]
    rw [List.filter_eq_nil_iff.mpr hnone]
    simp [Source.isString, hl]
  all_goals rfl

/-! ### Line breaks outside brackets -/

/-- Outside brackets a line break that is not refused is handed on first. -/
theorem emitted_newline {s' : Layout} (hl : l.kind = .newline) (hs : s.brackets = 0)
    (h : (s.read tabSize l).next = .ok s') : ∃ rest, (s.read tabSize l).emitted = l :: rest := by
  rw [read_newline (role_eq_newline_iff.mpr hl)] at h ⊢
  have hstep := atNewline tabSize s l
  generalize readNewline tabSize s l = step at h hstep
  cases hstep with
  | bracketed inside => omega
  | deeper | returns => exact ⟨_, rfl⟩
  | mixed | unbroken | astray => cases h

/-! ### The end of whole lines -/

theorem lastLine?_wholeLines {text : List Char} (h : Lexer.WholeLines text) :
    lastLine? text = some [] := by
  obtain ⟨before, rfl⟩ := List.getLast?_eq_some_iff.mp h
  simp [lastLine?]

theorem head?_dropWhile_margin {levels : List Nat} (h : 0 ∈ levels) :
    (levels.dropWhile (0 < ·)).head? = some 0 := by
  have hmem := mem_dropWhile h (Nat.le_refl 0)
  cases hlevels : levels.dropWhile (0 < ·) with
  | nil =>
      rw [hlevels] at hmem
      contradiction
  | cons level rest =>
      have hnot := List.head?_dropWhile_not (fun level => decide (0 < level)) levels
      simp only [hlevels, List.head?_cons] at hnot ⊢
      simp at hnot
      rw [hnot]

/-- At the end of whole lines outside brackets the line break is handed on, and all levels but the
margin are closed. -/
theorem read_lineEnd (htab : 0 < tabSize) (hl : l.kind = .newline)
    (hend : Lexer.WholeLines l.text.toList) (hmargin : 0 ∈ s.levels) (hs : s.brackets = 0) :
    ∃ dedents s', s.read tabSize l = ⟨l :: dedents, .ok s'⟩ ∧
      (∀ d ∈ dedents, d.kind = .dedent) ∧ s'.levels.head? = some 0 := by
  have hindentation : indentation l.text.toList = [] := by
    rw [indentation, lastLine?_wholeLines hend]
    rfl
  have hlevel : level tabSize [] = 0 := by simp [level]
  have hhead : ¬s.levels.head?.any (· < 0) = true := by
    cases s.levels.head? <;> simp
  rw [read_newline (role_eq_newline_iff.mpr hl)]
  unfold readNewline
  simp only [hindentation, lastLine?_wholeLines hend, (nested_nil _).not_inconsistent htab, hlevel,
    head?_dropWhile_margin hmargin]
  rw [if_neg (by omega), if_neg Bool.false_ne_true, if_neg hhead, if_pos trivial]
  refine ⟨_, _, rfl, fun d hd => ?_, head?_dropWhile_margin hmargin⟩
  obtain ⟨_, -, rfl⟩ := List.mem_map.mp hd
  rfl

end Layout

end SyntaxTriage
