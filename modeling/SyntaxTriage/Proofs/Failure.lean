import Mathlib.Data.List.Nodup
import Mathlib.Data.List.Perm.Basic
import SyntaxTriage.Failure
import SyntaxTriage.Reason.Kind

/-!
What is said of a lexeme that the parser cannot go on with. It depends on the kind of the lexeme and
on the set of names that it could have been: a list of names says the same in any order and with any
repetitions. The text of a lexeme of layout says nothing.
-/

namespace SyntaxTriage

/-! ### Tokens -/

theorem Token.ofTerminal_eq_indent_iff {name text : String} :
    ofTerminal name text = Token.indent ↔ displayName name = Token.indent.kind := by
  unfold ofTerminal
  simp only
  constructor
  · intro h
    split at h
    · exact congrArg Token.kind h
    · exact congrArg Token.kind h
  · intro h
    rw [h, if_pos (by decide)]
    rfl

theorem SpannedToken.token_ofLexeme (l : Lexeme String) :
    (ofLexeme l).token = Token.ofTerminal l.kind l.text := by
  unfold ofLexeme
  simp only
  split
  · split <;> rfl
  · rfl

/-! ### Lists of names -/

section Distinct

variable {α : Type} [BEq α] [LawfulBEq α]

theorem nodup_eraseDups (xs : List α) : xs.eraseDups.Nodup := by
  cases xs with
  | nil => exact List.nodup_nil
  | cons x xs =>
      rw [List.eraseDups_cons, List.nodup_cons]
      refine ⟨?_, nodup_eraseDups (xs.filter fun y => !y == x)⟩
      rw [List.mem_eraseDups]
      simp
termination_by xs.length
decreasing_by exact Nat.lt_succ_of_le (List.length_filter_le _ _)

theorem eraseDups_of_nodup {xs : List α} (h : xs.Nodup) : xs.eraseDups = xs := by
  induction xs with
  | nil => rfl
  | cons x xs ih =>
      obtain ⟨hx, hxs⟩ := List.nodup_cons.mp h
      have hfilter : xs.filter (fun y => !y == x) = xs := by
        rw [List.filter_eq_self]
        intro y hy
        have hyx : y ≠ x := fun heq => hx (heq ▸ hy)
        simpa using hyx
      rw [List.eraseDups_cons, hfilter, ih hxs]

theorem eraseDups_perm {xs ys : List α} (h : ∀ a, a ∈ xs ↔ a ∈ ys) :
    xs.eraseDups.Perm ys.eraseDups := by
  rw [List.perm_ext_iff_of_nodup (nodup_eraseDups xs) (nodup_eraseDups ys)]
  intro a
  rw [List.mem_eraseDups, List.mem_eraseDups, h]

/-- One element is left if it is all that is listed. -/
theorem eraseDups_eq_singleton_iff {xs : List α} {x : α} :
    xs.eraseDups = [x] ↔ ∀ a, a ∈ xs ↔ a = x := by
  constructor
  · intro h a
    rw [← List.mem_eraseDups, h, List.mem_singleton]
  · intro h
    have hperm : xs.eraseDups.Perm [x].eraseDups :=
      eraseDups_perm fun a => (h a).trans List.mem_singleton.symm
    rw [eraseDups_of_nodup (List.nodup_singleton x)] at hperm
    exact List.perm_singleton.mp hperm

end Distinct

namespace Rejection

/-- The names that a rejection goes by: those that the parser would go on with, or else those that
the state calls for. -/
def alternatives (expected accepted : List String) : List String :=
  if accepted.isEmpty then expected else accepted

def IsOnly (name : String) (names : List String) : Prop := ∀ other, other ∈ names ↔ other = name

theorem mem_alternatives_congr {expected accepted expected' accepted' : List String}
    (hexpected : ∀ n, n ∈ expected' ↔ n ∈ expected)
    (haccepted : ∀ n, n ∈ accepted' ↔ n ∈ accepted) (n : String) :
    n ∈ alternatives expected' accepted' ↔ n ∈ alternatives expected accepted := by
  have hempty : accepted'.isEmpty = accepted.isEmpty := by
    rw [Bool.eq_iff_iff, List.isEmpty_iff, List.isEmpty_iff, List.eq_nil_iff_forall_not_mem,
      List.eq_nil_iff_forall_not_mem]
    exact forall_congr' fun n => not_congr (haccepted n)
  rw [alternatives, alternatives, hempty]
  split
  · exact hexpected n
  · exact haccepted n

/-! ### Names as they are shown -/

theorem perm_displayNames (names : List String) :
    (displayNames names).Perm (names.map Token.displayName) :=
  List.mergeSort_perm _ _

theorem sorted_displayNames (names : List String) : (displayNames names).Pairwise (· ≤ ·) := by
  have htrans (a b c : String) (hab : decide (a ≤ b) = true) (hbc : decide (b ≤ c) = true) :
      decide (a ≤ c) = true :=
    decide_eq_true (String.le_trans (of_decide_eq_true hab) (of_decide_eq_true hbc))
  have htotal (a b : String) : (decide (a ≤ b) || decide (b ≤ a)) = true := by
    simpa using String.le_total a b
  exact (List.pairwise_mergeSort htrans htotal _).imp of_decide_eq_true

/-- Sorted names have only one order. -/
theorem displayNames_congr {names names' : List String} (h : names.Perm names') :
    displayNames names = displayNames names' := by
  have hperm := (perm_displayNames names).trans
    ((h.map Token.displayName).trans (perm_displayNames names').symm)
  exact hperm.eq_of_pairwise (fun _ _ _ _ => String.le_antisymm) (sorted_displayNames names)
    (sorted_displayNames names')

/-- A hint is given if a single name is expected, and is what that name is shown as. -/
theorem hint_displayNames_eq_some_iff {names : List String} {shown : String} :
    Failure.hint (displayNames names) = some shown ↔
      ∃ name, names = [name] ∧ Token.displayName name = shown := by
  have hperm := perm_displayNames names
  constructor
  · intro h
    unfold Failure.hint at h
    split at h
    · rename_i found hfound
      cases h
      rw [hfound, List.singleton_perm] at hperm
      obtain ⟨name, hname, hshown⟩ := List.map_eq_singleton_iff.mp hperm.symm
      exact ⟨name, hname, hshown⟩
    · contradiction
  · rintro ⟨name, rfl, rfl⟩
    rw [List.map_singleton, List.perm_singleton] at hperm
    rw [hperm]
    rfl

/-! ### The three shapes -/

section Shapes

variable {l : Lexeme String} {expected accepted : List String} {fallback : Option Location}

theorem toFailure_end (hend : l.kind = Terminal.name .endOfInput) :
    (lexeme l expected accepted).toFailure fallback =
      .unrecognizedEof (Location.ofCoordinates l.line l.column (fallback.getD {}))
        (displayNames (alternatives expected accepted).eraseDups) := if_pos hend

theorem toFailure_extra (hend : l.kind ≠ Terminal.name .endOfInput)
    (honly : IsOnly (Terminal.name .endOfInput) (alternatives expected accepted)) :
    (lexeme l expected accepted).toFailure fallback = .extraToken (SpannedToken.ofLexeme l) := by
  have hsingle := eraseDups_eq_singleton_iff.mpr honly
  exact (if_neg hend).trans (if_pos hsingle)

theorem toFailure_unrecognized (hend : l.kind ≠ Terminal.name .endOfInput)
    (honly : ¬IsOnly (Terminal.name .endOfInput) (alternatives expected accepted)) :
    (lexeme l expected accepted).toFailure fallback =
      .unrecognizedToken (SpannedToken.ofLexeme l)
        (displayNames (alternatives expected accepted).eraseDups) := by
  have hsingle := mt eraseDups_eq_singleton_iff.mp honly
  exact (if_neg hend).trans (if_neg hsingle)

end Shapes

theorem toFailure_lexeme (l : Lexeme String) (expected accepted : List String)
    (fallback : Option Location) :
    ∃ shown,
      (lexeme l expected accepted).toFailure fallback = .unrecognizedEof
          (Location.ofCoordinates l.line l.column (fallback.getD {})) shown ∨
        (lexeme l expected accepted).toFailure fallback = .extraToken (SpannedToken.ofLexeme l) ∨
        (lexeme l expected accepted).toFailure fallback =
          .unrecognizedToken (SpannedToken.ofLexeme l) shown := by
  refine ⟨displayNames (alternatives expected accepted).eraseDups, ?_⟩
  by_cases hend : l.kind = Terminal.name .endOfInput
  · exact .inl (toFailure_end hend)
  · by_cases honly : IsOnly (Terminal.name .endOfInput) (alternatives expected accepted)
    · exact .inr (.inl (toFailure_extra hend honly))
    · exact .inr (.inr (toFailure_unrecognized hend honly))

/-! ### Main result -/

/-- The location at which the lexeme starts if it knows it, and otherwise the fallback or the
beginning of the text. -/
structure StartsAt (l : Lexeme String) (fallback : Option Location) (location : Location) :
    Prop where
  known : ∀ row column, l.line = some row → l.column = some column → 0 < row → 0 < column →
    location = ⟨row, column⟩
  unknown : (¬∃ row column, l.line = some row ∧ l.column = some column ∧ 0 < row ∧ 0 < column) →
    location = fallback.getD ⟨1, 1⟩

structure Shows (names shown : List String) : Prop where
  sorted : shown.Pairwise (· ≤ ·)
  each : ∃ members : List String, members.Nodup ∧ (∀ n, n ∈ members ↔ n ∈ names) ∧
    shown.Perm (members.map Token.displayName)

/-- What is said of a lexeme in whose place one of the names is called for. -/
structure Classified (l : Lexeme String) (names : List String) (fallback : Option Location)
    (failure : Failure) : Prop where
  atEnd : l.kind = Terminal.name .endOfInput →
    ∃ location shown, failure = .unrecognizedEof location shown ∧ Shows names shown ∧
      failure.toParseError = ⟨.endOfFile, location⟩ ∧ StartsAt l fallback location
  extra : l.kind ≠ Terminal.name .endOfInput → IsOnly (Terminal.name .endOfInput) names →
    failure = .extraToken (SpannedToken.ofLexeme l) ∧
      failure.toParseError.reason.kind = .extraToken ∧
      failure.toParseError.reason.isIndentation = false ∧
      failure.toParseError.reason.isTab = false
  unrecognized : l.kind ≠ Terminal.name .endOfInput → ¬IsOnly (Terminal.name .endOfInput) names →
    ∃ shown hint, failure = .unrecognizedToken (SpannedToken.ofLexeme l) shown ∧
      Shows names shown ∧
      failure.toParseError.reason = .unrecognizedToken (SpannedToken.ofLexeme l).token hint ∧
      (∀ word, hint = some word ↔ ∃ name, IsOnly name names ∧ Token.displayName name = word) ∧
      (failure.toParseError.reason.isIndentation = true ↔
        Token.displayName l.kind = "Indent" ∨ hint = some "Indent")

theorem startsAt_ofCoordinates (l : Lexeme String) (fallback : Option Location) :
    StartsAt l fallback (Location.ofCoordinates l.line l.column (fallback.getD {})) where
  known row column hline hcolumn hrow hpos := by
    rw [hline, hcolumn, Location.ofCoordinates, if_pos ⟨hrow, hpos⟩]
  unknown h := by
    unfold Location.ofCoordinates
    split
    · rename_i row column hline hcolumn
      exact if_neg fun hpos => h ⟨row, column, hline, hcolumn, hpos.1, hpos.2⟩
    · rfl

theorem shows_displayNames (names : List String) :
    Shows names (displayNames names.eraseDups) where
  sorted := sorted_displayNames _
  each := ⟨names.eraseDups, nodup_eraseDups names, fun _ => List.mem_eraseDups,
    perm_displayNames _⟩

theorem isIndentation_unrecognizedToken {l : Lexeme String} {hint : Option String} :
    (ParseReason.unrecognizedToken (SpannedToken.ofLexeme l).token hint).isIndentation = true ↔
      Token.displayName l.kind = "Indent" ∨ hint = some "Indent" := by
  rw [ParseReason.isIndentation, Bool.or_eq_true, decide_eq_true_iff, decide_eq_true_iff,
    SpannedToken.token_ofLexeme, Token.ofTerminal_eq_indent_iff]
  exact Iff.rfl

theorem classified_toFailure (l : Lexeme String) (expected accepted : List String)
    (fallback : Option Location) :
    Classified l (alternatives expected accepted) fallback
      ((lexeme l expected accepted).toFailure fallback) where
  atEnd hend := by
    rw [toFailure_end hend]
    exact ⟨_, _, rfl, shows_displayNames _, rfl, startsAt_ofCoordinates l fallback⟩
  extra hend honly := by
    rw [toFailure_extra hend honly]
    exact ⟨rfl, rfl, rfl, rfl⟩
  unrecognized hend honly := by
    rw [toFailure_unrecognized hend honly]
    refine ⟨_, _, rfl, shows_displayNames _, rfl, fun word => ?_,
      isIndentation_unrecognizedToken⟩
    rw [hint_displayNames_eq_some_iff]
    exact exists_congr fun name => and_congr_left' eraseDups_eq_singleton_iff

theorem toFailure_congr {expected accepted expected' accepted' : List String}
    (hexpected : ∀ n, n ∈ expected' ↔ n ∈ expected)
    (haccepted : ∀ n, n ∈ accepted' ↔ n ∈ accepted) (l : Lexeme String)
    (fallback : Option Location) :
    (lexeme l expected' accepted').toFailure fallback =
      (lexeme l expected accepted).toFailure fallback := by
  have hmem := mem_alternatives_congr hexpected haccepted
  have hshown := displayNames_congr (eraseDups_perm hmem)
  have hiff : IsOnly (Terminal.name .endOfInput) (alternatives expected' accepted') ↔
      IsOnly (Terminal.name .endOfInput) (alternatives expected accepted) :=
    forall_congr' fun n => iff_congr (hmem n) Iff.rfl
  by_cases hend : l.kind = Terminal.name .endOfInput
  · rw [toFailure_end hend, toFailure_end hend, hshown]
  · by_cases honly : IsOnly (Terminal.name .endOfInput) (alternatives expected accepted)
    · rw [toFailure_extra hend honly, toFailure_extra hend (hiff.mpr honly)]
    · rw [toFailure_unrecognized hend honly, toFailure_unrecognized hend (mt hiff.mp honly), hshown]

/-- Main result. A lexeme that the parser cannot go on with is told as the end of the input, as one
too many or as unrecognized, by its kind and by the set of names that are called for in its place.
Two listings with the same members come to the same failure and the same error. -/
theorem unexpected_classified {expected accepted expected' accepted' : List String}
    (hexpected : ∀ n, n ∈ expected' ↔ n ∈ expected)
    (haccepted : ∀ n, n ∈ accepted' ↔ n ∈ accepted) (l : Lexeme String)
    (fallback : Option Location) :
    Classified l (alternatives expected accepted) fallback
        ((lexeme l expected accepted).toFailure fallback) ∧
      (lexeme l expected' accepted').toFailure fallback =
        (lexeme l expected accepted).toFailure fallback ∧
      ((lexeme l expected' accepted').toFailure fallback).toParseError =
        ((lexeme l expected accepted).toFailure fallback).toParseError := by
  have hsame := toFailure_congr hexpected haccepted l fallback
  exact ⟨classified_toFailure l expected accepted fallback, hsame,
    congrArg Failure.toParseError hsame⟩

/-- The end of a line that calls for an indented block. -/
def blockless : Lexeme String := ⟨"_NEWLINE", "\n", some 1, some 6, some 2, some 1⟩

theorem unexpected_classified_blockless :
    (∀ n, n ∈ ["NUMBER", "NAME", "NAME"] ↔ n ∈ ["NAME", "NUMBER"]) ∧
      (∀ n, n ∈ ["_INDENT"] ↔ n ∈ ["_INDENT", "_INDENT"]) ∧
      Classified blockless ["_INDENT", "_INDENT"] none
        ((lexeme blockless ["NAME", "NUMBER"] ["_INDENT", "_INDENT"]).toFailure none) ∧
      ((lexeme blockless ["NUMBER", "NAME", "NAME"] ["_INDENT"]).toFailure none).toParseError =
        ⟨.unrecognizedToken .newline (some "Indent"), ⟨1, 6⟩⟩ := by
  have hexpected : ∀ n, n ∈ ["NUMBER", "NAME", "NAME"] ↔ n ∈ ["NAME", "NUMBER"] := by
    simp [or_comm]
  have haccepted : ∀ n, n ∈ ["_INDENT"] ↔ n ∈ ["_INDENT", "_INDENT"] := by simp
  obtain ⟨hclassified, -, herror⟩ := unexpected_classified hexpected haccepted blockless none
  exact ⟨hexpected, haccepted, hclassified, herror.trans (by decide +kernel)⟩

end Rejection

end SyntaxTriage
