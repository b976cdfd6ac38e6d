import SyntaxTriage.Proofs.Failure
import SyntaxTriage.Proofs.Layout.Balance

/-!
Where the faults of a line's indentation are reported. Layout refuses a line where its line break
ends. The lexemes that it puts in at the line break begin, by the positions that they take from it,
in the line before; what the parser says of them is said of the end of the line break all the same.
-/

namespace SyntaxTriage

structure Lexeme.EndsAt {κ : Type} (l : Lexeme κ) (location : Location) : Prop where
  line : l.endLine = some location.row
  column : l.endColumn = some location.column
  row_pos : 0 < location.row
  column_pos : 0 < location.column

/-- Whatever is called for in the place of the lexeme, and wherever the input ends, it is reported
as a token that starts and stops at the location, and the error is there as well. -/
def Lexeme.IsReportedAt (d : Lexeme String) (location : Location) : Prop :=
  ∀ expected accepted fallback, ∃ spanned,
    ((Rejection.lexeme d expected accepted).toFailure fallback = .extraToken spanned ∨
      ∃ shown, (Rejection.lexeme d expected accepted).toFailure fallback =
        .unrecognizedToken spanned shown) ∧
    spanned.start = location ∧ spanned.stop = location ∧
    ((Rejection.lexeme d expected accepted).toFailure fallback).toParseError.location = location

namespace Layout

variable {tabSize : Nat} {l d : Lexeme String} {location : Location}
  {before : List (Lexeme String)}

theorem endLocation_of_endsAt (h : l.EndsAt location) : endLocation l = location := by
  have hrow := h.row_pos
  have hcolumn := h.column_pos
  rw [endLocation, h.line, h.column, coordinate, coordinate, if_neg (by omega), if_neg (by omega)]

/-- A lexeme of indentation stands where it ends, wherever it begins. -/
theorem ofLexeme_of_endsAt (h : d.EndsAt location)
    (hkind : d.kind = LayoutKind.indent ∨ d.kind = LayoutKind.dedent) :
    SpannedToken.ofLexeme d = ⟨location, Token.ofTerminal d.kind d.text, location⟩ := by
  have hlayout : Token.ofTerminal d.kind d.text ∈ [Token.indent, Token.dedent] := by
    rcases hkind with hkind | hkind
    · rw [hkind]
      exact List.mem_cons_self
    · rw [hkind]
      exact List.mem_cons_of_mem _ List.mem_cons_self
  rw [SpannedToken.ofLexeme, h.line, h.column]
  exact if_pos hlayout

theorem isReportedAt_of_endsAt (h : d.EndsAt location)
    (hkind : d.kind = LayoutKind.indent ∨ d.kind = LayoutKind.dedent) :
    d.IsReportedAt location := by
  intro expected accepted fallback
  have hspanned := ofLexeme_of_endsAt h hkind
  have hend : d.kind ≠ Terminal.name .endOfInput := by
    rcases hkind with hkind | hkind <;> rw [hkind] <;> decide
  refine ⟨SpannedToken.ofLexeme d, ?_⟩
  by_cases honly : Rejection.IsOnly (Terminal.name .endOfInput)
      (Rejection.alternatives expected accepted)
  · rw [Rejection.toFailure_extra hend honly, Failure.toParseError, hspanned]
    exact ⟨.inl rfl, rfl, rfl, rfl⟩
  · rw [Rejection.toFailure_unrecognized hend honly, Failure.toParseError, hspanned]
    exact ⟨.inr ⟨_, rfl⟩, rfl, rfl, rfl⟩

/-- What is put in at a line break ends where the line break does. -/
theorem endsAt_of_mem_emitted {s : Layout} (h : l.EndsAt location)
    (hd : d ∈ (s.read tabSize l).emitted) : d.EndsAt location := by
  rcases mem_emitted_read hd with rfl | ⟨_, rfl | rfl⟩
  · exact h
  · exact ⟨h.line, h.column, h.row_pos, h.column_pos⟩
  · exact ⟨h.line, h.column, h.row_pos, h.column_pos⟩

/-- Main result. A line break that is come to is refused for the indentation behind it at the
location where it ends, and all lexemes of indentation that are put in there, whether it is then
refused or not, are reported at that location. -/
theorem process_reportedAt (used : Layout) (after : List (Lexeme String))
    (hread : (readAll tabSize before).2 = none) (hend : l.EndsAt location) :
    ∃ out s behind, Reads tabSize {} before out s ∧
      (process tabSize used (before ++ l :: after)).1 =
        out ++ (s.read tabSize l).emitted ++ behind ∧
      (∀ error, (s.read tabSize l).next = .error (.lexical error) →
        (process tabSize used (before ++ l :: after)).2 = some (.lexical error) ∧
          (error.reason = .tabError ∨ error.reason = .indentationError) ∧
          error.location = location) ∧
      ∀ d ∈ (s.read tabSize l).emitted,
        d.kind = Terminal.name .indent ∨ d.kind = Terminal.name .dedent →
          d.IsReportedAt location := by
  obtain ⟨out, s, hreads⟩ := readAll_eq_none_iff.mp hread
  have hreported : ∀ d ∈ (s.read tabSize l).emitted,
      d.kind = Terminal.name .indent ∨ d.kind = Terminal.name .dedent → d.IsReportedAt location :=
    fun d hd hkind => isReportedAt_of_endsAt (endsAt_of_mem_emitted hend hd) hkind
  cases hnext : (s.read tabSize l).next with
  | error fault =>
      have hresult := hreads.readFrom_error hnext none after
      rw [← readAll, ← process_eq tabSize used] at hresult
      refine ⟨out, s, [], hreads, by rw [hresult, List.append_nil], ?_, hreported⟩
      intro error herror
      cases hnext.symm.trans herror
      obtain ⟨hreason, hlocation⟩ := location_of_fault hnext
      exact ⟨by rw [hresult], hreason, hlocation.trans (endLocation_of_endsAt hend)⟩
  | ok s' =>
      have hresult := (hreads.append (.cons hnext .nil)).readFrom_append none after
      rw [List.append_assoc, List.singleton_append, List.append_nil, ← readAll,
        ← process_eq tabSize used] at hresult
      refine ⟨out, s, _, hreads, congrArg Prod.fst hresult, ?_, hreported⟩
      intro error herror
      cases hnext.symm.trans herror

def betweenLevels : List (Lexeme String) :=
  [⟨"_NEWLINE", "\n    ", some 1, some 6, some 2, some 5⟩,
    ⟨"_NEWLINE", "\n  ", some 2, some 6, some 3, some 3⟩]

/-- The innermost level is closed at the place where the line is then refused. -/
theorem process_reportedAt_betweenLevels :
    (readAll 8 (betweenLevels.take 1)).2 = none ∧ betweenLevels[1].EndsAt ⟨3, 3⟩ ∧
      (process 8 {} betweenLevels).2 = some (.lexical ⟨.indentationError, ⟨3, 3⟩⟩) ∧
      (betweenLevels[1].borrow "_DEDENT" "  ").IsReportedAt ⟨3, 3⟩ := by
  have hread : (readAll 8 (betweenLevels.take 1)).2 = none := by decide
  have hend : betweenLevels[1].EndsAt ⟨3, 3⟩ := ⟨rfl, rfl, by decide, by decide⟩
  obtain ⟨out, s, behind, hreads, -, hfault, hreported⟩ := process_reportedAt {} [] hread hend
  have hbefore : Reads 8 {} (betweenLevels.take 1)
      [betweenLevels[0], betweenLevels[0].borrow "_INDENT" "    "]
      ⟨0, [4, 0], [' ', ' ', ' ', ' ']⟩ := .cons rfl .nil
  obtain ⟨-, rfl⟩ := hbefore.unique hreads
  exact ⟨hread, hend, (hfault ⟨.indentationError, ⟨3, 3⟩⟩ rfl).1,
    hreported _ (by decide) (.inr rfl)⟩

end Layout

end SyntaxTriage
