import SyntaxTriage.Proofs.Layout.Balance

/-!
Line breaks inside brackets. Layout drops them and keeps its state, so that an input has the same
layout without them, and is refused at the same lexeme and for the same reason. What can differ is
the last lexeme of the input, from which the lexemes that close the levels at the end take their
positions.
-/

namespace SyntaxTriage.Layout

variable {κ : Type} [LayoutKind κ] {tabSize : Nat} {s s' : Layout} {l : Lexeme κ}
  {ls out : List (Lexeme κ)}

def content (l : Lexeme κ) : κ × String := (l.kind, l.text)

/-- A line break inside brackets is dropped, whatever its text. -/
theorem read_innerBreak (hl : LayoutKind.role l.kind = .newline ∧ 0 < s.brackets) :
    s.read tabSize l = ⟨[], .ok s⟩ := by
  rw [read_newline hl.1, readNewline, if_pos hl.2]

theorem Reads.dropBreaks (h : Reads tabSize s ls out s') :
    Reads tabSize s (withoutInnerBreaks s.brackets ls) out s' := by
  induction h with
  | nil => exact .nil
  | @cons s s' s'' l ls out first _ ih =>
      rw [withoutInnerBreaks, ← brackets_read first]
      split
      · rename_i hl
        rw [read_innerBreak hl] at first ⊢
        cases first
        exact ih
      · exact .cons first ih

/-- A lexeme that is refused is none of the line breaks that are left out. -/
theorem withoutInnerBreaks_of_fault {fault : LayoutFault}
    (h : (s.read tabSize l).next = .error fault) (ls : List (Lexeme κ)) :
    ∃ after, withoutInnerBreaks s.brackets (l :: ls) = l :: after := by
  refine ⟨withoutInnerBreaks (bracketsBehind s.brackets l) ls, ?_⟩
  rw [withoutInnerBreaks, if_neg, List.singleton_append]
  intro hl
  rw [read_innerBreak hl] at h
  contradiction

theorem content_finish (s : Layout) (last : Option (Lexeme κ)) :
    (s.finish last).map content = List.replicate (s.levels.length - 1) (LayoutKind.dedent, "") := by
  obtain ⟨d, hd, htext, hfinish⟩ := finish_eq s last
  rw [hfinish, List.map_map, ← List.length_dropLast, ← List.map_const', ← hd, ← htext]
  rfl

/-- Main result. Without the line breaks inside brackets an input has the same layout, up to the
positions of the lexemes that close the levels at the end, or it is refused in the same way with the
same lexemes handed on. What stands behind a lexeme that is refused has no part in it. -/
theorem process_withoutInnerBreaks (tabSize : Nat) (used used' : Layout)
    (input : List (Lexeme κ)) :
    (∃ out s closing closing',
      Reads tabSize {} input out s ∧ Reads tabSize {} (withoutInnerBreaks 0 input) out s ∧
      process tabSize used input = (out ++ closing, none) ∧
      process tabSize used' (withoutInnerBreaks 0 input) = (out ++ closing', none) ∧
      closing.map content = List.replicate (s.levels.length - 1) (LayoutKind.dedent, "") ∧
      closing'.map content = List.replicate (s.levels.length - 1) (LayoutKind.dedent, "")) ∨
    ∃ out fault, process tabSize used input = (out, some fault) ∧
      process tabSize used' (withoutInnerBreaks 0 input) = (out, some fault) ∧
      ∃ before l after, input = before ++ l :: after ∧
        ∀ rest, process tabSize used' (withoutInnerBreaks 0 before ++ l :: rest) =
          (out, some fault) := by
  simp only [process_eq]
  rcases readFrom_cases tabSize {} none input with ⟨out, s, hreads, hresult⟩ |
    ⟨before, l, after, out, s, fault, rfl, hreads, hfault, hresult⟩
  · have hreads' := hreads.dropBreaks
    exact .inl ⟨out, s, _, _, hreads, hreads', hresult, hreads'.readFrom_eq none,
      content_finish s _, content_finish s _⟩
  · have hrest := hreads.dropBreaks.readFrom_error hfault none
    obtain ⟨after', hafter⟩ := withoutInnerBreaks_of_fault hfault after
    refine .inr ⟨_, fault, hresult, ?_, before, l, after, rfl, hrest⟩
    rw [show 0 = ({} : Layout).brackets from rfl, withoutInnerBreaks_append hreads, hafter]
    exact hrest after'

end SyntaxTriage.Layout
