import SyntaxTriage.Proofs.FString.Scanning
import SyntaxTriage.Proofs.Parser.Run

/-!
Sources in sources. An expression in a format string stands between braces, quotes and at least one
letter, so that the source made of it is shorter than the one it stands in. Hence reading ends, and
how deep the nesting is allowed to go does not matter as long as it covers the length.
-/

namespace SyntaxTriage

theorem StringLiteral.length_body {text : List Char} {literal : StringLiteral}
    (h : ofText? text = some literal) (hformat : literal.isFormat = true)
    (hbody : literal.body ≠ []) : literal.body.length + 3 ≤ text.length := by
  unfold ofText? at h
  split at h
  · contradiction
  · cases h
    have htext := congrArg List.length
      (List.takeWhile_append_dropWhile (p := (!isQuote ·)) (l := text))
    rw [List.length_append] at htext
    have hletters : 0 < (text.takeWhile (!isQuote ·)).length := by
      rw [List.length_pos_iff]
      intro hnil
      simp [isFormat, hnil, Text.lower, Text.lowerFrom] at hformat
    have hwidth : 1 ≤ quoteWidth (text.dropWhile (!isQuote ·)) := by
      unfold quoteWidth
      split <;> omega
    simp only at hbody ⊢
    rw [← List.length_pos_iff] at hbody
    rw [List.length_take, List.length_drop] at hbody ⊢
    omega

/-- An expression stands between the braces of its field, or between those of a field further in. -/
theorem FString.Derives.length_le {phrase : Phrase} {text e : List Char} {es : List (List Char)}
    (h : Derives phrase text es) (he : e ∈ es) : e.length + 2 ≤ text.length := by
  induction h with
  | bodyEnd | noFormat | formatEnd => contradiction
  | bodyPlain _ _ _ ih | bodyOpener _ ih | bodyCloser _ ih | withFormat _ ih
  | formatPlain _ _ _ ih =>
      have hbehind := ih he
      simp only [List.length_cons]
      omega
  | bodyField _ _ _ ihField ihBehind | formatField _ _ ihField ihBehind =>
      rw [List.length_append]
      rcases List.mem_append.mp he with he | he
      · have hfield := ihField he
        omega
      · have hbehind := ihBehind he
        omega
  | field _ _ denotes _ _ ih =>
      obtain ⟨echo, rfl⟩ := denotes.exists_append
      simp only [List.length_append, List.length_cons, List.length_nil]
      rcases List.mem_cons.mp he with rfl | he
      · omega
      · have hsuffix := ih he
        omega

theorem FString.length_of_mem_scan {body e : List Char} {location : Location}
    {es : List (List Char)} (h : scan body location = .ok es) (he : e ∈ es) :
    e.length + 2 ≤ body.length := by
  have hscan : scanFrom .text body = .ok es := by
    unfold scan at h
    cases hfound : scanFrom .text body with
    | error reason =>
        rw [hfound] at h
        contradiction
    | ok found =>
        rw [hfound] at h
        cases Except.ok.inj h
        rfl
  exact (derives_body_of_scanFrom hscan).length_le he

theorem Parser.Pieces.exists_piece {text before : List Char} {ls : List (Lexeme Terminal)}
    {l : Lexeme Terminal} (h : Pieces text before ls) (hl : l ∈ ls) :
    ∃ before after, Lexer.Piece l text before after ∧ Lexer.TakenByKind l after := by
  induction h with
  | nil => contradiction
  | cons piece taken _ _ ih =>
      rcases List.mem_cons.mp hl with rfl | hl
      · exact ⟨_, _, piece, taken⟩
      · exact ih hl

namespace Source

theorem wholeLines_complete (source : List Char) : Lexer.WholeLines (complete source) := by
  unfold complete
  split
  · assumption
  · exact Lexer.WholeLines.singleton.append_left source

def start (l : Lexeme Terminal) : Location := Location.ofCoordinates l.line l.column {}

def Interpolates (l : Lexeme Terminal) (es : List (List Char)) : Prop :=
  ∃ literal, StringLiteral.ofText? l.text.toList = some literal ∧ literal.isFormat = true ∧
    FString.scan literal.body (start l) = .ok es

/-- A string holds nothing of the line end that is put behind the source, because it ends in a
quote. -/
theorem length_string_le {source before after : List Char} {l : Lexeme Terminal}
    (hpiece : Lexer.Piece l (complete source) before after) (htaken : Lexer.TakenByKind l after)
    (hl : isString l = true) : l.text.toList.length ≤ source.length := by
  have htext := hpiece.text
  unfold complete at htext
  split at htext
  · rw [htext, List.length_append, List.length_append]
    omega
  · obtain ⟨inner, q, hquote, hq⟩ := htaken.exists_quote_end hl
    have hafter : after ≠ [] := by
      rintro rfl
      have hlast := congrArg List.getLast? htext
      rw [hquote, List.append_nil, ← List.append_assoc, List.getLast?_concat,
        List.getLast?_concat] at hlast
      cases Option.some.inj hlast
      exact absurd hq (by decide)
    have hlength := congrArg List.length htext
    have hpos := List.length_pos_iff.mpr hafter
    simp only [List.length_append, List.length_cons, List.length_nil] at hlength
    omega

/-- The parser accepts the source, and `inner` is the source made of an expression in it. -/
def Hands (mode : Mode) (source inner : List Char) : Prop :=
  ∃ tree l es e, Parser.run mode.entry (complete source) = .ok tree ∧
    l ∈ tree.leaves.filter isString ∧ Interpolates l es ∧ e ∈ es ∧ inner = parenthesized e

/-- The source made of an expression has lost a letter, two quotes and two braces, and has gained
two parentheses. -/
theorem Hands.length_le {mode : Mode} {source inner : List Char} (h : Hands mode source inner) :
    inner.length + 3 ≤ source.length := by
  obtain ⟨tree, l, es, e, hrun, hl, ⟨literal, hliteral, hformat, hscan⟩, he, rfl⟩ := h
  obtain ⟨before, after, hpiece, htaken⟩ := (Parser.pieces_of_run hrun).exists_piece hl
  have hstring := length_string_le hpiece htaken (List.mem_filter.mp hl).2
  have hexpression := FString.length_of_mem_scan hscan he
  have hbody := StringLiteral.length_body hliteral hformat
    (List.ne_nil_of_length_pos (by omega))
  simp only [parenthesized, List.length_append, List.length_cons, List.length_nil]
  omega

theorem Hands.length_lt {mode : Mode} {source inner : List Char} (h : Hands mode source inner) :
    inner.length < source.length := by
  have hlength := h.length_le
  omega

/-! ### Readers that agree on the sources in the source -/

theorem forM_congr {α : Type} {f g : α → Traced Fault Unit} {xs : List α}
    (h : ∀ x ∈ xs, f x = g x) : xs.forM f = xs.forM g := by
  induction xs with
  | nil => rfl
  | cons x xs ih =>
      have hxs := ih fun y hy => h y (List.mem_cons_of_mem x hy)
      change (f x >>= fun _ => xs.forM f) = (g x >>= fun _ => xs.forM g)
      rw [h x List.mem_cons_self, hxs]

theorem checkString_congr {read read' : Reader} {l : Lexeme Terminal}
    (h : ∀ es, Interpolates l es → ∀ e ∈ es, read (parenthesized e) = read' (parenthesized e)) :
    checkString read l = checkString read' l := by
  unfold checkString
  split
  · rfl
  · rename_i literal hliteral
    split
    · rename_i hformat
      simp only
      split
      · rfl
      · rename_i es hscan
        refine forM_congr fun e he => ?_
        unfold checkExpression
        rw [h es ⟨literal, hliteral, hformat, hscan⟩ e he]
    · rfl

theorem parseOnce_congr {read read' : Reader} {mode : Mode} {source : List Char}
    (h : ∀ inner, Hands mode source inner → read inner = read' inner) :
    parseOnce read mode source = parseOnce read' mode source := by
  unfold parseOnce
  simp only
  cases hrun : Parser.run mode.entry (complete source) with
  | error stop => rfl
  | ok tree =>
      have hstrings : checkStrings read tree = checkStrings read' tree :=
        forM_congr fun l hl => checkString_congr fun es hes e he =>
          h _ ⟨tree, l, es, e, hrun, hl, hes, he, rfl⟩
      change (checkStrings read tree >>= fun _ => pure tree) =
        (checkStrings read' tree >>= fun _ => pure tree)
      rw [hstrings]

/-- Any bound above the length of the source will do. -/
theorem parseWithin_fuel {fuel fuel' : Nat} {mode : Mode} {source : List Char}
    (h : source.length < fuel) (h' : source.length < fuel') :
    parseWithin fuel mode source = parseWithin fuel' mode source := by
  induction fuel generalizing fuel' mode source with
  | zero => exact absurd h (Nat.not_lt_zero _)
  | succ fuel ih =>
      obtain ⟨fuel', rfl⟩ := Nat.exists_eq_add_one_of_ne_zero (Nat.ne_zero_of_lt h')
      rw [parseWithin, parseWithin]
      congr 1
      refine parseOnce_congr fun inner hinner => ?_
      have hlength := hinner.length_lt
      exact ih (by omega) (by omega)

end Source

end SyntaxTriage
