import SyntaxTriage.Proofs.Lexer.Search
import SyntaxTriage.Proofs.Location
import SyntaxTriage.Source

/-!
Where lexemes stand. What the lexer finds is a piece of the text, and the location that it gives is
that of the piece. A string literal has quotes, and a line break in text of whole lines holds one.
-/

namespace SyntaxTriage

namespace Lexer

structure Cursor.StandsIn (c : Cursor) (text before : List Char) : Prop where
  text : text = before ++ c.rest
  location : c.location = Location.endOf before

theorem Cursor.standsIn_start (text : List Char) : Cursor.StandsIn ⟨text, {}⟩ text [] :=
  ⟨rfl, rfl⟩

theorem Cursor.StandsIn.take {c : Cursor} {text before : List Char} (h : c.StandsIn text before)
    (t : Terminal) (length : Nat) :
    (c.take t length).2.StandsIn text (before ++ c.rest.take length) where
  text := by
    rw [List.append_assoc, h.text]
    exact congrArg _ (List.take_append_drop length c.rest).symm
  location := by
    show c.location.advance (c.rest.take length) = _
    rw [h.location, Location.advance_endOf]

/-- The lexeme is the piece of the text between `before` and `after`, and knows where it starts. -/
structure Piece (l : Lexeme Terminal) (text before after : List Char) : Prop where
  text : text = before ++ l.text.toList ++ after
  line : l.line = some (Location.endOf before).row
  column : l.column = some (Location.endOf before).column

/-- A lexeme of a kind without a fixed text is what the reader of the kind takes away. -/
def TakenByKind (l : Lexeme Terminal) (after : List Char) : Prop :=
  l.kind.text? = none →
    ∃ rest, l.kind.read (l.text.toList ++ after) = some rest ∧ rest.length = after.length

theorem Finds.piece {candidates : TerminalSet} {c behind : Cursor} {l : Lexeme Terminal}
    {text before : List Char} (h : Finds candidates c (.lexeme l behind))
    (hc : c.StandsIn text before) :
    ∃ skipped, Piece l text (before ++ skipped) behind.rest ∧
      behind.StandsIn text (before ++ skipped ++ l.text.toList) ∧ l.text.toList ≠ [] ∧
      TakenByKind l behind.rest := by
  generalize hfound : Next.lexeme l behind = found at h
  induction h generalizing before with
  | finished | misplaced | unreadable => cases hfound
  | @skip c t length found first _ _ ih =>
      obtain ⟨skipped, hpiece⟩ := ih (hc.take t length) hfound
      rw [List.append_assoc] at hpiece
      exact ⟨_, hpiece⟩
  | @lexeme c t length first kept =>
      cases hfound
      obtain ⟨hpos, hlength⟩ := length_of_first? first
      have htext : ((c.take t length).1.text).toList = c.rest.take length :=
        String.toList_ofList
      refine ⟨[], ?_, ?_, ?_, ?_⟩
      · rw [List.append_nil]
        refine ⟨?_, ?_, ?_⟩
        · rw [htext]
          exact (hc.take t length).text
        · exact congrArg (fun location => some location.row) hc.location
        · exact congrArg (fun location => some location.column) hc.location
      · rw [List.append_nil, htext]
        exact hc.take t length
      · rw [htext]
        intro hnil
        have hzero := congrArg List.length hnil
        rw [List.length_take, List.length_nil] at hzero
        omega
      · intro hkind
        obtain ⟨rest, hread, hrest⟩ := read_of_first? first hkind
        refine ⟨rest, ?_, ?_⟩
        · rw [htext]
          show t.read (c.rest.take length ++ c.rest.drop length) = _
          rw [List.take_append_drop]
          exact hread
        · show rest.length = (c.rest.drop length).length
          rw [List.length_drop]
          omega

/-! ### What lexemes hold -/

/-- What stands in front of all that is left has been taken. -/
theorem mem_taken {taken after before behind : List Char} {c : Char}
    (h : taken ++ after = before ++ c :: behind) (hlength : after.length ≤ behind.length) :
    c ∈ taken := by
  have htotal := congrArg List.length h
  rw [List.length_append, List.length_append, List.length_cons] at htotal
  have htake := congrArg (List.take taken.length) h
  rw [List.take_left, List.take_append] at htake
  rw [htake]
  apply List.mem_append_right _
  obtain ⟨count, hcount⟩ : ∃ count, taken.length - before.length = count + 1 :=
    ⟨taken.length - before.length - 1, by omega⟩
  rw [hcount]
  exact List.mem_cons_self

theorem exists_of_shortBody {q : Char} {escaped : Bool} {text rest : List Char}
    (h : shortBody q escaped text = some rest) : ∃ body, text = body ++ q :: rest := by
  induction text generalizing escaped with
  | nil => contradiction
  | cons c text ih =>
      rw [shortBody] at h
      split at h
      · rename_i hend
        cases h
        simp only [Bool.and_eq_true, decide_eq_true_eq] at hend
        exact ⟨[], by rw [hend.1]; rfl⟩
      · split at h
        · contradiction
        · obtain ⟨body, rfl⟩ := ih h
          exact ⟨c :: body, rfl⟩

theorem exists_of_longBody {q : Char} {escaped : Bool} {text rest : List Char}
    (h : longBody q escaped text = some rest) : ∃ body, text = body ++ q :: rest := by
  induction text generalizing escaped with
  | nil => contradiction
  | cons c text ih =>
      rw [longBody] at h
      split at h
      · rename_i hend
        cases h
        simp only [Bool.and_eq_true, decide_eq_true_eq] at hend
        refine ⟨[c, q], ?_⟩
        conv => lhs; rw [← List.take_append_drop 2 text, hend.2]
        rfl
      · obtain ⟨body, rfl⟩ := ih h
        exact ⟨c :: body, rfl⟩

/-- The last character of a string is a quote. -/
theorem exists_quote_end {text rest : List Char}
    (h : shortString text = some rest ∨ longString text = some rest) :
    ∃ before q, text = before ++ q :: rest ∧ isQuote q = true := by
  rcases h with h | h
  all_goals
    obtain ⟨⟨q, behind⟩, hopening, hbody⟩ := Option.bind_eq_some_iff.mp h
    obtain ⟨letters, rfl, hquote, -, -⟩ := opening_eq_some_iff.mp hopening
    simp only at hbody
    split at hbody
  · contradiction
  · obtain ⟨body, rfl⟩ := exists_of_shortBody hbody
    exact ⟨letters ++ q :: body, q, by simp, hquote⟩
  · obtain ⟨body, hbehind⟩ := exists_of_longBody hbody
    refine ⟨letters ++ q :: (behind.take 2 ++ body), q, ?_, hquote⟩
    have hall : behind = behind.take 2 ++ (body ++ q :: rest) := by
      rw [← hbehind, List.take_append_drop]
    conv => lhs; rw [hall]
    simp
  · contradiction

theorem TakenByKind.exists_quote_end {l : Lexeme Terminal} {after : List Char}
    (h : TakenByKind l after) (hl : Source.isString l = true) :
    ∃ before q, l.text.toList = before ++ [q] ∧ isQuote q = true := by
  have hkind : l.kind = .shortString ∨ l.kind = .longString := by
    simpa [Source.isString] using hl
  obtain ⟨rest, hread, hrest⟩ := h (by rcases hkind with hkind | hkind <;> rw [hkind] <;> rfl)
  have hstring : shortString (l.text.toList ++ after) = some rest ∨
      longString (l.text.toList ++ after) = some rest := by
    rcases hkind with hkind | hkind
    · rw [hkind] at hread
      exact .inl hread
    · rw [hkind] at hread
      exact .inr hread
  obtain ⟨before, q, htext, hquote⟩ := Lexer.exists_quote_end hstring
  rw [List.append_cons] at htext
  exact ⟨before, q, (List.append_inj' htext hrest.symm).1, hquote⟩

theorem TakenByKind.quote_mem {l : Lexeme Terminal} {after : List Char} (h : TakenByKind l after)
    (hl : Source.isString l = true) : ∃ q ∈ l.text.toList, isQuote q = true := by
  obtain ⟨before, q, htext, hquote⟩ := h.exists_quote_end hl
  exact ⟨q, by simp [htext], hquote⟩

theorem TakenByKind.newline_mem {l : Lexeme Terminal} {after : List Char}
    (h : TakenByKind l after) (hl : l.kind = .newline)
    (hlines : WholeLines (l.text.toList ++ after)) : '\n' ∈ l.text.toList := by
  obtain ⟨rest, hread, hrest⟩ := h (by rw [hl]; rfl)
  rw [hl] at hread
  obtain ⟨before, behind, htext, hlength⟩ := exists_newline_mem hlines hread
  exact mem_taken htext (by omega)

end Lexer

end SyntaxTriage
