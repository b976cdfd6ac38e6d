import SyntaxTriage.Proofs.Lexer.Search

/-!
The lexer on the first lines of a text. What it finds there is what it finds in the whole text, with
two exceptions. Line breaks at the end of the lines may go on behind them. And the lines may begin a
string between triple quotes that they do not end.
-/

namespace SyntaxTriage.Lexer

/-- The text begins with three quotes, perhaps behind the letters of a string, that open a string
without an end. -/
def OpensLong (text : List Char) : Prop :=
  ∃ q rest, opening text = some (q, rest) ∧ rest.take 2 = [q, q] ∧
    longBody q false (rest.drop 2) = none

def Lines (text : List Char) : Prop := text = [] ∨ WholeLines text

section

variable {a r : List Char} {t : Terminal} (b : List Char) (ha : WholeLines a)

theorem longString_append_of_none (hopen : ¬OpensLong a) (ha : WholeLines a)
    (h : longString a = none) : longString (a ++ b) = none := by
  unfold longString at h ⊢
  cases happend : opening (a ++ b) with
  | none => rfl
  | some found =>
      obtain ⟨behind, hbehind, hlines, hrest⟩ := exists_of_opening_append ha happend
      have hq := isQuote_of_opening hbehind
      rw [hbehind] at h
      simp only [Option.bind_some, hrest, take_two_append b hlines hq] at h ⊢
      split at h
      · rename_i htake
        exact absurd ⟨_, _, hbehind, htake, h⟩ hopen
      · rename_i htake
        rw [if_neg htake]

/-- What no terminal begins in the lines, it does not begin in the whole text. -/
theorem read_append_of_none (hopen : ¬OpensLong a) (ha : WholeLines a) (h : t.read a = none) :
    t.read (a ++ b) = none := by
  by_cases hlong : t = .longString
  · subst hlong
    exact longString_append_of_none b hopen ha h
  · by_cases hnewline : t = .newline
    · subst hnewline
      exact newline_append_of_none b ha h
    · by_cases hcontinuation : t = .continuation
      · subst hcontinuation
        change continuation a = none at h
        show continuation (a ++ b) = none
        rw [continuation_append b ha, h]
        rfl
      · rw [(inLine_read hlong hnewline hcontinuation).append b ha, h]
        rfl

/-- What a terminal reads in the lines, it reads in the whole text, but for line breaks. -/
theorem read_append_of_some (ha : WholeLines a) (h : t.read a = some r) :
    t.read (a ++ b) = some (r ++ b) ∨
      t = .newline ∧ r = [] ∧ ∃ r', t.read (a ++ b) = some r' := by
  by_cases hlong : t = .longString
  · subst hlong
    exact .inl (longString_append b ha h).1
  · by_cases hnewline : t = .newline
    · subst hnewline
      by_cases hr : r = []
      · exact .inr ⟨rfl, hr, exists_newline_append b ha h⟩
      · exact .inl (newline_append b ha h hr).1
    · by_cases hcontinuation : t = .continuation
      · subst hcontinuation
        left
        change continuation a = some r at h
        show continuation (a ++ b) = some (r ++ b)
        rw [continuation_append b ha, h]
        rfl
      · left
        rw [(inLine_read hlong hnewline hcontinuation).append b ha, h]
        rfl

theorem firstRead_append_of_none (hopen : ¬OpensLong a) (ha : WholeLines a) {ts : List Terminal}
    (h : firstRead ts a = none) : firstRead ts (a ++ b) = none := by
  induction ts with
  | nil => rfl
  | cons t ts ih =>
      rw [firstRead_cons] at h ⊢
      cases hread : t.read a with
      | some rest =>
          rw [hread] at h
          contradiction
      | none =>
          rw [hread] at h
          rw [read_append_of_none b hopen ha hread]
          exact ih h

theorem firstRead_append_of_some (hopen : ¬OpensLong a) (ha : WholeLines a) {ts : List Terminal}
    (h : firstRead ts a = some (t, r)) :
    firstRead ts (a ++ b) = some (t, r ++ b) ∨
      t = .newline ∧ r = [] ∧ ∃ r', firstRead ts (a ++ b) = some (.newline, r') := by
  induction ts with
  | nil => contradiction
  | cons u ts ih =>
      rw [firstRead_cons] at h ⊢
      cases hread : u.read a with
      | some rest =>
          rw [hread] at h
          cases h
          rcases read_append_of_some b ha hread with happend | ⟨rfl, hr, r', happend⟩
          · rw [happend]
            exact .inl rfl
          · rw [happend]
            exact .inr ⟨rfl, hr, r', rfl⟩
      | none =>
          rw [hread] at h
          rw [read_append_of_none b hopen ha hread]
          exact ih h

theorem first?_append_of_none (hopen : ¬OpensLong a) (ha : WholeLines a)
    {candidates : TerminalSet} (h : first? candidates a = none) :
    first? candidates (a ++ b) = none := by
  rw [first?_eq] at h ⊢
  cases hread : firstRead (tried candidates) a with
  | none => rw [firstRead_append_of_none b hopen ha hread]
  | some found =>
      obtain ⟨t, r⟩ := found
      rw [hread] at h
      simp only at h
      split at h
      · rename_i hlength
        rcases firstRead_append_of_some b hopen ha hread with happend | ⟨-, rfl, -⟩
        · rw [happend]
          simp only
          rw [if_pos (by rw [List.length_append, List.length_append]; omega)]
        · exact absurd (List.length_eq_zero_iff.mp hlength) ha.ne_nil
      · contradiction

theorem length_newline {text rest : List Char} (h : newline text = some rest) :
    rest.length < text.length := by
  obtain ⟨behind, hline, rfl⟩ := Option.map_eq_some_iff.mp h
  exact (length_skipEmptyLines text.length behind).trans_lt (length_emptyLine hline)

theorem first?_append_of_some (hopen : ¬OpensLong a) (ha : WholeLines a)
    {candidates : TerminalSet} {length : Nat} (h : first? candidates a = some (t, length)) :
    first? candidates (a ++ b) = some (t, length) ∨
      t = .newline ∧ length = a.length ∧
        ∃ length', first? candidates (a ++ b) = some (.newline, length') := by
  obtain ⟨u, r, hread, hlength, hpos, rfl⟩ := first?_eq_some_iff.mp h
  rcases firstRead_append_of_some b hopen ha hread with happend | ⟨rfl, rfl, r', happend⟩
  · refine .inl (first?_eq_some_iff.mpr ⟨u, r ++ b, happend, ?_, hpos, ?_⟩)
    · rw [List.length_append, List.length_append]
      omega
    · rw [List.take_append_of_le_length (by omega)]
  · refine .inr ⟨rfl, hlength, _, first?_eq_some_iff.mpr ⟨.newline, r', happend, rfl, ?_, rfl⟩⟩
    have hnewline := length_newline (read_of_firstRead happend).2
    omega

end

/-! ### The next lexeme -/

theorem Lines.wholeLines {a : List Char} (h : Lines a) (hne : a ≠ []) : WholeLines a :=
  h.resolve_left hne

theorem Lines.drop {a : List Char} (h : Lines a) (length : Nat) : Lines (a.drop length) := by
  rcases h with rfl | h
  · exact .inl List.drop_nil
  · by_cases hnil : a.drop length = []
    · exact .inl hnil
    · rw [← List.take_append_drop length a] at h
      exact .inr (h.of_append hnil)

def Cursor.extend (c : Cursor) (b : List Char) : Cursor := ⟨c.rest ++ b, c.location⟩

theorem Cursor.take_extend {c : Cursor} {length : Nat} (h : length ≤ c.rest.length) (t : Terminal)
    (b : List Char) :
    (c.extend b).take t length = ((c.take t length).1, (c.take t length).2.extend b) := by
  unfold Cursor.take Cursor.extend
  rw [List.take_append_of_le_length h, List.drop_append_of_le_length h]

/-- The lexer comes from one place to another over text that it skips. -/
inductive SkipsTo (candidates : TerminalSet) : Cursor → Cursor → Prop
  | here {c : Cursor} : SkipsTo candidates c c
  | skip {c d : Cursor} {t : Terminal} {length : Nat}
      (first : first? candidates c.rest = some (t, length)) (skipped : t.isSkipped = true)
      (behind : SkipsTo candidates (c.take t length).2 d) : SkipsTo candidates c d

/-- In front of a longer text the lexer finds the same, if the lines in front of it do not open a
string that they do not end. Only a line break at the end of the lines may become a longer one, and
behind the end anything may follow. -/
theorem Finds.extend {candidates : TerminalSet} {c : Cursor} {found : Next} (b : List Char)
    (h : Finds candidates c found) (hlines : Lines c.rest)
    (hopen : ∀ d, SkipsTo candidates c d → ¬OpensLong d.rest) :
    match found with
    | .finished => True
    | .lexeme l behind => Lines behind.rest ∧
        (Finds candidates (c.extend b) (.lexeme l (behind.extend b)) ∨
          l.kind = .newline ∧ behind.rest = [] ∧ ∃ l' behind', l'.kind = .newline ∧
            Finds candidates (c.extend b) (.lexeme l' behind'))
    | .misplaced _ | .unreadable _ _ =>
      ∃ failure, Finds candidates (c.extend b) failure ∧ failure.IsFailure := by
  have hne {c : Cursor} {t : Terminal} {candidates : TerminalSet} {length : Nat}
      (hfirst : first? candidates c.rest = some (t, length)) : c.rest ≠ [] := by
    intro hnil
    rw [hnil, first?_nil] at hfirst
    contradiction
  have hextend {c : Cursor} (hrest : c.rest ≠ []) : (c.extend b).rest ≠ [] :=
    List.append_ne_nil_of_left_ne_nil hrest b
  induction h with
  | finished done => trivial
  | @skip c t length found first skipped _ ih =>
      have hwhole := hlines.wholeLines (hne first)
      have hlength := (length_of_first? first).2
      -- the longer text is skipped in the same way
      have hskip (found : Next) (hfound : Finds candidates ((c.take t length).2.extend b) found) :
          Finds candidates (c.extend b) found := by
        rcases first?_append_of_some b (hopen c .here) hwhole first with happend | ⟨rfl, -⟩
        · refine .skip happend skipped ?_
          rw [Cursor.take_extend hlength]
          exact hfound
        · contradiction
      have hrest := ih (hlines.drop length) fun d hd => hopen d (.skip first skipped hd)
      cases found with
      | finished => trivial
      | lexeme l behind =>
          obtain ⟨hbehind, hsame | ⟨hl, hnil, l', behind', hl', hlonger⟩⟩ := hrest
          · exact ⟨hbehind, .inl (hskip _ hsame)⟩
          · exact ⟨hbehind, .inr ⟨hl, hnil, l', behind', hl', hskip _ hlonger⟩⟩
      | misplaced | unreadable =>
          obtain ⟨failure, hfailure, hgives⟩ := hrest
          exact ⟨failure, hskip _ hfailure, hgives⟩
  | @lexeme c t length first kept =>
      have hlength := (length_of_first? first).2
      refine ⟨hlines.drop length, ?_⟩
      rcases first?_append_of_some b (hopen c .here) (hlines.wholeLines (hne first)) first with
        happend | ⟨rfl, rfl, length', happend⟩
      · left
        have hfound := Finds.lexeme (c := c.extend b) happend kept
        rwa [Cursor.take_extend hlength] at hfound
      · exact .inr ⟨rfl, List.drop_length, _, _, rfl, .lexeme (c := c.extend b) happend rfl⟩
  | @misplaced c t length nothing first =>
      have hnothing := first?_append_of_none b (hopen c .here) (hlines.wholeLines (hne first)) nothing
      exact exists_failure_of_nothing (hextend (hne first)) hnothing
  | @unreadable c character rest text nothing never =>
      have htext : c.rest ≠ [] := by
        rw [text]
        exact List.cons_ne_nil _ _
      have hnothing := first?_append_of_none b (hopen c .here) (hlines.wholeLines htext) nothing
      exact exists_failure_of_nothing (hextend htext) hnothing

end SyntaxTriage.Lexer
