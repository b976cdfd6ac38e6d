import SyntaxTriage.Proofs.Lexer.OpenString
import SyntaxTriage.Proofs.Parser.Blocks

/-!
Terminals written down. In front of the end of a line, be it joined to the next one or not, the
lexer finds every terminal by its fixed text; an identifier is written with a word that is no
keyword. A line break takes in the blanks behind it.
-/

namespace SyntaxTriage.Lexer

open Grammar

/-- How a terminal is written that stands within a line. -/
def spelling (t : Terminal) : List Char := (t.text?.getD "x").toList

/-- What joins a line to the next one. -/
def joint : List Char := ['\\', '\n']

variable {candidates : TerminalSet} {t : Terminal} {a text ends rest blanks : List Char}

/-! ### Within a line -/

theorem mem_tried {u : Terminal} : u ∈ tried candidates ↔
    u ∈ candidates ∧ (.identifier ∈ candidates → u.isKeyword = false) := by
  rw [tried, List.mem_filter, BitSet.mem_toList]
  by_cases h : Terminal.identifier ∈ candidates <;> simp [h]

/-- A terminal is read first if none of those tried before it is read. -/
theorem firstRead_tried (ht : t ∈ tried candidates)
    (hbefore : ∀ u ∈ Terminal.all.takeWhile (· ≠ t), u ∈ tried candidates → u.read text = none)
    (hread : t.read text = some rest) : firstRead (tried candidates) text = some (t, rest) := by
  obtain ⟨after, hall⟩ : ∃ after, Terminal.all = Terminal.all.takeWhile (· ≠ t) ++ t :: after := by
    cases t <;> exact ⟨_, rfl⟩
  have htried : tried candidates = Terminal.all.filter fun u =>
      !(decide (.identifier ∈ candidates) && u.isKeyword) && decide (u ∈ candidates) := by
    rw [← List.filter_filter]
    rfl
  have hkept := ht
  rw [htried, List.mem_filter] at hkept
  rw [firstRead, htried, hall, List.filter_append, List.filter_cons, if_pos hkept.2,
    List.findSome?_append, List.findSome?_eq_none_iff.mpr, List.findSome?_cons, hread]
  · rfl
  · intro u hu
    obtain ⟨hu, hkept⟩ := List.mem_filter.mp hu
    rw [hbefore u hu]
    · rfl
    · rw [htried, List.mem_filter]
      exact ⟨LawfulNumbered.mem_all u, hkept⟩

/-- Whether the terminal is read in the text, up to `ends`, and none of those before it. -/
def isEarliest (t : Terminal) (text ends : List Char) : Bool :=
  (Terminal.all.takeWhile (· ≠ t)).all (·.read text = none) && t.read text = some ends

/-- Whether the terminal is found by its spelling. A keyword may be taken for an identifier. -/
def isFoundBefore (ends : List Char) (t : Terminal) : Bool :=
  let text := spelling t ++ ends
  !(spelling t).isEmpty && opening text = none &&
  if t.isKeyword then isEarliest .identifier text ends && t.read text = some ends &&
    (Terminal.all.takeWhile (· ≠ t)).all fun u => u = .identifier || u.read text = none
  else isEarliest t text ends

theorem of_isEarliest (h : isEarliest t text ends = true) (ht : t ∈ tried candidates) :
    firstRead (tried candidates) text = some (t, ends) := by
  obtain ⟨hbefore, hread⟩ := Bool.and_eq_true_iff.mp h
  refine firstRead_tried ht (fun u hu _ => ?_) (of_decide_eq_true hread)
  exact of_decide_eq_true (List.all_eq_true.mp hbefore u hu)

theorem isFoundBefore_lineEnds : ([['\n'], joint].all fun ends => Terminal.all.all fun t =>
    !isSpelled t || isLayout t || isFoundBefore ends t) = true := by
  decide +kernel

/-- The lexer finds the terminal by its spelling in front of the text. -/
structure FoundBefore (ends : List Char) (t : Terminal) : Prop where
  opening : opening (spelling t ++ ends) = none
  first : ∀ candidates, t ∈ candidates →
    first? candidates (spelling t ++ ends) = some (t, (spelling t).length)

/-- Keywords are told apart by their texts, and no keyword is written as identifiers are. -/
theorem keyword?_spelling (ht : t ∈ candidates) :
    (t.isKeyword = true → keyword? candidates (spelling t) = some t) ∧
      (t = .identifier → keyword? candidates (spelling t) = none) := by
  have hkeywords : (keywords.all fun t => t.text? ≠ some "x" &&
      keywords.all fun u => t.text? ≠ u.text? || t = u) = true := by decide +kernel
  constructor
  · intro hkeyword
    obtain ⟨s, hs⟩ : ∃ s, t.text? = some s := by
      rw [← Option.isSome_iff_exists]
      unfold Terminal.isKeyword at hkeyword
      cases hs : t.text? with
      | none =>
          rw [hs] at hkeyword
          contradiction
      | some s => rfl
    have hspelling : String.ofList (spelling t) = s := by
      rw [spelling, hs, Option.getD_some, String.ofList_toList]
    have hmem : t ∈ keywords := List.mem_filter.mpr ⟨LawfulNumbered.mem_all t, hkeyword⟩
    unfold keyword?
    cases hfound : keywords.find? fun k =>
        decide (k ∈ candidates) && decide (k.text? = some (String.ofList (spelling t))) with
    | none =>
        rw [List.find?_eq_none] at hfound
        refine absurd ?_ (hfound t hmem)
        simp [ht, hs, hspelling]
    | some k =>
        have hk := List.find?_some hfound
        rw [Bool.and_eq_true] at hk
        replace hk := hk.2
        have htell := (Bool.and_eq_true_iff.mp (List.all_eq_true.mp hkeywords k
          (List.mem_of_find?_eq_some hfound))).2
        have hsame := List.all_eq_true.mp htell t hmem
        rw [hspelling, ← hs] at hk
        simpa [of_decide_eq_true hk] using hsame
  · rintro rfl
    refine List.find?_eq_none.mpr fun k hk => ?_
    have hx := (Bool.and_eq_true_iff.mp (List.all_eq_true.mp hkeywords k hk)).1
    rw [Bool.and_eq_true, not_and]
    exact fun _ hspelling => of_decide_eq_true hx (of_decide_eq_true hspelling)

/-- In front of the end of a line a terminal is found by its spelling. -/
theorem foundBefore_lineEnd (hspelled : isSpelled t = true) (hplain : isLayout t = false)
    (hends : ends ∈ [['\n'], joint]) : FoundBefore ends t := by
  have hcheck := List.all_eq_true.mp (List.all_eq_true.mp isFoundBefore_lineEnds ends hends) t
    (LawfulNumbered.mem_all t)
  rw [hspelled, hplain] at hcheck
  obtain ⟨hcheck, hearliest⟩ := Bool.and_eq_true_iff.mp hcheck
  obtain ⟨hempty, hopening⟩ := Bool.and_eq_true_iff.mp hcheck
  refine ⟨of_decide_eq_true hopening, fun candidates ht => ?_⟩
  have hlength : 0 < (spelling t).length := List.length_pos_of_ne_nil (by simpa using hempty)
  have hfound {u : Terminal} (hread : firstRead (tried candidates) (spelling t ++ ends) =
      some (u, ends)) (hkind : kindOf candidates u (spelling t) = t) :
      first? candidates (spelling t ++ ends) = some (t, (spelling t).length) := by
    have htaken : (spelling t ++ ends).length - ends.length = (spelling t).length := by
      rw [List.length_append, Nat.add_sub_cancel]
    refine first?_eq_some_iff.mpr ⟨u, ends, hread, htaken.symm, hlength, ?_⟩
    rw [List.take_left, hkind]
  split at hearliest
  · rename_i hkeyword
    obtain ⟨hcheck, hbefore⟩ := Bool.and_eq_true_iff.mp hearliest
    obtain ⟨hearliest, hread⟩ := Bool.and_eq_true_iff.mp hcheck
    by_cases hidentifier : Terminal.identifier ∈ candidates
    · refine hfound (of_isEarliest hearliest (mem_tried.mpr ⟨hidentifier, fun _ => rfl⟩)) ?_
      rw [kindOf, if_pos rfl, (keyword?_spelling ht).1 hkeyword]
      rfl
    · refine hfound (firstRead_tried (mem_tried.mpr ⟨ht, fun h => absurd h hidentifier⟩)
        (fun u hu htried => ?_) (of_decide_eq_true hread)) (kindOf_of_ne ?_)
      · have hu := List.all_eq_true.mp hbefore u hu
        rcases Bool.or_eq_true_iff.mp hu with hu | hu
        · exact absurd (of_decide_eq_true hu ▸ (mem_tried.mp htried).1) hidentifier
        · exact of_decide_eq_true hu
      · rintro rfl
        contradiction
  · rename_i hkeyword
    have htried : t ∈ tried candidates :=
      mem_tried.mpr ⟨ht, fun _ => eq_false_of_ne_true hkeyword⟩
    refine hfound (of_isEarliest hearliest htried) ?_
    by_cases hidentifier : t = .identifier
    · rw [kindOf, if_pos hidentifier, (keyword?_spelling ht).2 hidentifier, hidentifier]
      rfl
    · exact kindOf_of_ne hidentifier

theorem first?_spelling (hspelled : isSpelled t = true) (hplain : isLayout t = false)
    (ht : t ∈ candidates) (hends : ends ∈ [['\n'], joint]) (more : List Char) :
    first? candidates (spelling t ++ (ends ++ more)) = some (t, (spelling t).length) := by
  obtain ⟨hopening, hfirst⟩ := foundBefore_lineEnd hspelled hplain hends
  have hlines : WholeLines (spelling t ++ ends) := by
    refine WholeLines.append_left ?_ _
    simp only [List.mem_cons, List.not_mem_nil, or_false] at hends
    rcases hends with rfl | rfl <;> rfl
  have hopen : ¬OpensLong (spelling t ++ ends) := by
    rintro ⟨q, rest, hopens, -⟩
    rw [hopening] at hopens
    contradiction
  rw [← List.append_assoc]
  rcases first?_append_of_some more hopen hlines (hfirst candidates ht) with
    happend | ⟨rfl, -⟩
  · exact happend
  · contradiction

theorem first?_joint (h : Terminal.continuation ∈ candidates) (more : List Char) :
    first? candidates (joint ++ more) = some (.continuation, 2) := by
  have hall : Terminal.all = Terminal.all.take 9 ++ .continuation :: Terminal.all.drop 10 := rfl
  have hbefore : ∀ u ∈ Terminal.all.take 9, u.read joint = none := by decide
  have hread : Terminal.continuation.read joint = some [] := rfl
  have hfirst := first?_of_earliest hall hbefore hread Nat.two_pos h rfl
  rw [kindOf_of_ne (by decide)] at hfirst
  have hopen : ¬OpensLong joint := by
    rintro ⟨q, rest, hopens, -⟩
    cases hopens
  rcases first?_append_of_some more hopen rfl hfirst with happend | ⟨hnewline, -⟩
  · exact happend
  · contradiction

/-! ### Between lines -/

/-- The text is empty, or it joins a line to the line before. -/
def JoinsOn (text : List Char) : Prop := text = [] ∨ ∃ more, text = joint ++ more

theorem JoinsOn.emptyLine_eq_none (h : JoinsOn text) : emptyLine text = none := by
  rcases h with rfl | ⟨more, rfl⟩ <;> rfl

theorem JoinsOn.dropWhile_blanks (h : JoinsOn text)
    (hblanks : ∀ c ∈ blanks, Layout.isIndentChar c = true) :
    (blanks ++ text).dropWhile (fun c => c = '\t' || c = ' ') = text := by
  have htest (c : Char) (hc : c ∈ blanks) : (c = '\t' || c = ' ') = true := by
    simpa [Layout.isIndentChar, or_comm] using hblanks c hc
  rw [List.dropWhile_append_of_pos htest]
  rcases h with rfl | ⟨more, rfl⟩ <;> rfl

/-- A line break at the end of the text takes in the blanks behind it. -/
theorem emptyLine_append_blanks (htext : JoinsOn text) (ha : WholeLines a)
    (hblanks : ∀ c ∈ blanks, Layout.isIndentChar c = true) (h : emptyLine a = some []) :
    emptyLine (a ++ (blanks ++ text)) = some text := by
  rcases Option.or_eq_some_iff.mp h with h | ⟨-, h⟩
  · obtain ⟨behind, hbreak, hbehind⟩ := Option.map_eq_some_iff.mp h
    have hnil : behind = [] := by
      by_contra hne
      have hlines : WholeLines behind := by
        rcases lineBreak_eq_some_iff.mp hbreak with rfl | rfl
        · exact WholeLines.of_append (a := ['\n']) ha hne
        · exact WholeLines.of_append (a := ['\r', '\n']) ha hne
      exact (hlines.dropWhile (by decide)).ne_nil hbehind
    subst hnil
    rw [emptyLine, lineBreak_append _ ha, hbreak, Option.map_some, List.nil_append,
      Option.map_some, htext.dropWhile_blanks hblanks, Option.some_or]
  · exact absurd rfl (inLine_comment.rest ha h).ne_nil

theorem skipEmptyLines_of_none (fuel : Nat) (h : emptyLine text = none) :
    skipEmptyLines fuel text = text := by
  cases fuel with
  | zero => rfl
  | succ fuel => rw [skipEmptyLines, h]

/-- Empty lines at the end of the text take in the blanks behind them. -/
theorem skipEmptyLines_append_blanks {fuel fuel' : Nat} (htext : JoinsOn text) (ha : WholeLines a)
    (hblanks : ∀ c ∈ blanks, Layout.isIndentChar c = true) (h : skipEmptyLines fuel a = [])
    (hfuel' : (a ++ (blanks ++ text)).length ≤ fuel') :
    skipEmptyLines fuel' (a ++ (blanks ++ text)) = text := by
  induction fuel generalizing fuel' a with
  | zero => exact absurd h ha.ne_nil
  | succ fuel ih =>
      cases fuel' with
      | zero =>
          rw [List.length_append] at hfuel'
          exact absurd (List.length_eq_zero_iff.mp (by omega)) ha.ne_nil
      | succ fuel' =>
          rw [skipEmptyLines] at h ⊢
          cases hline : emptyLine a with
          | none =>
              rw [hline] at h
              exact absurd h ha.ne_nil
          | some rest =>
              rw [hline] at h
              by_cases hrest : rest = []
              · subst hrest
                rw [emptyLine_append_blanks htext ha hblanks hline]
                exact skipEmptyLines_of_none fuel' htext.emptyLine_eq_none
              · have hlength := length_emptyLine hline
                obtain ⟨happend, hlines⟩ := emptyLine_append _ ha hline hrest
                rw [happend]
                refine ih hlines h ?_
                rw [List.length_append] at hfuel' ⊢
                omega

theorem newline_append_blanks (htext : JoinsOn text) (ha : WholeLines a)
    (hblanks : ∀ c ∈ blanks, Layout.isIndentChar c = true) (h : newline a = some []) :
    newline (a ++ (blanks ++ text)) = some text := by
  obtain ⟨rest, hline, hskip⟩ := Option.map_eq_some_iff.mp h
  by_cases hrest : rest = []
  · subst hrest
    rw [newline, emptyLine_append_blanks htext ha hblanks hline, Option.map_some,
      skipEmptyLines_of_none _ htext.emptyLine_eq_none]
  · have hlength := length_emptyLine hline
    obtain ⟨happend, hlines⟩ := emptyLine_append _ ha hline hrest
    rw [newline, happend, Option.map_some,
      skipEmptyLines_append_blanks htext hlines hblanks hskip]
    simp only [List.length_append]
    omega

/-- A line break is found with the blanks behind it. -/
theorem first?_newline_append (htext : JoinsOn text) (ha : WholeLines a) (hopen : ¬OpensLong a)
    (hblanks : ∀ c ∈ blanks, Layout.isIndentChar c = true)
    (h : first? candidates a = some (.newline, a.length)) :
    first? candidates (a ++ (blanks ++ text)) = some (.newline, (a ++ blanks).length) := by
  obtain ⟨length, hfirst⟩ : ∃ length,
      first? candidates (a ++ (blanks ++ text)) = some (.newline, length) := by
    rcases first?_append_of_some (blanks ++ text) hopen ha h with
      hsame | ⟨-, -, hlonger⟩
    · exact ⟨_, hsame⟩
    · exact hlonger
  obtain ⟨rest, hread, hlength⟩ := read_of_first? h rfl
  have hnil : rest = [] := by
    have hshort : rest.length < a.length := length_newline hread
    exact List.eq_nil_of_length_eq_zero (by omega)
  subst hnil
  obtain ⟨rest, hread', rfl⟩ := read_of_first? hfirst rfl
  obtain rfl : text = rest :=
    Option.some.inj ((newline_append_blanks htext ha hblanks hread).symm.trans hread')
  rw [hfirst]
  congr 2
  simp only [List.length_append]
  omega

/-- The next lexeme is the line break with the blanks behind it. -/
theorem next_newline {c d : Cursor} (htext : JoinsOn text) (ha : WholeLines a)
    (hopen : ¬OpensLong a) (hblanks : ∀ c ∈ blanks, Layout.isIndentChar c = true)
    (h : first? (candidates ∪ always) a = some (.newline, a.length))
    (skips : SkipsTo (candidates ∪ always) c d) (hrest : d.rest = a ++ (blanks ++ text)) :
    next candidates c = .lexeme (d.take .newline (a ++ blanks).length).1
        (d.take .newline (a ++ blanks).length).2 ∧
      (d.take .newline (a ++ blanks).length).1.text.toList = a ++ blanks ∧
        (d.take .newline (a ++ blanks).length).2.rest = text := by
  have hfirst := first?_newline_append htext ha hopen hblanks h
  rw [← hrest] at hfirst
  have hsplit : d.rest = (a ++ blanks) ++ text := by rw [hrest, List.append_assoc]
  refine ⟨next_eq_iff.mpr (skips.finds (.lexeme hfirst rfl)), ?_, ?_⟩
  · show (String.ofList (d.rest.take _)).toList = _
    rw [String.toList_ofList, hsplit, List.take_left]
  · show d.rest.drop _ = text
    rw [hsplit, List.drop_left]

end SyntaxTriage.Lexer
