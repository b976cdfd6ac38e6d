import SyntaxTriage.Proofs.Lexer.Prefix

/-!
Where three quotes begin the text, perhaps behind the letters of a string, only a string between
triple quotes can be read, or the letters as an identifier. So a lexer that comes to a string
without an end is stuck: at the letters, or at the quotes behind them.
-/

namespace SyntaxTriage.Lexer

structure Triple (text word : List Char) (q : Char) (behind : List Char) : Prop where
  text : text = word ++ q :: q :: q :: behind
  quote : isQuote q = true
  letters : isStringLetters (word.map Char.toLower) = true
  plain : ∀ c ∈ word, isQuote c = false

def starts : List Char := ['"', '\'', 'r', 'R', 'u', 'U', 'b', 'B', 'f', 'F']

theorem toNat_toLower (c : Char) : c.toLower = c ∨ c.toLower.toNat = c.toNat + 32 := by
  unfold Char.toLower
  split
  · rename_i h
    right
    have hle : c.val.toNat ≤ 90 := h.2
    show (c.val + 32).toNat = c.val.toNat + 32
    rw [UInt32.toNat_add]
    show (c.val.toNat + 32) % 4294967296 = _
    omega
  · exact .inl rfl

theorem mem_starts_of_toLower {c : Char} (h : c.toLower ∈ ['r', 'u', 'b', 'f']) : c ∈ starts := by
  rcases toNat_toLower c with hc | hc
  · rw [hc] at h
    simp only [starts, List.mem_cons] at h ⊢
    tauto
  · have hupper (d e : Char) (hd : c.toLower = d) (he : d.toNat = e.toNat + 32) : c = e := by
      rw [hd, he] at hc
      exact Char.toNat_inj.mp (by omega)
    simp only [List.mem_cons, List.not_mem_nil, or_false] at h
    rcases h with h | h | h | h
    · rw [hupper 'r' 'R' h (by decide)]
      decide
    · rw [hupper 'u' 'U' h (by decide)]
      decide
    · rw [hupper 'b' 'B' h (by decide)]
      decide
    · rw [hupper 'f' 'F' h (by decide)]
      decide

theorem mem_starts_of_isQuote {c : Char} (h : isQuote c = true) : c ∈ starts := by
  simp only [isQuote, Bool.or_eq_true, decide_eq_true_eq] at h
  simp only [starts, List.mem_cons]
  tauto

theorem isWord_of_mem_starts {c : Char} (hc : c ∈ starts) (hquote : isQuote c = false) :
    Text.isWord c = true ∧ Text.isWordStart c = true := by
  simp only [starts, List.mem_cons, List.not_mem_nil, or_false] at hc
  rcases hc with rfl | rfl | rfl | rfl | rfl | rfl | rfl | rfl | rfl | rfl
  · contradiction
  · contradiction
  all_goals exact ⟨rfl, rfl⟩

/-- Nothing but a string, an identifier or a fixed text begins in this way. -/
theorem read_of_mem_starts {c : Char} {rest r : List Char} {t : Terminal} (hc : c ∈ starts)
    (h : t.read (c :: rest) = some r) :
    t = .shortString ∨ t = .longString ∨ t = .identifier ∨
      ∃ s, t.text? = some s ∧ fixed s.toList (c :: rest) = some r := by
  have hnone : imaginary (c :: rest) = none ∧ float (c :: rest) = none ∧
      hexadecimal (c :: rest) = none ∧ binary (c :: rest) = none ∧ octal (c :: rest) = none ∧
      decimal (c :: rest) = none ∧ newline (c :: rest) = none ∧ continuation (c :: rest) = none ∧
      comment (c :: rest) = none ∧ blank (c :: rest) = none := by
    simp only [starts, List.mem_cons, List.not_mem_nil, or_false] at hc
    rcases hc with rfl | rfl | rfl | rfl | rfl | rfl | rfl | rfl | rfl | rfl
    all_goals exact ⟨rfl, rfl, rfl, rfl, rfl, rfl, rfl, rfl, rfl, rfl⟩
  unfold Terminal.read at h
  split at h
  case h_6 => exact .inl rfl
  case h_7 => exact .inr (.inl rfl)
  case h_11 => exact .inr (.inr (.inl rfl))
  case h_14 =>
    obtain ⟨s, hs, hfixed⟩ := Option.bind_eq_some_iff.mp h
    exact .inr (.inr (.inr ⟨s, hs, hfixed⟩))
  all_goals simp [hnone] at h

/-- Whether a fixed text cannot be taken for the beginning of a string: it is longer than the letters
of one, and none of its first three characters is a quote. -/
def standsApart : List Char → Bool
  | c :: d :: e :: _ => c ∉ starts || !isQuote c && !isQuote d && !isQuote e
  | c :: _ => c ∉ starts
  | [] => true

/-- A fixed text that begins in this way is longer than the letters of a string, and its next two
characters are no quotes. -/
theorem exists_of_text {t : Terminal} {s : String} {c : Char} {rest : List Char}
    (h : t.text? = some s) (hs : s.toList = c :: rest) (hc : c ∈ starts) :
    ∃ d e behind, rest = d :: e :: behind ∧ isQuote c = false ∧ isQuote d = false ∧
      isQuote e = false := by
  have hall : (Terminal.all.all fun t => t.text?.all fun s => standsApart s.toList) = true := by
    decide +kernel
  have ht := List.all_eq_true.mp hall t (LawfulNumbered.mem_all t)
  rw [h, Option.all_some, hs] at ht
  rcases rest with _ | ⟨d, _ | ⟨e, behind⟩⟩
  · simp [standsApart, hc] at ht
  · simp [standsApart, hc] at ht
  · simp only [standsApart, hc, not_true_eq_false, decide_false, Bool.false_or, Bool.and_eq_true,
      Bool.not_eq_true'] at ht
    exact ⟨d, e, behind, rfl, ht.1.1, ht.1.2, ht.2⟩

theorem text_ne_empty {t : Terminal} {s : String} (h : t.text? = some s) : s.toList ≠ [] := by
  have hall : (Terminal.all.all fun t => t.text?.all fun s => !s.toList.isEmpty) = true := by
    decide +kernel
  have ht := List.all_eq_true.mp hall t (LawfulNumbered.mem_all t)
  rw [h] at ht
  simpa using ht

namespace Triple

variable {text word behind rest : List Char} {q : Char} {t : Terminal}

theorem opening (h : Triple text word q behind) :
    Lexer.opening text = some (q, q :: q :: behind) :=
  opening_eq_some_iff.mpr ⟨word, h.text, h.quote, h.letters, h.plain⟩

theorem of_opening {rest : List Char} (h : Lexer.opening text = some (q, rest))
    (htake : rest.take 2 = [q, q]) : ∃ word behind, Triple text word q behind := by
  obtain ⟨word, rfl, hquote, hletters, hplain⟩ := opening_eq_some_iff.mp h
  match rest, htake with
  | c :: d :: behind, htake =>
      cases htake
      exact ⟨word, behind, rfl, hquote, hletters, hplain⟩

theorem append (h : Triple text word q behind) (b : List Char) :
    Triple (text ++ b) word q (behind ++ b) :=
  ⟨by rw [h.text]; simp, h.quote, h.letters, h.plain⟩

theorem drop (h : Triple text word q behind) : Triple (text.drop word.length) [] q behind :=
  ⟨by rw [h.text, List.drop_left]; rfl, h.quote, rfl, by simp⟩

theorem mem_starts (h : Triple text word q behind) {c : Char} (hc : c ∈ word) : c ∈ starts :=
  mem_starts_of_toLower (mem_of_isStringLetters h.letters (List.mem_map_of_mem hc))

theorem length_word (h : Triple text word q behind) : word.length ≤ 2 := by
  have hlength := length_le_of_isStringLetters h.letters
  rwa [List.length_map] at hlength

/-- The first character. -/
theorem exists_cons (h : Triple text word q behind) : ∃ c rest, text = c :: rest ∧ c ∈ starts := by
  cases word with
  | nil => exact ⟨q, _, h.text, mem_starts_of_isQuote h.quote⟩
  | cons c word => exact ⟨c, _, h.text, h.mem_starts List.mem_cons_self⟩

/-- No fixed text begins the text. -/
theorem fixed_eq_none (h : Triple text word q behind) {s : String} (hs : t.text? = some s) :
    fixed s.toList text = none := by
  rw [fixed, if_neg]
  intro hprefix
  obtain ⟨r, hr⟩ := List.isPrefixOf_iff_prefix.mp hprefix
  obtain ⟨c, rest, htext, hc⟩ := h.exists_cons
  cases hlist : s.toList with
  | nil => exact text_ne_empty hs hlist
  | cons c' rest' =>
      rw [hlist, htext] at hr
      cases hr
      obtain ⟨d, e, behind, rfl, hc', hd, he⟩ := exists_of_text hs hlist hc
      have hquote := h.quote
      have hcompare := htext.symm.trans h.text
      have hlength := h.length_word
      rcases word with _ | ⟨x, _ | ⟨y, _ | ⟨z, word⟩⟩⟩
      · obtain ⟨rfl, -⟩ := List.cons.inj hcompare
        rw [hquote] at hc'
        contradiction
      · obtain ⟨rfl, -⟩ := List.cons.inj (List.cons.inj hcompare).2
        rw [hquote] at hd
        contradiction
      · obtain ⟨rfl, -⟩ := List.cons.inj (List.cons.inj (List.cons.inj hcompare).2).2
        rw [hquote] at he
        contradiction
      · simp only [List.length_cons] at hlength
        omega

/-- The letters are an identifier. -/
theorem identifier_eq (h : Triple text word q behind) :
    identifier text = if word = [] then none else some (q :: q :: q :: behind) := by
  have hquote : Text.isWord q = false ∧ Text.isWordStart q = false := by
    have hq := h.quote
    simp only [isQuote, Bool.or_eq_true, decide_eq_true_eq] at hq
    rcases hq with rfl | rfl <;> decide
  have hletters (c : Char) (hc : c ∈ word) := isWord_of_mem_starts (h.mem_starts hc) (h.plain c hc)
  rw [h.text]
  cases word with
  | nil => rw [List.nil_append, identifier, hquote.2]; rfl
  | cons x word =>
      rw [List.cons_append, identifier, (hletters x List.mem_cons_self).2, if_pos rfl, if_neg]
      · rw [List.dropWhile_append_of_pos fun c hc => (hletters c (List.mem_cons_of_mem x hc)).1,
          List.dropWhile_cons_of_neg (by simp [hquote.1])]
      · exact List.cons_ne_nil x word

theorem shortString_eq_none (h : Triple text word q behind) : shortString text = none := by
  rw [shortString, h.opening]
  exact if_pos rfl

/-- What can be read is a string between triple quotes, or the letters. -/
theorem read_eq_some (h : Triple text word q behind) (hr : t.read text = some rest) :
    t = .longString ∨ t = .identifier ∧ word ≠ [] ∧ rest = q :: q :: q :: behind := by
  obtain ⟨c, tail, htext, hc⟩ := h.exists_cons
  have hr' := hr
  rw [htext] at hr'
  rcases read_of_mem_starts hc hr' with rfl | rfl | rfl | ⟨s, hs, hfixed⟩
  · have hnone := h.shortString_eq_none
    rw [show shortString text = some rest from hr] at hnone
    contradiction
  · exact .inl rfl
  · have hidentifier := h.identifier_eq
    rw [show identifier text = some rest from hr] at hidentifier
    split at hidentifier
    · contradiction
    · rename_i hword
      exact .inr ⟨rfl, hword, Option.some.inj hidentifier⟩
  · rw [← htext, h.fixed_eq_none hs] at hfixed
    contradiction

theorem read_eq_none (h : Triple text word q behind) (hlong : t ≠ .longString)
    (hidentifier : t ≠ .identifier) : t.read text = none := by
  cases hread : t.read text with
  | none => rfl
  | some rest =>
      rcases h.read_eq_some hread with heq | ⟨heq, -⟩
      · exact absurd heq hlong
      · exact absurd heq hidentifier

theorem longString_eq (h : Triple text word q behind) :
    longString text = longBody q false behind := by
  rw [longString, h.opening]
  exact if_pos rfl

theorem longString_drop (h : Triple text word q behind) :
    longString (text.drop word.length) = longString text := by
  rw [h.drop.longString_eq, h.longString_eq]

theorem length_text (h : Triple text word q behind) :
    text.length - (q :: q :: q :: behind).length = word.length := by
  rw [h.text, List.length_append, Nat.add_sub_cancel]

theorem take_text (h : Triple text word q behind) : text.take word.length = word := by
  rw [h.text, List.take_left]

/-- The letters are no keyword. -/
theorem kindOf_identifier (h : Triple text word q behind) (candidates : TerminalSet) :
    kindOf candidates .identifier word = .identifier := by
  rw [kindOf, if_pos rfl]
  cases hkeyword : keyword? candidates word with
  | none => rfl
  | some k =>
      have hk := List.find?_some hkeyword
      rw [Bool.and_eq_true, decide_eq_true_iff, decide_eq_true_iff] at hk
      have hlength := h.length_word
      cases word with
      | nil => exact absurd String.toList_ofList (text_ne_empty hk.2)
      | cons c rest =>
          obtain ⟨d, e, behind, rfl, -⟩ := exists_of_text hk.2 String.toList_ofList
            (h.mem_starts List.mem_cons_self)
          simp only [List.length_cons] at hlength
          omega

/-- The lexer finds nothing, a string between triple quotes, or the letters. -/
theorem first?_cases (h : Triple text word q behind) (candidates : TerminalSet) :
    first? candidates text = none ∨
      (∃ length, first? candidates text = some (.longString, length)) ∨
      word ≠ [] ∧ .identifier ∈ candidates ∧
        first? candidates text = some (.identifier, word.length) := by
  rw [first?_eq]
  cases hread : firstRead (tried candidates) text with
  | none => exact .inl rfl
  | some found =>
      obtain ⟨t, rest⟩ := found
      obtain ⟨ht, hrest⟩ := read_of_firstRead hread
      simp only
      split
      · exact .inl rfl
      · rcases h.read_eq_some hrest with rfl | ⟨rfl, hword, rfl⟩
        · exact .inr (.inl ⟨_, rfl⟩)
        · rw [h.length_text, h.take_text, h.kindOf_identifier]
          exact .inr (.inr ⟨hword, BitSet.mem_toList.mp (List.mem_filter.mp ht).1, rfl⟩)

/-- Where the string does not end, the lexer can only find the letters. -/
theorem first?_of_unclosed (h : Triple text word q behind) (hlong : longString text = none)
    (candidates : TerminalSet) :
    first? candidates text =
      if word ≠ [] ∧ .identifier ∈ candidates then some (.identifier, word.length) else none := by
  split
  · rename_i hword
    have hall : Terminal.all = Terminal.all.take 10 ++ .identifier :: Terminal.all.drop 11 := rfl
    have hidentifier : Terminal.identifier.read text = some (q :: q :: q :: behind) :=
      h.identifier_eq.trans (if_neg hword.1)
    have hbefore : ∀ u ∈ Terminal.all.take 10, u.read text = none := by
      intro u hu
      by_cases hu' : u = .longString
      · rw [hu']
        exact hlong
      · exact h.read_eq_none hu' fun heq => absurd (heq ▸ hu) (by decide)
    have hpos : 0 < word.length := List.length_pos_iff.mpr hword.1
    have hlength := h.length_text
    rw [first?_of_earliest hall hbefore hidentifier (by omega) hword.2 rfl, hlength, h.take_text,
      h.kindOf_identifier]
  · rename_i hword
    rcases h.first?_cases candidates with hnone | ⟨length, hfirst⟩ | ⟨hne, hmem, -⟩
    · exact hnone
    · obtain ⟨rest, hread, -⟩ := read_of_first? hfirst rfl
      rw [show Terminal.read .longString text = longString text from rfl, hlong] at hread
      contradiction
    · exact absurd ⟨hne, hmem⟩ hword

/-- A string that ends is found, whatever its letters are. -/
theorem first?_of_closed (h : Triple text word q behind) (hlong : longString text = some rest)
    (hlength : rest.length < text.length) {candidates : TerminalSet}
    (ht : Terminal.longString ∈ candidates) :
    first? candidates text = some (.longString, text.length - rest.length) := by
  have hall : Terminal.all = Terminal.all.take 6 ++ .longString :: Terminal.all.drop 7 := rfl
  have hbefore : ∀ u ∈ Terminal.all.take 6, u.read text = none := fun u hu =>
    h.read_eq_none (fun heq => absurd (heq ▸ hu) (by decide)) fun heq =>
      absurd (heq ▸ hu) (by decide)
  rw [first?_of_earliest hall hbefore hlong hlength ht rfl, kindOf_of_ne (by decide)]

end Triple

theorem OpensLong.exists_triple {text : List Char} (h : OpensLong text) :
    ∃ word q behind, Triple text word q behind ∧ longString text = none := by
  obtain ⟨q, rest, hopening, htake, hbody⟩ := h
  obtain ⟨word, behind, htriple⟩ := Triple.of_opening hopening htake
  have hrest := htriple.opening
  rw [hopening] at hrest
  cases hrest
  exact ⟨word, q, behind, htriple, htriple.longString_eq.trans hbody⟩

/-! ### In front of an open string -/

theorem OpensLong.not_skipped {candidates : TerminalSet} {text : List Char} {t : Terminal}
    {length : Nat} (h : OpensLong text) (hfirst : first? candidates text = some (t, length)) :
    t.isSkipped = false := by
  obtain ⟨word, q, behind, htriple, hlong⟩ := h.exists_triple
  rw [htriple.first?_of_unclosed hlong] at hfirst
  split at hfirst
  · cases hfirst
    rfl
  · contradiction

theorem SkipsTo.finds {candidates : TerminalSet} {c d : Cursor} {found : Next}
    (h : SkipsTo candidates c d) (hd : Finds candidates d found) : Finds candidates c found := by
  induction h with
  | here => exact hd
  | skip first skipped _ ih => exact .skip first skipped (ih hd)

/-- What is skipped is skipped in the longer text, too. -/
theorem SkipsTo.extend {candidates : TerminalSet} {c d : Cursor} (h : SkipsTo candidates c d)
    (hlines : Lines c.rest) (b : List Char) : SkipsTo candidates (c.extend b) (d.extend b) := by
  induction h with
  | here => exact .here
  | @skip c d t length first skipped _ ih =>
      have hopen : ¬OpensLong c.rest := by
        intro hopen
        rw [hopen.not_skipped first] at skipped
        contradiction
      have hwhole : WholeLines c.rest := hlines.wholeLines fun hnil => by
        rw [hnil, first?_nil] at first
        contradiction
      have hlength := (length_of_first? first).2
      rcases first?_append_of_some b hopen hwhole first with happend | ⟨rfl, -⟩
      · refine .skip (c := c.extend b) happend skipped ?_
        rw [Cursor.take_extend hlength]
        exact ih (hlines.drop length)
      · contradiction

namespace Triple

variable {candidates : TerminalSet} {c : Cursor} {word behind : List Char} {q : Char}

/-- A string without an end cannot be read from its quotes on. -/
theorem finds_unreadable (h : Triple c.rest [] q behind) (hlong : longString c.rest = none)
    (candidates : TerminalSet) : Finds candidates c (.unreadable q c.location) := by
  have hnone (ts : TerminalSet) : first? ts c.rest = none := by
    rw [h.first?_of_unclosed hlong, if_neg fun hboth => hboth.1 rfl]
  exact .unreadable h.text (hnone candidates) (hnone everything)

/-- The letters in front of it are misplaced if the parser does not look for an identifier. -/
theorem finds_misplaced (h : Triple c.rest word q behind) (hlong : longString c.rest = none)
    (hword : word ≠ []) (hcandidates : Terminal.identifier ∉ candidates) :
    Finds candidates c (.misplaced (c.take .identifier word.length).1) := by
  have hmem : Terminal.identifier ∈ everything :=
    BitSet.mem_ofList.mpr (LawfulNumbered.mem_all _)
  refine .misplaced ?_ ?_
  · rw [h.first?_of_unclosed hlong, if_neg fun hboth => hcandidates hboth.2]
  · rw [h.first?_of_unclosed hlong, if_pos ⟨hword, hmem⟩]

/-- Otherwise they are found, and the quotes come next. -/
theorem finds_letters (h : Triple c.rest word q behind) (hlong : longString c.rest = none)
    (hword : word ≠ []) (hcandidates : Terminal.identifier ∈ candidates) :
    Finds candidates c (.lexeme (c.take .identifier word.length).1
      (c.take .identifier word.length).2) := by
  refine .lexeme ?_ rfl
  rw [h.first?_of_unclosed hlong, if_pos ⟨hword, hcandidates⟩]

theorem behind_unreadable (h : Triple c.rest word q behind) (hlong : longString c.rest = none)
    (candidates : TerminalSet) :
    ∃ character location, Finds candidates (c.take .identifier word.length).2
      (.unreadable character location) := by
  have hdrop : Triple (c.take .identifier word.length).2.rest [] q behind := h.drop
  exact ⟨q, _, hdrop.finds_unreadable (h.longString_drop.trans hlong) candidates⟩

/-- A longer text may end the string. Otherwise the lexer gives up there, or finds the letters. -/
theorem finds_extend (h : Triple c.rest word q behind) (b : List Char) {found : Next}
    (hfound : Finds candidates (c.extend b) found) :
    found.IsFailure ∨ (∃ l behind, found = .lexeme l behind ∧ l.kind = .longString) ∨
      word ≠ [] ∧ Terminal.identifier ∈ candidates ∧
        found = .lexeme (c.take .identifier word.length).1
          ((c.take .identifier word.length).2.extend b) := by
  have hextend : Triple (c.extend b).rest word q (behind ++ b) := h.append b
  rcases hextend.first?_cases candidates with hnone | ⟨length, hfirst⟩ | ⟨hword, hmem, hfirst⟩
  · have hne : (c.extend b).rest ≠ [] := by
      obtain ⟨d, rest, htext, -⟩ := hextend.exists_cons
      rw [htext]
      exact List.cons_ne_nil d rest
    obtain ⟨failure, hfailure, hgives⟩ := exists_failure_of_nothing hne hnone
    rw [hfound.unique hfailure]
    exact .inl hgives
  · rw [hfound.unique (.lexeme hfirst rfl)]
    exact .inr (.inl ⟨_, _, rfl, rfl⟩)
  · have hlength : word.length ≤ c.rest.length := by
      rw [h.text, List.length_append]
      omega
    rw [hfound.unique (.lexeme hfirst rfl), Cursor.take_extend hlength]
    exact .inr (.inr ⟨hword, hmem, rfl⟩)

end Triple

end SyntaxTriage.Lexer
