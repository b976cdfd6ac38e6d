import SyntaxTriage.Proofs.FString.Scanning
import SyntaxTriage.Proofs.Lexer.Place

/-!
Quotes and brackets in lexemes. A bracket is a lexeme of its own, and a quote belongs to a string,
unless they stand in a string or in a comment. Comments are read together with line breaks. So in
all other lexemes, and in what is skipped between lexemes, there are only plain characters.
-/

namespace SyntaxTriage

namespace FString

def IsPlain (c : Char) : Prop := ¬IsQuote c ∧ closer? c = none ∧ isCloser c = false

def delimiters : List Char := ['\'', '"', '(', ')', '[', ']', '\x7b', '\x7d']

theorem isPlain_iff {c : Char} : IsPlain c ↔ c ∉ delimiters := by
  unfold IsPlain IsQuote closer? isCloser delimiters
  split <;> simp_all [and_assoc]

/-- Plain text neither opens nor closes anything. -/
theorem Closed.of_plain {text : List Char} (h : ∀ c ∈ text, IsPlain c) : Closed text := by
  induction text with
  | nil => exact .nil
  | cons c text ih =>
      obtain ⟨hc, htext⟩ := List.forall_mem_cons.mp h
      exact .plain hc.1 hc.2.1 hc.2.2 (ih htext)

end FString

namespace Lexer

open FString (IsPlain isPlain_iff delimiters)

/-- What stands in front of the rest of the text is plain. -/
def PlainTo (text rest : List Char) : Prop := ∃ taken, text = taken ++ rest ∧ ∀ c ∈ taken, IsPlain c

namespace PlainTo

variable {text rest behind : List Char} {c : Char}

theorem refl (text : List Char) : PlainTo text text := ⟨[], rfl, by simp⟩

theorem trans (h : PlainTo text rest) (h' : PlainTo rest behind) : PlainTo text behind := by
  obtain ⟨taken, rfl, htaken⟩ := h
  obtain ⟨taken', rfl, htaken'⟩ := h'
  refine ⟨taken ++ taken', (List.append_assoc ..).symm, fun c hc => ?_⟩
  exact (List.mem_append.mp hc).elim (htaken c) (htaken' c)

theorem cons (hc : IsPlain c) (h : PlainTo text rest) : PlainTo (c :: text) rest :=
  .trans ⟨[c], rfl, by simpa using hc⟩ h

theorem eq_of_not_plain (h : PlainTo text rest) (htext : text = c :: behind) (hc : ¬IsPlain c) :
    rest = text := by
  obtain ⟨taken, rfl, htaken⟩ := h
  cases taken with
  | nil => rfl
  | cons d taken =>
      cases htext
      exact absurd (htaken c List.mem_cons_self) hc

end PlainTo

/-- A test that no delimiter passes. -/
theorem isPlain_of_test {test : Char → Bool} (h : delimiters.any test = false) {c : Char}
    (hc : test c = true) : IsPlain c :=
  isPlain_iff.mpr fun hmem => List.any_eq_false.mp h c hmem hc

/-- What a reader takes away is plain. -/
structure TakesPlain (f : List Char → Option (List Char)) : Prop where
  plainTo : ∀ text rest, f text = some rest → PlainTo text rest

namespace TakesPlain

variable {f g : List Char → Option (List Char)}

theorem bind (hf : TakesPlain f) (hg : TakesPlain g) : TakesPlain fun text => (f text).bind g := by
  refine ⟨fun text rest h => ?_⟩
  obtain ⟨behind, hfirst, hsecond⟩ := Option.bind_eq_some_iff.mp h
  exact (hf.plainTo text behind hfirst).trans (hg.plainTo behind rest hsecond)

theorem or (hf : TakesPlain f) (hg : TakesPlain g) :
    TakesPlain fun text => (f text).or (g text) := by
  refine ⟨fun text rest h => ?_⟩
  rcases Option.or_eq_some_iff.mp h with h | ⟨-, h⟩
  · exact hf.plainTo text rest h
  · exact hg.plainTo text rest h

theorem map (hf : TakesPlain f) {g : List Char → List Char} (hg : ∀ text, PlainTo text (g text)) :
    TakesPlain fun text => (f text).map g := by
  refine ⟨fun text rest h => ?_⟩
  obtain ⟨behind, hfirst, rfl⟩ := Option.map_eq_some_iff.mp h
  exact (hf.plainTo text behind hfirst).trans (hg behind)

theorem getD (hf : TakesPlain f) (text : List Char) : PlainTo text ((f text).getD text) := by
  cases h : f text with
  | none => exact .refl text
  | some rest => exact hf.plainTo text rest h

end TakesPlain

/-! ### Numbers -/

theorem takesPlain_one {test : Char → Bool} (h : delimiters.any test = false) :
    TakesPlain (one test) := by
  refine ⟨fun text rest hread => ?_⟩
  cases text with
  | nil => contradiction
  | cons c text =>
      rw [one] at hread
      split at hread
      · rename_i hc
        cases hread
        exact .cons (isPlain_of_test h hc) (.refl _)
      · contradiction

theorem plainTo_skipDigits {digit : Char → Bool} (h : delimiters.any digit = false)
    (text : List Char) : PlainTo text (skipDigits digit text) := by
  fun_induction skipDigits digit text with
  | case1 c rest hc ih =>
      exact .cons (isPlain_iff.mpr (by decide)) (.cons (isPlain_of_test h hc) ih)
  | case3 c rest _ hc ih => exact .cons (isPlain_of_test h hc) ih
  | case2 | case4 | case5 => exact .refl _

theorem takesPlain_digits : TakesPlain digits :=
  (takesPlain_one (by decide)).map (plainTo_skipDigits (by decide))

theorem takesPlain_based {letter : Char} {digit : Char → Bool}
    (hletter : delimiters.any (·.toLower = letter) = false) (h : delimiters.any digit = false) :
    TakesPlain (based letter digit) := by
  refine ⟨fun text rest hread => ?_⟩
  unfold based at hread
  split at hread
  · rename_i c behind
    simp only at hread
    split at hread
    · rename_i hc
      cases hread
      have hplain : IsPlain c := isPlain_of_test hletter (decide_eq_true hc.1)
      exact .cons (isPlain_iff.mpr (by decide)) (.cons hplain (plainTo_skipDigits h behind))
    · contradiction
  · contradiction

theorem plainTo_sign (text : List Char) : PlainTo text (sign text) := by
  unfold sign
  split
  · exact .cons (isPlain_iff.mpr (by decide)) (.refl _)
  · exact .cons (isPlain_iff.mpr (by decide)) (.refl _)
  · exact .refl _

theorem takesPlain_exponent : TakesPlain exponent :=
  (takesPlain_one (by decide)).bind ⟨fun text rest h =>
    (plainTo_sign text).trans (takesPlain_digits.plainTo _ rest h)⟩

theorem takesPlain_pointed : TakesPlain pointed := by
  refine ⟨fun text rest h => ?_⟩
  unfold pointed at h
  split at h
  · rename_i behind hdigits
    cases h
    refine (takesPlain_digits.plainTo _ _ hdigits).trans ?_
    exact .cons (isPlain_iff.mpr (by decide)) (takesPlain_digits.getD behind)
  · contradiction
  · exact ((takesPlain_one (by decide)).bind takesPlain_digits).plainTo text rest h

theorem takesPlain_float : TakesPlain float :=
  (takesPlain_digits.bind takesPlain_exponent).or
    (takesPlain_pointed.map takesPlain_exponent.getD)

theorem takesPlain_imaginary : TakesPlain imaginary :=
  (takesPlain_float.or takesPlain_digits).bind (takesPlain_one (by decide))

theorem plainTo_zeros {text : List Char} {before : Option (List Char)} {rest full : List Char}
    (hbefore : ∀ r ∈ before, PlainTo full r) (htext : PlainTo full text)
    (h : zeros before text = some rest) : PlainTo full rest := by
  have hzero : IsPlain '0' := isPlain_iff.mpr (by decide)
  fun_induction zeros before text with
  | case1 rest stop ih =>
      refine ih (fun r hr => Option.some.inj hr ▸ htext) (htext.trans ?_) h
      exact .cons (isPlain_iff.mpr (by decide)) (.cons hzero (.refl _))
  | case2 rest stop ih =>
      exact ih (fun r hr => Option.some.inj hr ▸ htext) (htext.trans (.cons hzero (.refl _))) h
  | case3 text before stop =>
      simp only [stop] at h
      split at h
      · split at h
        · exact hbefore rest h
        · cases h
          exact htext
      · cases h
        exact htext

theorem takesPlain_decimal : TakesPlain decimal := by
  refine ⟨fun text rest h => ?_⟩
  unfold decimal at h
  split at h
  · exact @plainTo_zeros _ none _ _ (by simp) (.cons (isPlain_iff.mpr (by decide)) (.refl _)) h
  · split at h
    · rename_i hc
      cases h
      exact .cons (@isPlain_of_test Char.isDigit (by decide) _ hc)
        (plainTo_skipDigits (by decide) _)
    · contradiction
  · contradiction

/-! ### Identifiers, blanks and fixed texts -/

theorem plainTo_dropWhile {test : Char → Bool} (h : delimiters.any test = false)
    (text : List Char) : PlainTo text (text.dropWhile test) :=
  ⟨text.takeWhile test, List.takeWhile_append_dropWhile.symm,
    fun _ hc => isPlain_of_test h (List.mem_takeWhile_imp hc)⟩

theorem takesPlain_identifier : TakesPlain identifier := by
  refine ⟨fun text rest h => ?_⟩
  unfold identifier at h
  split at h
  · split at h
    · rename_i hc
      cases h
      exact .cons (@isPlain_of_test Text.isWordStart (by decide) _ hc)
        (plainTo_dropWhile (by decide) _)
    · contradiction
  · contradiction

theorem takesPlain_blank : TakesPlain blank := by
  refine ⟨fun text rest h => ?_⟩
  unfold blank at h
  split at h
  · split at h
    · rename_i hc
      cases h
      exact .cons (@isPlain_of_test isBlankChar (by decide) _ hc)
        (plainTo_dropWhile (by decide) _)
    · contradiction
  · contradiction

theorem takesPlain_lineBreak : TakesPlain lineBreak := by
  refine ⟨fun text rest h => ?_⟩
  have hnewline : IsPlain '\n' := isPlain_iff.mpr (by decide)
  rcases lineBreak_eq_some_iff.mp h with rfl | rfl
  · exact .cons hnewline (.refl _)
  · exact .cons (isPlain_iff.mpr (by decide)) (.cons hnewline (.refl _))

theorem takesPlain_continuation : TakesPlain continuation := by
  refine ⟨fun text rest h => ?_⟩
  unfold continuation at h
  split at h
  · refine .cons (isPlain_iff.mpr (by decide))
      ((@plainTo_dropWhile isBlankChar (by decide) _).trans ?_)
    exact takesPlain_lineBreak.plainTo _ rest h
  · contradiction

theorem eq_append_of_fixed {expected text rest : List Char} (h : fixed expected text = some rest) :
    text = expected ++ rest := by
  unfold fixed at h
  split at h
  · rename_i hprefix
    cases h
    exact (List.prefix_iff_eq_append.mp (List.isPrefixOf_iff_prefix.mp hprefix)).symm
  · contradiction

/-! ### Lexemes -/

/-- What the text of a terminal is made of. A string and a line break may hold anything. -/
inductive MadeOf (t : Terminal) (text : List Char) : Prop
  | anything (kind : t = .shortString ∨ t = .longString ∨ t = .newline)
  | plain (role : LayoutKind.role t = .other) (plain : ∀ c ∈ text, IsPlain c)
  | opener {c closer : Char} (role : LayoutKind.role t = .opening)
      (fixed : t.text? = some (String.ofList [c])) (text : text = [c])
      (opener : FString.closer? c = some closer)
  | closer {c : Char} (role : LayoutKind.role t = .closing)
      (fixed : t.text? = some (String.ofList [c])) (text : text = [c])
      (closer : FString.isCloser c = true)

/-- Brackets are the only fixed texts that are not plain. -/
theorem madeOf_text {t : Terminal} {text : String} (h : t.text? = some text) :
    MadeOf t text.toList := by
  have hall : ∀ t ∈ Terminal.all, ∀ text ∈ t.text?,
      (LayoutKind.role t = .other ∧ text.toList.all (· ∉ delimiters)) ∨
      (LayoutKind.role t = .opening ∧ text.toList.length = 1 ∧
        text.toList.all fun c => (FString.closer? c).isSome) ∨
      (LayoutKind.role t = .closing ∧ text.toList.length = 1 ∧
        text.toList.all FString.isCloser) := by decide +kernel
  have hfixed {c : Char} (hc : text.toList = [c]) : t.text? = some (String.ofList [c]) := by
    rw [h, ← hc, String.ofList_toList]
  rcases hall t (LawfulNumbered.mem_all t) text h with ⟨hrole, hplain⟩ |
    ⟨hrole, hlength, hopener⟩ | ⟨hrole, hlength, hcloser⟩
  · exact .plain hrole fun c hc =>
      isPlain_iff.mpr (of_decide_eq_true (List.all_eq_true.mp hplain c hc))
  · obtain ⟨c, hc⟩ := List.length_eq_one_iff.mp hlength
    have hsome := List.all_eq_true.mp hopener c (by simp [hc])
    obtain ⟨closer, hcloser⟩ := Option.isSome_iff_exists.mp hsome
    exact .opener hrole (hfixed hc) hc hcloser
  · obtain ⟨c, hc⟩ := List.length_eq_one_iff.mp hlength
    exact .closer hrole (hfixed hc) hc (List.all_eq_true.mp hcloser c (by simp [hc]))

/-- The text in front of the rest. -/
theorem take_of_append (taken rest : List Char) :
    (taken ++ rest).take ((taken ++ rest).length - rest.length) = taken := by
  rw [List.length_append, Nat.add_sub_cancel, List.take_left]

variable {text rest : List Char} {t : Terminal} {length : Nat} {candidates : TerminalSet}

theorem PlainTo.madeOf (h : PlainTo text rest) (hrole : LayoutKind.role t = .other) :
    MadeOf t (text.take (text.length - rest.length)) := by
  obtain ⟨taken, rfl, hplain⟩ := h
  rw [take_of_append]
  exact .plain hrole hplain

/-- What a terminal reads is made of plain characters, or it is a bracket, a string, a line break
or a comment. -/
theorem madeOf_of_read (hcomment : t ≠ .comment) (h : t.read text = some rest) :
    MadeOf t (text.take (text.length - rest.length)) := by
  have hfixed {t : Terminal} (h : (t.text?.bind fun s => fixed s.toList text) = some rest) :
      MadeOf t (text.take (text.length - rest.length)) := by
    obtain ⟨word, hword, hread⟩ := Option.bind_eq_some_iff.mp h
    rw [eq_append_of_fixed hread, take_of_append]
    exact madeOf_text hword
  unfold Terminal.read at h
  split at h
  case h_12 => contradiction
  · exact (takesPlain_imaginary.plainTo _ _ h).madeOf rfl
  · exact (takesPlain_float.plainTo _ _ h).madeOf rfl
  · exact ((takesPlain_based (by decide) (by decide)).plainTo _ _ h).madeOf rfl
  · exact ((takesPlain_based (by decide) (by decide)).plainTo _ _ h).madeOf rfl
  · exact ((takesPlain_based (by decide) (by decide)).plainTo _ _ h).madeOf rfl
  · exact .anything (.inl rfl)
  · exact .anything (.inr (.inl rfl))
  · exact (takesPlain_decimal.plainTo _ _ h).madeOf rfl
  · exact .anything (.inr (.inr rfl))
  · exact (takesPlain_continuation.plainTo _ _ h).madeOf rfl
  · exact (takesPlain_identifier.plainTo _ _ h).madeOf rfl
  · exact (takesPlain_blank.plainTo _ _ h).madeOf rfl
  · exact hfixed h

/-- No keyword is a bracket or the like. -/
theorem role_of_mem_keywords (h : t ∈ keywords) : LayoutKind.role t = .other := by
  have hall : ∀ t ∈ keywords, LayoutKind.role t = .other := by decide +kernel
  exact hall t h

/-- A comment is read as a line break wherever line breaks are looked for. -/
theorem ne_comment_of_firstRead (hnewline : Terminal.newline ∈ candidates)
    (h : firstRead (tried candidates) text = some (t, rest)) : t ≠ .comment := by
  rintro rfl
  have hread := (read_of_firstRead h).2
  have hnewlineRead : ∃ behind, Terminal.newline.read text = some behind := by
    have hempty : ∃ behind, emptyLine text = some behind := by
      unfold emptyLine
      cases (lineBreak text).map (·.dropWhile fun c => c = '\t' || c = ' ') with
      | some behind => exact ⟨behind, rfl⟩
      | none => exact ⟨rest, hread⟩
    obtain ⟨behind, hbehind⟩ := hempty
    exact ⟨_, congrArg (Option.map _) hbehind⟩
  obtain ⟨behind, hbehind⟩ := hnewlineRead
  have htried : tried candidates = (Terminal.all.take 8 ++ .newline :: Terminal.all.drop 9).filter
      fun u => !(decide (.identifier ∈ candidates) && u.isKeyword) && decide (u ∈ candidates) := by
    rw [← List.filter_filter]
    rfl
  have hkeyword : Terminal.newline.isKeyword = false := rfl
  rw [htried, List.filter_append, List.filter_cons_of_pos (by simp [hnewline, hkeyword]), firstRead,
    List.findSome?_append, List.findSome?_cons, hbehind] at h
  cases hbefore : List.findSome? _ _ with
  | none =>
      rw [hbefore] at h
      cases h
  | some found =>
      rw [hbefore] at h
      cases h
      have hmem := (read_of_firstRead hbefore).1
      exact absurd (List.mem_filter.mp hmem).1 (by decide)

/-- What the lexer finds is made of plain characters, or it is a bracket, a string or a line
break. -/
theorem madeOf_of_first? (hnewline : Terminal.newline ∈ candidates)
    (h : first? candidates text = some (t, length)) :
    MadeOf t (text.take length) ∧ t ≠ .comment := by
  obtain ⟨u, rest, hfound, rfl, -, rfl⟩ := first?_eq_some_iff.mp h
  have hu := ne_comment_of_firstRead hnewline hfound
  have hread := (read_of_firstRead hfound).2
  by_cases hidentifier : u = .identifier
  · subst hidentifier
    rw [kindOf, if_pos rfl]
    have hplain := takesPlain_identifier.plainTo _ _ hread
    cases hword : keyword? candidates (text.take (text.length - rest.length)) with
    | none => exact ⟨hplain.madeOf rfl, by decide⟩
    | some k =>
        have hk := mem_keywords_of_keyword? hword
        refine ⟨hplain.madeOf (role_of_mem_keywords hk), ?_⟩
        rintro rfl
        exact not_mem_keywords_of_text rfl hk
  · rw [kindOf_of_ne hidentifier]
    exact ⟨madeOf_of_read hu hread, hu⟩

/-- What is skipped is plain. -/
theorem plainTo_drop_of_isSkipped (hnewline : Terminal.newline ∈ candidates)
    (h : first? candidates text = some (t, length)) (hskipped : t.isSkipped = true) :
    PlainTo text (text.drop length) := by
  obtain ⟨hmade, hcomment⟩ := madeOf_of_first? hnewline h
  have hkind : t = .continuation ∨ t = .blank := by
    unfold Terminal.isSkipped at hskipped
    split at hskipped <;> simp_all
  cases hmade with
  | plain _ plain => exact ⟨_, (List.take_append_drop length text).symm, plain⟩
  | anything kind => rcases hkind with rfl | rfl <;> simp at kind
  | opener role | closer role => rcases hkind with rfl | rfl <;> cases role

/-! ### Parentheses and comments -/

theorem opening_eq_none {c : Char} (hquote : isQuote c = false)
    (hletter : c.toLower ∉ ['r', 'u', 'b', 'f']) (text : List Char) :
    opening (c :: text) = none := by
  rw [Option.eq_none_iff_forall_ne_some]
  rintro ⟨q, rest⟩ hfound
  obtain ⟨letters, htext, hq, hletters, -⟩ := opening_eq_some_iff.mp hfound
  cases letters with
  | nil =>
      cases htext
      rw [hquote] at hq
      contradiction
  | cons d letters =>
      cases htext
      exact hletter (mem_of_isStringLetters hletters List.mem_cons_self)

theorem strings_eq_none {c : Char} (hquote : isQuote c = false)
    (hletter : c.toLower ∉ ['r', 'u', 'b', 'f']) (text : List Char) :
    shortString (c :: text) = none ∧ longString (c :: text) = none := by
  rw [shortString, longString, opening_eq_none hquote hletter text]
  exact ⟨rfl, rfl⟩

inductive Parenthesis : Char → Terminal → Prop
  | left : Parenthesis '(' .leftParen
  | right : Parenthesis ')' .rightParen

namespace Parenthesis

variable {c : Char} {u : Terminal}

/-- No other fixed text begins with a parenthesis. -/
theorem eq_of_text? (h : Parenthesis c t) {s : String} (hs : u.text? = some s)
    (hhead : s.toList.head?.all (· = c) = true) : u = t := by
  have hall : ∀ u ∈ Terminal.all, ∀ s ∈ u.text?, s.toList.head?.all (· = c) → u = t := by
    cases h <;> decide +kernel
  exact hall u (LawfulNumbered.mem_all u) s hs hhead

/-- A parenthesis is read as what it is, and as nothing else. -/
theorem read_eq_some_iff (h : Parenthesis c t) :
    u.read (c :: text) = some rest ↔ u = t ∧ rest = text := by
  have hread : t.read (c :: text) = some text := by cases h <;> rfl
  suffices u.read (c :: text) = some rest → u = t by
    constructor
    · intro hu
      obtain rfl := this hu
      exact ⟨rfl, Option.some.inj (hu.symm.trans hread)⟩
    · rintro ⟨rfl, rfl⟩
      exact hread
  have hnone : imaginary (c :: text) = none ∧ float (c :: text) = none ∧
      hexadecimal (c :: text) = none ∧ binary (c :: text) = none ∧ octal (c :: text) = none ∧
      decimal (c :: text) = none ∧ newline (c :: text) = none ∧ continuation (c :: text) = none ∧
      identifier (c :: text) = none ∧ comment (c :: text) = none ∧ blank (c :: text) = none := by
    cases h
    all_goals exact ⟨rfl, rfl, rfl, rfl, rfl, rfl, rfl, rfl, rfl, rfl, rfl⟩
  have hstrings : shortString (c :: text) = none ∧ longString (c :: text) = none := by
    cases h
    all_goals exact strings_eq_none (by decide) (by decide) text
  intro hu
  unfold Terminal.read at hu
  split at hu
  case h_14 =>
    obtain ⟨s, hs, hfixed⟩ := Option.bind_eq_some_iff.mp hu
    have htext := eq_append_of_fixed hfixed
    refine h.eq_of_text? hs ?_
    cases hlist : s.toList with
    | nil => rfl
    | cons d word =>
        rw [hlist] at htext
        cases htext
        exact decide_eq_true rfl
  all_goals simp [hnone, hstrings] at hu

/-- Where a parenthesis stands, it is found, if it is looked for. -/
theorem first?_eq (h : Parenthesis c t) (ht : t ∈ candidates) (text : List Char) :
    first? candidates (c :: text) = some (t, 1) := by
  have hkeyword : t.isKeyword = false := by cases h <;> rfl
  have hidentifier : t ≠ .identifier := by cases h <;> decide
  have htried : t ∈ tried candidates :=
    List.mem_filter.mpr ⟨BitSet.mem_toList.mpr ht, by simp [hkeyword]⟩
  rw [Lexer.first?_eq]
  cases hfound : firstRead (tried candidates) (c :: text) with
  | none =>
      have hnone := List.findSome?_eq_none_iff.mp hfound t htried
      rw [h.read_eq_some_iff.mpr ⟨rfl, rfl⟩] at hnone
      contradiction
  | some found =>
      obtain ⟨u, rest⟩ := found
      obtain ⟨rfl, rfl⟩ := h.read_eq_some_iff.mp (read_of_firstRead hfound).2
      simp only [List.length_cons, Nat.add_sub_cancel_left, Nat.one_ne_zero, if_false]
      rw [kindOf_of_ne hidentifier]

end Parenthesis

/-- A comment is taken with the end of its line, up to a parenthesis that begins the next one. -/
theorem first?_comment {comment : List Char} (hcomment : '\n' ∉ comment)
    (ht : Terminal.newline ∈ candidates) (text : List Char) :
    first? candidates ('#' :: (comment ++ '\n' :: ')' :: text)) =
      some (.newline, comment.length + 2) := by
  generalize htext : '#' :: (comment ++ '\n' :: ')' :: text) = all
  have hall : Terminal.all = Terminal.all.take 8 ++ .newline :: Terminal.all.drop 9 := rfl
  have hbefore : ∀ u ∈ Terminal.all.take 8, u.read all = none := by
    obtain ⟨hshort, hlong⟩ := @strings_eq_none '#' (by decide) (by decide)
      (comment ++ '\n' :: ')' :: text)
    subst htext
    simp only [Terminal.all, List.take, List.forall_mem_cons]
    exact ⟨rfl, rfl, rfl, rfl, rfl, hshort, hlong, rfl, by simp⟩
  have hread : Terminal.newline.read all = some (')' :: text) := by
    have hline : emptyLine all = some ('\n' :: ')' :: text) := by
      rw [← htext]
      refine congrArg some ?_
      rw [List.dropWhile_append_of_pos fun c hc =>
        decide_eq_true (ne_of_mem_of_not_mem hc hcomment)]
      rfl
    have hskip (fuel : Nat) : skipEmptyLines fuel (')' :: text) = ')' :: text := by
      cases fuel <;> rfl
    show newline all = _
    rw [newline, hline, ← htext]
    exact congrArg some (hskip _)
  have hlength : all.length - (')' :: text).length = comment.length + 2 := by
    rw [← htext]
    simp only [List.length_cons, List.length_append]
    omega
  rw [first?_of_earliest hall hbefore hread (by omega) ht rfl, hlength, kindOf_of_ne (by decide)]

/-! ### The next lexeme -/

theorem Finds.madeOf {c behind : Cursor} {l : Lexeme Terminal}
    (hnewline : Terminal.newline ∈ candidates) (h : Finds candidates c (.lexeme l behind)) :
    PlainTo c.rest (l.text.toList ++ behind.rest) ∧ MadeOf l.kind l.text.toList := by
  generalize hfound : Next.lexeme l behind = found at h
  induction h with
  | finished | misplaced | unreadable => cases hfound
  | skip first skipped _ ih =>
      obtain ⟨hrest, hl⟩ := ih hfound
      exact ⟨(plainTo_drop_of_isSkipped hnewline first skipped).trans hrest, hl⟩
  | @lexeme c t length first _ =>
      cases hfound
      have htext : ((c.take t length).1.text).toList = c.rest.take length := String.toList_ofList
      rw [htext]
      refine ⟨?_, (madeOf_of_first? hnewline first).1⟩
      rw [show (c.take t length).2.rest = c.rest.drop length from rfl, List.take_append_drop]
      exact .refl _

/-- The lexer comes to the end only over plain characters. -/
theorem Finds.plain_of_finished {c : Cursor} (hnewline : Terminal.newline ∈ candidates)
    (h : Finds candidates c .finished) : PlainTo c.rest [] := by
  generalize hfound : Next.finished = found at h
  induction h with
  | lexeme | misplaced | unreadable => cases hfound
  | finished done =>
      rw [done]
      exact .refl _
  | skip first skipped _ ih =>
      exact (plainTo_drop_of_isSkipped hnewline first skipped).trans (ih hfound)

/-- Where a parenthesis stands, it is what is found, if anything is. -/
theorem Finds.leftParen {c behind : Cursor} {l : Lexeme Terminal} {text before more : List Char}
    (hnewline : Terminal.newline ∈ candidates) (h : Finds candidates c (.lexeme l behind))
    (hplace : c.StandsIn text before) (hc : c.rest = '(' :: more) :
    l.kind = .leftParen ∧ l.text.toList = ['('] ∧ behind.rest = more := by
  have hparen : ¬IsPlain '(' := fun hplain => isPlain_iff.mp hplain (by decide)
  obtain ⟨hskipped, hmade⟩ := h.madeOf hnewline
  obtain ⟨-, -, -, hne, htaken⟩ := h.piece hplace
  have htext : l.text.toList ++ behind.rest = '(' :: more :=
    (hskipped.eq_of_not_plain hc hparen).trans hc
  obtain ⟨w, hw⟩ : ∃ w, l.text.toList = '(' :: w := by
    cases hl : l.text.toList with
    | nil => exact absurd hl hne
    | cons d w =>
        rw [hl] at htext
        cases htext
        exact ⟨w, rfl⟩
  cases hmade with
  | anything kind =>
      obtain ⟨rest, hread, -⟩ := htaken (by rcases kind with h | h | h <;> rw [h] <;> rfl)
      rw [htext] at hread
      rw [(Parenthesis.left.read_eq_some_iff.mp hread).1] at kind
      simp at kind
  | plain _ plain => exact absurd (plain '(' (by simp [hw])) hparen
  | closer _ _ text closer =>
      rw [hw] at text
      cases text
      contradiction
  | opener _ fixed text =>
      rw [hw] at text
      cases text
      rw [hw] at htext
      exact ⟨Parenthesis.left.eq_of_text? fixed rfl, hw, (List.cons.inj htext).2⟩

end Lexer

end SyntaxTriage
