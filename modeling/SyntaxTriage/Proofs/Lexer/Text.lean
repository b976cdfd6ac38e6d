import Mathlib.Data.List.TakeWhile
import Mathlib.Tactic.Tauto
import SyntaxTriage.Lexer.Basic
import SyntaxTriage.Proofs.Grammar.Numbering
import SyntaxTriage.Proofs.Lexer.Number

/-!
Identifiers, comments, blanks, fixed texts and strings between single quotes are read in one line.
Strings between triple quotes and line breaks are not, but what the text holds of them in full is
the same whatever follows the text.
-/

namespace SyntaxTriage.Lexer

/-! ### Identifiers, comments, blanks and fixed texts -/

/-- A first character and as many further ones as pass a test. -/
theorem inLine_run {f : List Char → Option (List Char)} {first more : Char → Bool}
    (hcons : ∀ c rest, f (c :: rest) = if first c then some (rest.dropWhile more) else none)
    (hfirst : first '\n' = false) (hmore : more '\n' = false) : InLine f := by
  constructor
  · intro a b ha
    cases a with
    | nil => exact absurd rfl ha.ne_nil
    | cons c rest =>
        rw [List.cons_append, hcons, hcons]
        split
        · rename_i hc
          exact congrArg some ((ha.tail (ne_newline hfirst hc)).dropWhile_append hmore b)
        · rfl
  · intro a r ha hr
    cases a with
    | nil => exact absurd rfl ha.ne_nil
    | cons c rest =>
        rw [hcons] at hr
        split at hr
        · rename_i hc
          cases hr
          exact (ha.tail (ne_newline hfirst hc)).dropWhile hmore
        · contradiction

theorem inLine_identifier : InLine identifier :=
  inLine_run (fun _ _ => rfl) (by decide) (by decide)

theorem inLine_blank : InLine blank :=
  inLine_run (fun _ _ => rfl) (by decide) (by decide)

theorem inLine_comment : InLine comment := by
  refine @inLine_run comment (· = '#') (· ≠ '\n') ?_ (by decide) (by decide)
  intro c rest
  by_cases hc : c = '#'
  · subst hc
    rfl
  · simp [comment, hc]

theorem inLine_fixed {expected : List Char} (h : '\n' ∉ expected) : InLine (fixed expected) := by
  have hall (a b : List Char) (ha : WholeLines a) :
      fixed expected (a ++ b) = (fixed expected a).map (· ++ b) ∧
        ∀ r ∈ fixed expected a, WholeLines r := by
    induction expected generalizing a with
    | nil => exact ⟨rfl, fun r hr => Option.some.inj hr ▸ ha⟩
    | cons e expected ih =>
        rw [List.mem_cons, not_or] at h
        obtain ⟨hne, h⟩ := h
        cases a with
        | nil => exact absurd rfl ha.ne_nil
        | cons c a =>
            by_cases hc : e = c
            · subst hc
              have hcons (text : List Char) : fixed (e :: expected) (e :: text) =
                  fixed expected text := by simp [fixed]
              rw [List.cons_append, hcons, hcons]
              exact ih h a (ha.tail (Ne.symm hne))
            · have hcons (text : List Char) : fixed (e :: expected) (c :: text) = none := by
                simp [fixed, hc]
              rw [List.cons_append, hcons, hcons]
              simp
  exact ⟨fun b ha => (hall _ b ha).1, fun ha hr => (hall _ [] ha).2 _ hr⟩

/-! ### Strings -/

theorem length_le_of_isStringLetters {letters : List Char} (h : isStringLetters letters = true) :
    letters.length ≤ 2 := by
  match letters, h with
  | [], _ | [_], _ | [_, _], _ => simp

theorem mem_of_isStringLetters {letters : List Char} {c : Char} (h : isStringLetters letters = true)
    (hc : c ∈ letters) : c ∈ ['r', 'u', 'b', 'f'] := by
  match letters, h, hc with
  | [d], h, hc =>
      cases List.mem_singleton.mp hc
      simp only [isStringLetters, isKindLetter, Bool.or_eq_true, decide_eq_true_eq] at h
      simp only [List.mem_cons]
      tauto
  | [d, e], h, hc =>
      simp only [isStringLetters, isKindLetter, Bool.or_eq_true, Bool.and_eq_true,
        decide_eq_true_eq] at h
      simp only [List.mem_cons, List.not_mem_nil, or_false] at hc ⊢
      rcases hc with rfl | rfl
      · tauto
      · tauto

theorem newline_not_mem_letters {letters : List Char}
    (h : isStringLetters (letters.map Char.toLower) = true) : '\n' ∉ letters := by
  intro hmem
  have hlower := mem_of_isStringLetters h (List.mem_map.mpr ⟨'\n', hmem, rfl⟩)
  exact absurd hlower (by decide)

/-- An opening quote stands behind the letters of a string. -/
theorem opening_eq_some_iff {text rest : List Char} {q : Char} :
    opening text = some (q, rest) ↔ ∃ letters, text = letters ++ q :: rest ∧ isQuote q = true ∧
      isStringLetters (letters.map Char.toLower) = true ∧ ∀ c ∈ letters, isQuote c = false := by
  constructor
  · intro h
    unfold opening at h
    simp only at h
    split at h
    · rename_i c behind hdrop
      split at h
      · rename_i hquote
        cases h
        rw [Bool.and_eq_true] at hquote
        refine ⟨(text.take 2).takeWhile (!isQuote ·), ?_, hquote.1, hquote.2, ?_⟩
        · have hprefix : (text.take 2).takeWhile (!isQuote ·) <+: text :=
            (List.takeWhile_prefix _).trans (List.take_prefix 2 text)
          rw [← hdrop]
          exact (List.prefix_iff_eq_append.mp hprefix).symm
        · intro d hd
          simpa using List.mem_takeWhile_imp hd
      · contradiction
    · contradiction
  · rintro ⟨letters, rfl, hquote, hletters, hplain⟩
    have htake : ((letters ++ q :: rest).take 2).takeWhile (!isQuote ·) = letters := by
      have hlength := length_le_of_isStringLetters hletters
      rw [List.length_map] at hlength
      match letters, hlength, hplain with
      | [], _, _ => simp [hquote]
      | [c], _, hplain => simp [hquote, hplain c]
      | [c, d], _, hplain => simp [hplain c, hplain d]
    unfold opening
    simp only [htake, List.drop_left, hquote, hletters, Bool.and_self, if_true]

theorem isQuote_ne_newline {q : Char} (h : isQuote q = true) : q ≠ '\n' :=
  ne_newline (by decide) h

/-- The opening quote stands in the first line. -/
theorem exists_of_opening_append {a b rest : List Char} {q : Char} (ha : WholeLines a)
    (h : opening (a ++ b) = some (q, rest)) : ∃ behind, opening a = some (q, behind) ∧
      WholeLines behind ∧ rest = behind ++ b := by
  obtain ⟨letters, htext, hquote, hletters, hplain⟩ := opening_eq_some_iff.mp h
  have htext : a ++ b = letters ++ [q] ++ rest := by simpa using htext
  have hbefore : '\n' ∉ letters ++ [q] := by
    simp [newline_not_mem_letters hletters, Ne.symm (isQuote_ne_newline hquote)]
  obtain ⟨behind, rfl, hbehind, hrest⟩ := ha.exists_append htext hbefore
  exact ⟨behind, opening_eq_some_iff.mpr ⟨letters, by simp, hquote, hletters, hplain⟩, hbehind,
    hrest⟩

theorem opening_append {a rest : List Char} {q : Char} (b : List Char)
    (h : opening a = some (q, rest)) : opening (a ++ b) = some (q, rest ++ b) := by
  obtain ⟨letters, rfl, hquote⟩ := opening_eq_some_iff.mp h
  exact opening_eq_some_iff.mpr ⟨letters, by simp, hquote⟩

theorem wholeLines_of_opening {a rest : List Char} {q : Char} (ha : WholeLines a)
    (h : opening a = some (q, rest)) : WholeLines rest := by
  obtain ⟨behind, hbehind, hlines, -⟩ :=
    exists_of_opening_append (b := []) ha (by rwa [List.append_nil])
  rw [h] at hbehind
  cases hbehind
  exact hlines

theorem isQuote_of_opening {a rest : List Char} {q : Char} (h : opening a = some (q, rest)) :
    isQuote q = true := by
  obtain ⟨-, -, hquote, -⟩ := opening_eq_some_iff.mp h
  exact hquote

theorem take_two_append {rest : List Char} {q : Char} (b : List Char) (h : WholeLines rest)
    (hq : isQuote q = true) : (rest ++ b).take 2 = [q, q] ↔ rest.take 2 = [q, q] := by
  match rest, h with
  | [], h => exact absurd rfl h.ne_nil
  | [c], h =>
      have hc : c = '\n' := Option.some.inj h
      have hne := isQuote_ne_newline hq
      simp [hc, Ne.symm hne]
  | c :: d :: rest, _ => rfl

theorem inLine_shortBody {q : Char} (hq : isQuote q = true) (escaped : Bool) :
    InLine (shortBody q escaped) := by
  have hall (a b : List Char) (ha : WholeLines a) :
      shortBody q escaped (a ++ b) = (shortBody q escaped a).map (· ++ b) ∧
        ∀ r ∈ shortBody q escaped a, WholeLines r := by
    induction a generalizing escaped with
    | nil => exact absurd rfl ha.ne_nil
    | cons c a ih =>
        rw [List.cons_append, shortBody, shortBody]
        split
        · rename_i hc
          have hc' : c = q := by simp_all
          refine ⟨rfl, fun r hr => Option.some.inj hr ▸ ha.tail ?_⟩
          rw [hc']
          exact isQuote_ne_newline hq
        · split
          · simp
          · rename_i hc
            exact ih _ (ha.tail hc)
  exact ⟨fun b ha => (hall _ b ha).1, fun ha hr => (hall _ [] ha).2 _ hr⟩

theorem inLine_shortString : InLine shortString where
  append {a} b ha := by
    unfold shortString
    cases hopening : opening a with
    | none =>
        cases happend : opening (a ++ b) with
        | none => rfl
        | some found =>
            obtain ⟨behind, hbehind, -⟩ := exists_of_opening_append ha happend
            rw [hopening] at hbehind
            contradiction
    | some found =>
        have hq := isQuote_of_opening hopening
        have hrest := wholeLines_of_opening ha hopening
        simp only [opening_append b hopening, Option.bind_some, take_two_append b hrest hq]
        split
        · rfl
        · exact (inLine_shortBody hq false).append b hrest
  rest {a r} ha hr := by
    obtain ⟨found, hopening, hr⟩ := Option.bind_eq_some_iff.mp hr
    simp only at hr
    split at hr
    · contradiction
    · exact (inLine_shortBody (isQuote_of_opening hopening) false).rest
        (wholeLines_of_opening ha hopening) hr

/-- A string that ends in the text ends there whatever follows. -/
theorem longBody_append {q : Char} (hq : isQuote q = true) {escaped : Bool} {a r : List Char}
    (b : List Char) (ha : WholeLines a) (hr : longBody q escaped a = some r) :
    longBody q escaped (a ++ b) = some (r ++ b) ∧ WholeLines r := by
  induction a generalizing escaped with
  | nil => contradiction
  | cons c a ih =>
      rw [longBody] at hr
      rw [List.cons_append, longBody]
      split at hr
      · rename_i hc
        cases hr
        simp only [Bool.and_eq_true, decide_eq_true_eq] at hc
        obtain ⟨⟨rfl, hescaped⟩, htake⟩ := hc
        have ha' := ha.tail (isQuote_ne_newline hq)
        rw [if_pos (by simp [hescaped, take_two_append b ha' hq, htake])]
        obtain ⟨a', rfl⟩ : ∃ a', a = c :: c :: a' := by
          match a, htake with
          | d :: e :: a', htake => cases htake; exact ⟨a', rfl⟩
        exact ⟨rfl, (ha'.tail (isQuote_ne_newline hq)).tail (isQuote_ne_newline hq)⟩
      · rename_i hc
        rcases ha.cons_cases with ⟨rfl, -⟩ | ha'
        · contradiction
        · have hc' : ¬(c = q && !escaped && (a ++ b).take 2 = [q, q]) = true := by
            rwa [show decide ((a ++ b).take 2 = [q, q]) = decide (a.take 2 = [q, q]) by
              rw [decide_eq_decide]; exact take_two_append b ha' hq]
          rw [if_neg hc']
          exact ih ha' hr

theorem longString_append {a r : List Char} (b : List Char) (ha : WholeLines a)
    (hr : longString a = some r) : longString (a ++ b) = some (r ++ b) ∧ WholeLines r := by
  obtain ⟨⟨q, rest⟩, hopening, hr⟩ := Option.bind_eq_some_iff.mp hr
  have hq := isQuote_of_opening hopening
  have hrest := wholeLines_of_opening ha hopening
  simp only at hr
  split at hr
  · rename_i htake
    have hbody : WholeLines (rest.drop 2) ∧ (rest ++ b).drop 2 = rest.drop 2 ++ b := by
      match rest, htake, hrest with
      | c :: d :: rest, htake, hrest =>
          cases htake
          exact ⟨(hrest.tail (isQuote_ne_newline hq)).tail (isQuote_ne_newline hq), rfl⟩
    obtain ⟨happend, hlines⟩ := longBody_append hq b hbody.1 hr
    refine ⟨?_, hlines⟩
    rw [longString, opening_append b hopening]
    simp only [Option.bind_some]
    rw [if_pos ((take_two_append b hrest hq).mpr htake), hbody.2, happend]
  · contradiction

/-! ### Line breaks -/

theorem lineBreak_eq_some_iff {text rest : List Char} :
    lineBreak text = some rest ↔ text = '\n' :: rest ∨ text = '\r' :: '\n' :: rest := by
  unfold lineBreak
  split <;> simp_all

theorem lineBreak_append {a : List Char} (b : List Char) (ha : WholeLines a) :
    lineBreak (a ++ b) = (lineBreak a).map (· ++ b) := by
  cases hbreak : lineBreak a with
  | some rest =>
      rcases lineBreak_eq_some_iff.mp hbreak with rfl | rfl
      · rfl
      · rfl
  | none =>
      cases happend : lineBreak (a ++ b) with
      | none => rfl
      | some rest =>
          match a, ha with
          | [], ha => exact absurd rfl ha.ne_nil
          | [c], ha =>
              cases ha
              contradiction
          | c :: d :: a, _ =>
              rcases lineBreak_eq_some_iff.mp happend with h | h
              · cases h
                contradiction
              · cases h
                contradiction

theorem continuation_append {a : List Char} (b : List Char) (ha : WholeLines a) :
    continuation (a ++ b) = (continuation a).map (· ++ b) := by
  cases a with
  | nil => exact absurd rfl ha.ne_nil
  | cons c a =>
      by_cases hc : c = '\\'
      · subst hc
        have ha' := ha.tail (by decide)
        simp only [List.cons_append, continuation]
        rw [ha'.dropWhile_append (by decide), lineBreak_append b (ha'.dropWhile (by decide))]
      · simp [continuation, hc]

theorem emptyLine_append_of_none {a : List Char} (b : List Char) (ha : WholeLines a)
    (h : emptyLine a = none) : emptyLine (a ++ b) = none := by
  obtain ⟨hbreak, hcomment⟩ := Option.or_eq_none_iff.mp h
  rw [Option.map_eq_none_iff] at hbreak
  rw [emptyLine, lineBreak_append b ha, hbreak, inLine_comment.append b ha, hcomment]
  rfl

/-- An empty line that is followed by more of the text is the same whatever follows this. -/
theorem emptyLine_append {a r : List Char} (b : List Char) (ha : WholeLines a)
    (h : emptyLine a = some r) (hr : r ≠ []) :
    emptyLine (a ++ b) = some (r ++ b) ∧ WholeLines r := by
  rw [emptyLine, lineBreak_append b ha, inLine_comment.append b ha]
  rcases Option.or_eq_some_iff.mp h with h | ⟨hbreak, h⟩
  · obtain ⟨rest, hbreak, rfl⟩ := Option.map_eq_some_iff.mp h
    have hrest : WholeLines rest := by
      have hne : rest ≠ [] := by
        rintro rfl
        exact hr rfl
      rcases lineBreak_eq_some_iff.mp hbreak with rfl | rfl
      · exact WholeLines.of_append (a := ['\n']) ha hne
      · exact WholeLines.of_append (a := ['\r', '\n']) ha hne
    rw [hbreak]
    refine ⟨?_, hrest.dropWhile (by decide)⟩
    rw [← hrest.dropWhile_append (by decide) b]
    rfl
  · rw [Option.map_eq_none_iff] at hbreak
    rw [hbreak, h]
    exact ⟨rfl, inLine_comment.rest ha h⟩

theorem length_emptyLine {text rest : List Char} (h : emptyLine text = some rest) :
    rest.length < text.length := by
  rcases Option.or_eq_some_iff.mp h with h | ⟨-, h⟩
  · obtain ⟨behind, hbreak, rfl⟩ := Option.map_eq_some_iff.mp h
    have hlength := List.length_dropWhile_le (fun c => c = '\t' || c = ' ') behind
    rcases lineBreak_eq_some_iff.mp hbreak with rfl | rfl
    all_goals
      simp only [List.length_cons]
      omega
  · unfold comment at h
    split at h
    · rename_i behind _
      cases h
      have hlength := List.length_dropWhile_le (· ≠ '\n') behind
      simp only [List.length_cons]
      omega
    · contradiction

theorem length_skipEmptyLines (fuel : Nat) (text : List Char) :
    (skipEmptyLines fuel text).length ≤ text.length := by
  induction fuel generalizing text with
  | zero => exact Nat.le_refl _
  | succ fuel ih =>
      rw [skipEmptyLines]
      cases hline : emptyLine text with
      | none => exact Nat.le_refl _
      | some rest => exact (ih rest).trans (length_emptyLine hline).le

theorem skipEmptyLines_append {fuel fuel' : Nat} {a r : List Char} (b : List Char)
    (ha : WholeLines a) (hfuel : a.length ≤ fuel) (hfuel' : (a ++ b).length ≤ fuel')
    (h : skipEmptyLines fuel a = r) (hr : r ≠ []) :
    skipEmptyLines fuel' (a ++ b) = r ++ b ∧ WholeLines r := by
  induction fuel generalizing fuel' a with
  | zero => exact absurd (List.length_eq_zero_iff.mp (Nat.le_zero.mp hfuel)) ha.ne_nil
  | succ fuel ih =>
      cases fuel' with
      | zero =>
          rw [List.length_append] at hfuel'
          exact absurd (List.length_eq_zero_iff.mp (by omega)) ha.ne_nil
      | succ fuel' =>
          rw [skipEmptyLines] at h ⊢
          cases hline : emptyLine a with
          | none =>
              rw [hline] at h
              cases h
              rw [emptyLine_append_of_none b ha hline]
              exact ⟨rfl, ha⟩
          | some rest =>
              have hlength := length_emptyLine hline
              rw [hline] at h
              simp only at h
              have hrest : rest ≠ [] := by
                rintro rfl
                have hnil := length_skipEmptyLines fuel []
                rw [h] at hnil
                exact hr (List.length_eq_zero_iff.mp (Nat.le_zero.mp hnil))
              obtain ⟨happend, hlines⟩ := emptyLine_append b ha hline hrest
              rw [happend]
              refine ih hlines (by omega) ?_ h
              rw [List.length_append] at hfuel' ⊢
              omega

theorem newline_append_of_none {a : List Char} (b : List Char) (ha : WholeLines a)
    (h : newline a = none) : newline (a ++ b) = none := by
  rw [newline, Option.map_eq_none_iff] at h ⊢
  exact emptyLine_append_of_none b ha h

/-- Line breaks that are followed by more of the text are the same whatever follows this. -/
theorem newline_append {a r : List Char} (b : List Char) (ha : WholeLines a)
    (h : newline a = some r) (hr : r ≠ []) : newline (a ++ b) = some (r ++ b) ∧ WholeLines r := by
  obtain ⟨rest, hline, hskip⟩ := Option.map_eq_some_iff.mp h
  have hlength := length_emptyLine hline
  have hrest : rest ≠ [] := by
    rintro rfl
    have hnil := length_skipEmptyLines a.length []
    rw [hskip] at hnil
    exact hr (List.length_eq_zero_iff.mp (Nat.le_zero.mp hnil))
  obtain ⟨happend, hlines⟩ := emptyLine_append b ha hline hrest
  have hlength' : (rest ++ b).length ≤ (a ++ b).length := by
    rw [List.length_append, List.length_append]
    omega
  obtain ⟨hskip', hr'⟩ := skipEmptyLines_append b hlines hlength.le hlength' hskip hr
  refine ⟨?_, hr'⟩
  rw [newline, happend, Option.map_some, hskip']

/-- Line breaks that the text ends with are line breaks whatever follows. -/
theorem exists_newline_append {a r : List Char} (b : List Char) (ha : WholeLines a)
    (h : newline a = some r) : ∃ r', newline (a ++ b) = some r' := by
  obtain ⟨rest, hline, -⟩ := Option.map_eq_some_iff.mp h
  obtain ⟨rest', hline'⟩ : ∃ rest', emptyLine (a ++ b) = some rest' := by
    rw [emptyLine, lineBreak_append b ha, inLine_comment.append b ha]
    rcases Option.or_eq_some_iff.mp hline with hbreak | ⟨hbreak, hcomment⟩
    · obtain ⟨behind, hbehind, -⟩ := Option.map_eq_some_iff.mp hbreak
      rw [hbehind]
      exact ⟨_, rfl⟩
    · rw [Option.map_eq_none_iff] at hbreak
      rw [hbreak, hcomment]
      exact ⟨_, rfl⟩
  exact ⟨_, by rw [newline, hline']; rfl⟩

/-- What is read as the end of a line holds a line break, if all lines of the text are whole: a
comment may come first, but the line break behind it is read too. -/
theorem exists_newline_mem {a r : List Char} (ha : WholeLines a) (h : newline a = some r) :
    ∃ before after, a = before ++ '\n' :: after ∧ r.length ≤ after.length := by
  obtain ⟨rest, hline, rfl⟩ := Option.map_eq_some_iff.mp h
  have hskip := length_skipEmptyLines a.length rest
  rcases Option.or_eq_some_iff.mp hline with hbreak | ⟨-, hcomment⟩
  · obtain ⟨behind, hbehind, rfl⟩ := Option.map_eq_some_iff.mp hbreak
    have hlength := List.length_dropWhile_le (fun c => c = '\t' || c = ' ') behind
    rcases lineBreak_eq_some_iff.mp hbehind with rfl | rfl
    · exact ⟨[], behind, rfl, by omega⟩
    · exact ⟨['\r'], behind, rfl, by omega⟩
  · have hlines := inLine_comment.rest ha hcomment
    obtain ⟨before, hbefore, after, rfl⟩ : ∃ before, a = before ++ rest ∧ ∃ after,
        rest = '\n' :: after := by
      unfold comment at hcomment
      split at hcomment
      · rename_i text
        cases hcomment
        refine ⟨'#' :: text.takeWhile (· ≠ '\n'), ?_, (text.dropWhile (· ≠ '\n')).tail, ?_⟩
        · rw [List.cons_append, List.takeWhile_append_dropWhile]
        · have hhead := List.head_dropWhile_not (· ≠ '\n') hlines.ne_nil
          rw [decide_eq_false_iff_not, not_not] at hhead
          have hcons := List.cons_head_tail hlines.ne_nil
          rw [hhead] at hcons
          exact hcons.symm
      · contradiction
    refine ⟨before, after, hbefore, ?_⟩
    -- the line break behind the comment is read next
    match hfuel : a.length with
    | 0 => exact absurd (List.length_eq_zero_iff.mp hfuel) ha.ne_nil
    | fuel + 1 =>
        rw [skipEmptyLines]
        exact (length_skipEmptyLines fuel _).trans (List.length_dropWhile_le _ after)

/-! ### All terminals -/

theorem newline_not_mem_text {t : Terminal} {text : String} (h : t.text? = some text) :
    '\n' ∉ text.toList := by
  have hall : (Terminal.all.all fun t => t.text?.all fun text =>
      decide ('\n' ∉ text.toList)) = true := by decide +kernel
  have ht := List.all_eq_true.mp hall t (LawfulNumbered.mem_all t)
  rw [h] at ht
  exact of_decide_eq_true ht

theorem inLine_read {t : Terminal} (hlong : t ≠ .longString) (hnewline : t ≠ .newline)
    (hcontinuation : t ≠ .continuation) : InLine t.read := by
  have hfixed (t : Terminal) : InLine fun text => t.text?.bind fun s => fixed s.toList text := by
    cases ht : t.text? with
    | none => exact ⟨fun _ _ => rfl, fun _ h => by cases h⟩
    | some s => exact inLine_fixed (newline_not_mem_text ht)
  show InLine fun text => t.read text
  unfold Terminal.read
  split
  case h_7 | h_9 | h_10 => contradiction
  · exact inLine_imaginary
  · exact inLine_float
  · exact inLine_based (by decide) (by decide)
  · exact inLine_based (by decide) (by decide)
  · exact inLine_based (by decide) (by decide)
  · exact inLine_shortString
  · exact inLine_decimal
  · exact inLine_identifier
  · exact inLine_comment
  · exact inLine_blank
  · exact hfixed t

end SyntaxTriage.Lexer
