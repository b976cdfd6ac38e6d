import SyntaxTriage.Lexer.Number
import SyntaxTriage.Proofs.Lexer.Lines

/-!
Numbers are read in one line.
-/

namespace SyntaxTriage.Lexer

theorem inLine_one {test : Char → Bool} (h : test '\n' = false) : InLine (one test) where
  append {a} b ha := by
    cases a with
    | nil => exact absurd rfl ha.ne_nil
    | cons c a =>
        rw [List.cons_append, one, one]
        split <;> rfl
  rest {a r} ha hr := by
    cases a with
    | nil => contradiction
    | cons c a =>
        rw [one] at hr
        split at hr
        · rename_i hc
          cases hr
          apply ha.tail
          rintro rfl
          rw [h] at hc
          contradiction
        · contradiction

theorem skipDigits_cons {digit : Char → Bool} {c : Char} (hc : c ≠ '_') (rest : List Char) :
    skipDigits digit (c :: rest) = if digit c then skipDigits digit rest else c :: rest := by
  rw [skipDigits]
  exact fun _ _ h => absurd h hc

theorem inLine_skipDigits {digit : Char → Bool} (h : digit '\n' = false) :
    InLineAlways (skipDigits digit) := by
  have hall (a b : List Char) (ha : WholeLines a) :
      skipDigits digit (a ++ b) = skipDigits digit a ++ b ∧ WholeLines (skipDigits digit a) := by
    fun_induction skipDigits digit a with
    | case1 c rest hc ih =>
        obtain ⟨happend, hrest⟩ := ih ((ha.tail (by decide)).tail (ne_newline h hc))
        refine ⟨?_, hrest⟩
        rw [List.cons_append, List.cons_append, skipDigits, if_pos hc, happend]
    | case2 c rest hc =>
        refine ⟨?_, ha⟩
        rw [List.cons_append, List.cons_append, skipDigits, if_neg hc]
    | case3 c rest hunderscore hc ih =>
        have hc' : c ≠ '_' := by
          rintro rfl
          cases rest with
          | nil => cases ha
          | cons d rest => exact hunderscore d rest rfl rfl
        obtain ⟨happend, hrest⟩ := ih (ha.tail (ne_newline h hc))
        refine ⟨?_, hrest⟩
        rw [List.cons_append, skipDigits_cons hc', if_pos hc, happend]
    | case4 c rest hunderscore hc =>
        have hc' : c ≠ '_' := by
          rintro rfl
          cases rest with
          | nil => cases ha
          | cons d rest => exact hunderscore d rest rfl rfl
        refine ⟨?_, ha⟩
        rw [List.cons_append, skipDigits_cons hc', if_neg hc]
    | case5 => exact absurd rfl ha.ne_nil
  exact ⟨fun b ha => (hall _ b ha).1, fun ha => (hall _ [] ha).2⟩

theorem inLine_digits : InLine digits :=
  (inLine_one (by decide)).map (inLine_skipDigits (by decide))

theorem inLine_based {letter : Char} {digit : Char → Bool} (hletter : letter ≠ '\n')
    (h : digit '\n' = false) : InLine (based letter digit) := by
  -- the letter is not a line break, so there is more of the line behind it
  have hdigits := inLine_skipDigits h
  have hrest {c : Char} {rest : List Char} (ha : WholeLines ('0' :: c :: rest))
      (hc : c.toLower = letter) : WholeLines rest := by
    refine (ha.tail (by decide)).tail ?_
    rintro rfl
    exact hletter hc.symm
  constructor
  · intro a b ha
    cases a with
    | nil => exact absurd rfl ha.ne_nil
    | cons d a =>
        cases a with
        | nil =>
            cases ha
            rfl
        | cons c rest =>
            by_cases hd : d = '0'
            · subst hd
              by_cases hc : c.toLower = letter
              · simp only [List.cons_append, based, hc, true_and]
                rw [hdigits.append b (hrest ha hc), List.length_append, List.length_append]
                split <;> split
                · rfl
                · omega
                · omega
                · rfl
              · simp [based, hc]
            · simp [based, hd]
  · intro a r ha hr
    unfold based at hr
    split at hr
    · rename_i c rest
      simp only at hr
      split at hr
      · rename_i hc
        cases hr
        exact hdigits.rest (hrest ha hc.1)
      · contradiction
    · contradiction

theorem inLineAlways_sign : InLineAlways sign where
  append {a} b h := by
    cases a with
    | nil => exact absurd rfl h.ne_nil
    | cons c a => simp only [List.cons_append, sign]; split <;> simp_all
  rest {a} h := by
    unfold sign
    split
    · exact h.tail (by decide)
    · exact h.tail (by decide)
    · exact h

theorem inLine_exponent : InLine exponent := by
  have hdigits : InLine fun text => digits (sign text) :=
    ⟨fun b h => by rw [inLineAlways_sign.append b h, inLine_digits.append b (inLineAlways_sign.rest h)],
      fun h hr => inLine_digits.rest (inLineAlways_sign.rest h) hr⟩
  exact (inLine_one (by decide)).bind hdigits

theorem inLine_pointed : InLine pointed where
  append {a} b h := by
    unfold pointed
    rw [inLine_digits.append b h]
    cases ha : digits a with
    | none => exact ((inLine_one (by decide)).bind inLine_digits).append b h
    | some r =>
        have hr := inLine_digits.rest h ha
        cases r with
        | nil => exact absurd rfl hr.ne_nil
        | cons c r =>
            by_cases hc : c = '.'
            · subst hc
              exact congrArg some (inLine_digits.getD.append b (hr.tail (by decide)))
            · simp [hc]
  rest {a r} h hr := by
    unfold pointed at hr
    split at hr
    · rename_i rest ha
      cases hr
      exact inLine_digits.getD.rest ((inLine_digits.rest h ha).tail (by decide))
    · contradiction
    · exact ((inLine_one (by decide)).bind inLine_digits).rest h hr

theorem inLine_float : InLine float :=
  (inLine_digits.bind inLine_exponent).or (inLine_pointed.map inLine_exponent.getD)

theorem inLine_imaginary : InLine imaginary :=
  (inLine_float.or inLine_digits).bind (inLine_one (by decide))

theorem zeros_append {before : Option (List Char)} {a : List Char} (b : List Char)
    (hbefore : ∀ r ∈ before, WholeLines r) (ha : WholeLines a) :
    zeros (before.map (· ++ b)) (a ++ b) = (zeros before a).map (· ++ b) ∧
      ∀ r ∈ zeros before a, WholeLines r := by
  fun_induction zeros before a with
  | case1 rest stop ih =>
      exact ih (fun r hr => Option.some.inj hr ▸ ha) ((ha.tail (by decide)).tail (by decide))
  | case2 rest stop ih =>
      exact ih (fun r hr => Option.some.inj hr ▸ ha) (ha.tail (by decide))
  | case3 text before stop hunderscore hzero =>
      cases text with
      | nil => exact absurd rfl ha.ne_nil
      | cons c rest =>
          have hunderscore' : ∀ rest', c :: (rest ++ b) ≠ '_' :: '0' :: rest' := by
            intro rest' h
            cases rest with
            | nil =>
                cases ha
                cases h
            | cons d rest =>
                cases h
                exact hunderscore rest rfl
          have hzero' : ∀ rest', c :: (rest ++ b) ≠ '0' :: rest' := by
            rintro rest' h
            cases h
            exact hzero rest rfl
          rw [List.cons_append, zeros.eq_3 _ _ _ hunderscore' hzero']
          simp only [stop]
          split
          · exact ⟨rfl, hbefore⟩
          · exact ⟨rfl, fun r hr => Option.some.inj hr ▸ ha⟩

theorem inLine_decimal : InLine decimal := by
  have hall (a b : List Char) (ha : WholeLines a) :
      decimal (a ++ b) = (decimal a).map (· ++ b) ∧ ∀ r ∈ decimal a, WholeLines r := by
    cases a with
    | nil => exact absurd rfl ha.ne_nil
    | cons c rest =>
        by_cases hc : c = '0'
        · subst hc
          exact @zeros_append none rest b (by simp) (ha.tail (by decide))
        · have hdecimal (rest : List Char) : decimal (c :: rest) =
              if c.isDigit then some (skipDigits Char.isDigit rest) else none := by
            rw [decimal]
            exact hc
          rw [List.cons_append, hdecimal, hdecimal]
          split
          · rename_i hdigit
            have hne : c ≠ '\n' := ne_newline (by decide) hdigit
            have hrest := ha.tail hne
            have hskip : InLineAlways (skipDigits Char.isDigit) := inLine_skipDigits (by decide)
            exact ⟨congrArg some (hskip.append b hrest),
              fun r hr => Option.some.inj hr ▸ hskip.rest hrest⟩
          · simp
  exact ⟨fun b ha => (hall _ b ha).1, fun ha hr => (hall _ [] ha).2 _ hr⟩

end SyntaxTriage.Lexer
