import Mathlib.Data.List.Basic

/-!
Readers on text that consists of whole lines. Nearly all readers stop at a line break at the latest,
so what they read at the beginning of whole lines does not depend on what follows these. Only two
readers go on behind a line break: that of strings between triple quotes, and that of line breaks
with the empty lines behind them.
-/

namespace SyntaxTriage.Lexer

/-- The text is not empty, and its last line is complete. -/
def WholeLines (text : List Char) : Prop := text.getLast? = some '\n'

namespace WholeLines

variable {c : Char} {a b : List Char}

theorem ne_nil (h : WholeLines a) : a ≠ [] := by
  rintro rfl
  cases h

theorem singleton : WholeLines ['\n'] := rfl

theorem append_left (h : WholeLines b) (a : List Char) : WholeLines (a ++ b) := by
  rw [WholeLines, List.getLast?_append, h]
  rfl

theorem of_append (h : WholeLines (a ++ b)) (hb : b ≠ []) : WholeLines b := by
  rwa [WholeLines, List.getLast?_append_of_ne_nil a hb] at h

theorem cons_cases (h : WholeLines (c :: a)) : a = [] ∧ c = '\n' ∨ WholeLines a := by
  cases a with
  | nil => exact .inl ⟨rfl, Option.some.inj h⟩
  | cons d a => exact .inr (of_append (a := [c]) h (List.cons_ne_nil d a))

theorem tail (h : WholeLines (c :: a)) (hc : c ≠ '\n') : WholeLines a := by
  rcases h.cons_cases with ⟨-, hnewline⟩ | h
  · exact absurd hnewline hc
  · exact h

theorem dropWhile (h : WholeLines a) {p : Char → Bool} (hp : p '\n' = false) :
    WholeLines (a.dropWhile p) := by
  induction a with
  | nil => exact h
  | cons c a ih =>
      rw [List.dropWhile_cons]
      split
      · rename_i hc
        refine ih (h.tail ?_)
        rintro rfl
        rw [hp] at hc
        contradiction
      · exact h

theorem dropWhile_append (h : WholeLines a) {p : Char → Bool} (hp : p '\n' = false)
    (b : List Char) : (a ++ b).dropWhile p = a.dropWhile p ++ b := by
  rw [List.dropWhile_append, if_neg]
  rw [List.isEmpty_iff]
  exact (h.dropWhile hp).ne_nil

/-- What holds no line break is read in the first line already. -/
theorem exists_append (h : WholeLines a) {before rest : List Char}
    (htext : a ++ b = before ++ rest) (hbefore : '\n' ∉ before) :
    ∃ behind, a = before ++ behind ∧ WholeLines behind ∧ rest = behind ++ b := by
  induction before generalizing a with
  | nil => exact ⟨a, rfl, h, htext.symm⟩
  | cons d before ih =>
      rw [List.mem_cons, not_or] at hbefore
      cases a with
      | nil => exact absurd rfl h.ne_nil
      | cons c a =>
          obtain ⟨hc, htail⟩ := List.cons.inj htext
          subst hc
          obtain ⟨behind, rfl, hbehind, hrest⟩ := ih (h.tail (Ne.symm hbefore.1)) htail hbefore.2
          exact ⟨behind, rfl, hbehind, hrest⟩

end WholeLines

theorem ne_newline {test : Char → Bool} (h : test '\n' = false) {c : Char} (hc : test c = true) :
    c ≠ '\n' := by
  rintro rfl
  rw [h] at hc
  contradiction

/-- A reader that stops in the line that it begins in: it leaves whole lines behind when it is given
whole lines, and does not depend on what follows these. -/
structure InLine (f : List Char → Option (List Char)) : Prop where
  append {a : List Char} (b : List Char) (h : WholeLines a) : f (a ++ b) = (f a).map (· ++ b)
  rest {a r : List Char} (h : WholeLines a) (hr : f a = some r) : WholeLines r

structure InLineAlways (f : List Char → List Char) : Prop where
  append {a : List Char} (b : List Char) (h : WholeLines a) : f (a ++ b) = f a ++ b
  rest {a : List Char} (h : WholeLines a) : WholeLines (f a)

namespace InLine

variable {f g : List Char → Option (List Char)}

theorem bind (hf : InLine f) (hg : InLine g) : InLine fun text => (f text).bind g where
  append {a} b h := by
    rw [hf.append b h]
    cases ha : f a with
    | none => rfl
    | some r => exact hg.append b (hf.rest h ha)
  rest {a r} h hr := by
    obtain ⟨s, hs, hr⟩ := Option.bind_eq_some_iff.mp hr
    exact hg.rest (hf.rest h hs) hr

theorem or (hf : InLine f) (hg : InLine g) : InLine fun text => (f text).or (g text) where
  append {a} b h := by
    rw [hf.append b h, hg.append b h]
    cases f a <;> rfl
  rest {a r} h hr := by
    rcases Option.or_eq_some_iff.mp hr with hr | ⟨-, hr⟩
    · exact hf.rest h hr
    · exact hg.rest h hr

theorem map (hf : InLine f) {g : List Char → List Char} (hg : InLineAlways g) :
    InLine fun text => (f text).map g where
  append {a} b h := by
    rw [hf.append b h]
    cases ha : f a with
    | none => rfl
    | some r => exact congrArg some (hg.append b (hf.rest h ha))
  rest {a r} h hr := by
    obtain ⟨s, hs, rfl⟩ := Option.map_eq_some_iff.mp hr
    exact hg.rest (hf.rest h hs)

/-- What may be read or not. -/
theorem getD (hf : InLine f) : InLineAlways fun text => (f text).getD text where
  append {a} b h := by
    rw [hf.append b h]
    cases f a <;> rfl
  rest {a} h := by
    cases ha : f a with
    | none => exact h
    | some r => exact hf.rest h ha

end InLine

end SyntaxTriage.Lexer
