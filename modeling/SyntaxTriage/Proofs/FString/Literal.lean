import SyntaxTriage.FString.Literal

/-!
Literals written and taken apart again. How wide the quotes are is told by the first three
characters behind the letters, so a body between three quotes may be any text, and one between
single quotes may be any that does not make three of a kind with the quotes around it. What else the
body holds, and what it ends with, makes no difference.
-/

namespace SyntaxTriage.StringLiteral

/-- Quotes that a body may be written between: three of a kind, or a single one that the body does
not begin with. -/
inductive Quotes : List Char → List Char → Prop
  | triple {q : Char} (quote : isQuote q = true) (body : List Char) : Quotes [q, q, q] body
  | single {q : Char} {body : List Char} (quote : isQuote q = true) (first : body.head? ≠ some q) :
      Quotes [q] body

variable {letters quotes quoted body : List Char} {q : Char}

theorem isQuote_iff {c : Char} : isQuote c = true ↔ c = '"' ∨ c = '\'' := by
  rw [isQuote, Bool.or_eq_true, decide_eq_true_iff, decide_eq_true_iff]

/-! ### How wide the quotes are -/

theorem quoteWidth_triple (hq : isQuote q = true) (rest : List Char) :
    quoteWidth (q :: q :: q :: rest) = 3 := by
  rcases isQuote_iff.mp hq with rfl | rfl <;> rfl

theorem quoteWidth_single {rest : List Char} (h : ¬[q, q] <+: rest) :
    quoteWidth (q :: rest) = 1 := by
  unfold quoteWidth
  split
  case h_3 => rfl
  all_goals
    rename_i heq
    cases heq
    exact absurd ⟨_, rfl⟩ h

/-- A body that does not begin with the quote makes no three of a kind with the quotes around it. -/
theorem not_prefix_of_head?_ne (h : body.head? ≠ some q) : ¬[q, q] <+: body ++ [q] := by
  intro hprefix
  cases body with
  | nil => simpa using hprefix.length_le
  | cons c body =>
      rw [List.cons_append, List.cons_prefix_cons] at hprefix
      exact h (congrArg some hprefix.1.symm)

theorem Quotes.quoteWidth_eq (h : Quotes quotes body) :
    quoteWidth (quotes ++ body ++ quotes) = quotes.length := by
  cases h with
  | triple hq => exact quoteWidth_triple hq _
  | single hq hfirst => exact quoteWidth_single (not_prefix_of_head?_ne hfirst)

theorem Quotes.head?_any (h : Quotes quotes body) :
    (quotes ++ body ++ quotes).head?.any isQuote = true := by
  cases h with
  | triple hq | single hq => exact hq

/-! ### Letters and body -/

/-- The letters end where the quotes begin. -/
theorem ofText?_append (hletters : ∀ c ∈ letters, isQuote c = false)
    (hquoted : quoted.head?.any isQuote = true) :
    ofText? (letters ++ quoted) = some {
      letters := Text.lower letters
      body := (quoted.drop (quoteWidth quoted)).take (quoted.length - 2 * quoteWidth quoted) } := by
  have hplain : ∀ c ∈ letters, (!isQuote c) = true := fun c hc => by rw [hletters c hc]; rfl
  cases quoted with
  | nil => contradiction
  | cons q rest =>
      have hstop : ¬(!isQuote q) = true := by simpa using hquoted
      have htake : (letters ++ q :: rest).takeWhile (!isQuote ·) = letters := by
        rw [List.takeWhile_append_of_pos hplain,
          List.takeWhile_cons_of_neg (p := fun c => !isQuote c) hstop, List.append_nil]
      have hdrop : (letters ++ q :: rest).dropWhile (!isQuote ·) = q :: rest := by
        rw [List.dropWhile_append_of_pos hplain,
          List.dropWhile_cons_of_neg (p := fun c => !isQuote c) hstop]
      rw [ofText?, htake, hdrop]

/-- What stands between the quotes is the body. -/
theorem take_drop_between (quotes body : List Char) :
    ((quotes ++ body ++ quotes).drop quotes.length).take
      ((quotes ++ body ++ quotes).length - 2 * quotes.length) = body := by
  have hlength : (quotes ++ body ++ quotes).length - 2 * quotes.length = body.length := by
    simp only [List.length_append]
    omega
  rw [hlength, List.append_assoc, List.drop_left, List.take_left]

/-- Letters and body are found if the quotes are taken for as wide as they are. -/
theorem ofText?_of_quoteWidth (hletters : ∀ c ∈ letters, isQuote c = false)
    (hquoted : (quotes ++ body ++ quotes).head?.any isQuote = true)
    (hwidth : quoteWidth (quotes ++ body ++ quotes) = quotes.length) :
    ofText? (letters ++ (quotes ++ body ++ quotes)) = some ⟨Text.lower letters, body⟩ := by
  rw [ofText?_append hletters hquoted, hwidth, take_drop_between]

/-- Between single quotes, a body is lost that makes three of a kind with them. -/
theorem ofText?_single_iff (hletters : ∀ c ∈ letters, isQuote c = false) (hq : isQuote q = true) :
    ofText? (letters ++ ([q] ++ body ++ [q])) = some ⟨Text.lower letters, body⟩ ↔
      ¬[q, q] <+: body ++ [q] := by
  constructor
  · rintro h ⟨rest, hrest⟩
    have hquoted : [q] ++ body ++ [q] = q :: q :: q :: rest := congrArg (q :: ·) hrest.symm
    have htaken := @ofText?_append letters (q :: q :: q :: rest) hletters hq
    rw [hquoted, htaken, quoteWidth_triple hq] at h
    have hbody := congrArg (·.body.length) (Option.some.inj h)
    have hlength := congrArg List.length hrest
    simp only [List.length_take, List.length_drop, List.length_append, List.length_cons,
      List.length_nil] at hbody hlength
    omega
  · exact fun h => ofText?_of_quoteWidth hletters hq (quoteWidth_single h)

/-! ### Main result -/

/-- A literal that is written of letters and a body between quotes is taken apart into the letters,
in lower case, and the body. Single quotes do for every body but those that make three of a kind
with them. -/
theorem ofText?_written (hletters : ∀ c ∈ letters, isQuote c = false) :
    (∀ quotes body, Quotes quotes body →
      ofText? (letters ++ quotes ++ body ++ quotes) = some ⟨Text.lower letters, body⟩) ∧
    ∀ q body, isQuote q = true →
      (ofText? (letters ++ [q] ++ body ++ [q]) = some ⟨Text.lower letters, body⟩ ↔
        ¬[q, q] <+: body ++ [q]) := by
  have hassoc (quotes body : List Char) :
      letters ++ quotes ++ body ++ quotes = letters ++ (quotes ++ body ++ quotes) := by
    rw [List.append_assoc, List.append_assoc, ← List.append_assoc quotes]
  refine ⟨fun quotes body h => ?_, fun q body hq => ?_⟩
  · rw [hassoc]
    exact ofText?_of_quoteWidth hletters h.head?_any h.quoteWidth_eq
  · rw [hassoc]
    exact ofText?_single_iff hletters hq

/-- A body that begins and ends with the quotes around it, and holds the other ones. -/
theorem ofText?_written_quotes :
    (∀ c ∈ ['R', 'b'], isQuote c = false) ∧ Quotes ['"', '"', '"'] ['"', '\'', '"'] ∧
      ofText? "Rb\"\"\"\"'\"\"\"\"".toList = some ⟨['r', 'b'], ['"', '\'', '"']⟩ := by
  have hletters : ∀ c ∈ ['R', 'b'], isQuote c = false := by simp [isQuote]
  have hquotes : Quotes ['"', '"', '"'] ['"', '\'', '"'] := .triple rfl _
  exact ⟨hletters, hquotes, (ofText?_written hletters).1 _ _ hquotes⟩

end SyntaxTriage.StringLiteral
