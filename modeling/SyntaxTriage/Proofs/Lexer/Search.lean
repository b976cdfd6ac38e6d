import SyntaxTriage.Proofs.Lexer.Text

/-!
What the lexer finds. `Finds` says it without a bound on the number of steps; since every step takes
some text away, the bound of the lexer is never reached. A lexeme that is found stands in the text
at the location that it gives.
-/

namespace SyntaxTriage

namespace Lexer

/-! ### The first terminal -/

def firstRead (ts : List Terminal) (text : List Char) : Option (Terminal × List Char) :=
  ts.findSome? fun t => (t.read text).map (t, ·)

theorem firstRead_cons (t : Terminal) (ts : List Terminal) (text : List Char) :
    firstRead (t :: ts) text = match t.read text with
      | some rest => some (t, rest)
      | none => firstRead ts text := by
  rw [firstRead, List.findSome?_cons]
  cases t.read text <;> rfl

theorem read_of_firstRead {ts : List Terminal} {text rest : List Char} {t : Terminal}
    (h : firstRead ts text = some (t, rest)) : t ∈ ts ∧ t.read text = some rest := by
  obtain ⟨u, hu, hread⟩ := List.exists_of_findSome?_eq_some h
  obtain ⟨behind, hbehind, heq⟩ := Option.map_eq_some_iff.mp hread
  cases heq
  exact ⟨hu, hbehind⟩

/-- The terminal that a lexeme is of, if `t` reads it. An identifier may stand for a keyword. -/
def kindOf (candidates : TerminalSet) (t : Terminal) (word : List Char) : Terminal :=
  if t = .identifier then (keyword? candidates word).getD .identifier else t

theorem kindOf_of_ne {candidates : TerminalSet} {t : Terminal} {word : List Char}
    (h : t ≠ .identifier) : kindOf candidates t word = t := if_neg h

/-- The lexer takes what the first terminal reads, if that is anything at all. -/
theorem first?_eq (candidates : TerminalSet) (text : List Char) :
    first? candidates text = match firstRead (tried candidates) text with
      | some (t, rest) =>
        if text.length - rest.length = 0 then none
        else some (kindOf candidates t (text.take (text.length - rest.length)),
          text.length - rest.length)
      | none => none := by
  unfold first?
  show (firstRead (tried candidates) text).bind _ = _
  cases firstRead (tried candidates) text with
  | none => rfl
  | some found =>
      obtain ⟨t, rest⟩ := found
      simp only [Option.bind_some, kindOf]
      split
      · rfl
      · split <;> rfl

theorem first?_eq_some_iff {candidates : TerminalSet} {text : List Char} {t : Terminal}
    {length : Nat} :
    first? candidates text = some (t, length) ↔
      ∃ u rest, firstRead (tried candidates) text = some (u, rest) ∧
        length = text.length - rest.length ∧ 0 < length ∧
        t = kindOf candidates u (text.take length) := by
  rw [first?_eq]
  constructor
  · intro h
    split at h
    · rename_i u rest hread
      split at h
      · contradiction
      · rename_i hlength
        cases h
        exact ⟨u, rest, hread, rfl, Nat.pos_of_ne_zero hlength, rfl⟩
    · contradiction
  · rintro ⟨u, rest, hread, rfl, hlength, rfl⟩
    simp only [hread]
    rw [if_neg (Nat.ne_of_gt hlength)]

theorem not_mem_keywords_of_text {t : Terminal} (h : t.text? = none) : t ∉ keywords := by
  intro ht
  have hkeyword := (List.mem_filter.mp ht).2
  rw [Terminal.isKeyword, h] at hkeyword
  contradiction

theorem mem_keywords_of_keyword? {candidates : TerminalSet} {word : List Char} {t : Terminal}
    (h : keyword? candidates word = some t) : t ∈ keywords :=
  List.mem_of_find?_eq_some h

/-- A terminal without a fixed text is found only where it is read. -/
theorem read_of_first? {candidates : TerminalSet} {text : List Char} {t : Terminal} {length : Nat}
    (h : first? candidates text = some (t, length)) (ht : t.text? = none) :
    ∃ rest, t.read text = some rest ∧ length = text.length - rest.length := by
  obtain ⟨u, rest, hfound, hlength, -, rfl⟩ := first?_eq_some_iff.mp h
  have hread := (read_of_firstRead hfound).2
  unfold kindOf at ht ⊢
  split
  · rename_i hu
    subst hu
    cases hword : keyword? candidates (text.take length) with
    | none => exact ⟨rest, hread, hlength⟩
    | some k =>
        rw [if_pos rfl, hword] at ht
        exact absurd (mem_keywords_of_keyword? hword) (not_mem_keywords_of_text ht)
  · exact ⟨rest, hread, hlength⟩

/-- The lexer finds what it is asked for. -/
theorem mem_of_first? {candidates : TerminalSet} {text : List Char} {t : Terminal} {length : Nat}
    (h : first? candidates text = some (t, length)) : t ∈ candidates := by
  obtain ⟨u, rest, hfound, -, -, rfl⟩ := first?_eq_some_iff.mp h
  have hu : u ∈ candidates :=
    BitSet.mem_toList.mp (List.mem_filter.mp (read_of_firstRead hfound).1).1
  unfold kindOf
  split
  · rename_i hidentifier
    subst hidentifier
    cases hword : keyword? candidates (text.take length) with
    | none => exact hu
    | some k =>
        have hk := List.find?_some hword
        rw [Bool.and_eq_true] at hk
        exact of_decide_eq_true hk.1
  · exact hu

theorem first?_nil (candidates : TerminalSet) : first? candidates [] = none := by
  rw [first?_eq]
  split
  · rw [List.length_nil, Nat.zero_sub, if_pos rfl]
  · rfl

theorem length_of_first? {candidates : TerminalSet} {text : List Char} {t : Terminal}
    {length : Nat} (h : first? candidates text = some (t, length)) :
    0 < length ∧ length ≤ text.length := by
  obtain ⟨u, rest, -, hlength, hpos, -⟩ := first?_eq_some_iff.mp h
  omega

/-- A terminal is found if it begins the text and none of those before it does. -/
theorem first?_of_earliest {candidates : TerminalSet} {text rest : List Char} {t : Terminal}
    {before after : List Terminal} (hall : Terminal.all = before ++ t :: after)
    (hbefore : ∀ u ∈ before, u.read text = none) (hread : t.read text = some rest)
    (hlength : rest.length < text.length) (ht : t ∈ candidates) (hkeyword : t.isKeyword = false) :
    first? candidates text =
      some (kindOf candidates t (text.take (text.length - rest.length)),
        text.length - rest.length) := by
  have hfound : firstRead (tried candidates) text = some (t, rest) := by
    have htried : tried candidates = (before ++ t :: after).filter fun u =>
        !(decide (.identifier ∈ candidates) && u.isKeyword) && decide (u ∈ candidates) := by
      rw [← hall, ← List.filter_filter]
      rfl
    rw [htried, List.filter_append, List.filter_cons_of_pos (by simp [ht, hkeyword]), firstRead,
      List.findSome?_append, List.findSome?_eq_none_iff.mpr, List.findSome?_cons, hread]
    · rfl
    · intro u hu
      rw [hbefore u (List.mem_filter.mp hu).1]
      rfl
  rw [first?_eq_some_iff]
  exact ⟨t, rest, hfound, rfl, Nat.sub_pos_of_lt hlength, rfl⟩

/-- A line break is found at the end of the text. -/
theorem first?_lineEnd {candidates : TerminalSet} (h : Terminal.newline ∈ candidates) :
    first? candidates ['\n'] = some (.newline, 1) := by
  have hall : Terminal.all = Terminal.all.take 8 ++ .newline :: Terminal.all.drop 9 := rfl
  have hbefore : ∀ u ∈ Terminal.all.take 8, u.read ['\n'] = none := by decide +kernel
  have hread : Terminal.newline.read ['\n'] = some [] := rfl
  rw [first?_of_earliest hall hbefore hread Nat.zero_lt_one h rfl, kindOf_of_ne (by decide)]
  rfl

/-! ### The next lexeme -/

inductive Finds (candidates : TerminalSet) : Cursor → Next → Prop
  | finished {c : Cursor} (done : c.rest = []) : Finds candidates c .finished
  | skip {c : Cursor} {t : Terminal} {length : Nat} {found : Next}
      (first : first? candidates c.rest = some (t, length)) (skipped : t.isSkipped = true)
      (behind : Finds candidates (c.take t length).2 found) : Finds candidates c found
  | lexeme {c : Cursor} {t : Terminal} {length : Nat}
      (first : first? candidates c.rest = some (t, length)) (kept : t.isSkipped = false) :
      Finds candidates c (.lexeme (c.take t length).1 (c.take t length).2)
  | misplaced {c : Cursor} {t : Terminal} {length : Nat} (nothing : first? candidates c.rest = none)
      (first : first? everything c.rest = some (t, length)) :
      Finds candidates c (.misplaced (c.take t length).1)
  | unreadable {c : Cursor} {character : Char} {rest : List Char}
      (text : c.rest = character :: rest) (nothing : first? candidates c.rest = none)
      (never : first? everything c.rest = none) :
      Finds candidates c (.unreadable character c.location)

theorem nextFrom_succ (candidates : TerminalSet) (fuel : Nat) (c : Cursor) :
    nextFrom candidates (fuel + 1) c =
      match first? candidates c.rest with
      | some (t, length) =>
        if t.isSkipped then nextFrom candidates fuel (c.take t length).2
        else .lexeme (c.take t length).1 (c.take t length).2
      | none =>
        match c.rest with
        | [] => .finished
        | character :: _ =>
          match first? everything c.rest with
          | some (t, length) => .misplaced (c.take t length).1
          | none => .unreadable character c.location := by
  rw [nextFrom]
  cases hrest : c.rest with
  | nil => rw [first?_nil]
  | cons character rest => rfl

theorem length_take_lt {candidates : TerminalSet} {c : Cursor} {t : Terminal} {length : Nat}
    (h : first? candidates c.rest = some (t, length)) :
    (c.take t length).2.rest.length < c.rest.length := by
  have hlength := length_of_first? h
  show (c.rest.drop length).length < c.rest.length
  rw [List.length_drop]
  omega

theorem finds_nextFrom {candidates : TerminalSet} {fuel : Nat} {c : Cursor}
    (h : c.rest.length < fuel) : Finds candidates c (nextFrom candidates fuel c) := by
  induction fuel generalizing c with
  | zero => exact absurd h (Nat.not_lt_zero _)
  | succ fuel ih =>
      rw [nextFrom_succ]
      split
      · rename_i t length hfirst
        have hlength := length_take_lt (t := t) hfirst
        split
        · rename_i hskipped
          exact .skip hfirst hskipped (ih (by omega))
        · rename_i hkept
          exact .lexeme hfirst (by simpa using hkept)
      · rename_i hnothing
        split
        · rename_i hrest
          exact .finished hrest
        · rename_i character rest hrest
          split
          · rename_i t length hfirst
            exact .misplaced hnothing hfirst
          · rename_i hnever
            exact .unreadable hrest hnothing hnever

theorem exists_finds (candidates : TerminalSet) (c : Cursor) :
    ∃ found, Finds candidates c found :=
  ⟨_, finds_nextFrom (Nat.lt_succ_self c.rest.length)⟩

theorem Finds.nextFrom_eq {candidates : TerminalSet} {c : Cursor} {found : Next}
    (h : Finds candidates c found) {fuel : Nat} (hfuel : c.rest.length < fuel) :
    nextFrom candidates fuel c = found := by
  induction h generalizing fuel with
  | @finished c done =>
      obtain ⟨fuel, rfl⟩ := Nat.exists_eq_add_one_of_ne_zero (Nat.ne_zero_of_lt hfuel)
      rw [nextFrom_succ, done, first?_nil]
  | @skip c t length found first skipped _ ih =>
      obtain ⟨fuel, rfl⟩ := Nat.exists_eq_add_one_of_ne_zero (Nat.ne_zero_of_lt hfuel)
      have hlength := length_take_lt (t := t) first
      rw [nextFrom_succ, first]
      simp only [skipped, if_true]
      exact ih (by omega)
  | @lexeme c t length first kept =>
      obtain ⟨fuel, rfl⟩ := Nat.exists_eq_add_one_of_ne_zero (Nat.ne_zero_of_lt hfuel)
      rw [nextFrom_succ, first]
      simp only [kept, Bool.false_eq_true, if_false]
  | @misplaced c t length nothing first =>
      obtain ⟨fuel, rfl⟩ := Nat.exists_eq_add_one_of_ne_zero (Nat.ne_zero_of_lt hfuel)
      cases hrest : c.rest with
      | nil =>
          rw [hrest, first?_nil] at first
          contradiction
      | cons character rest =>
          rw [nextFrom_succ, nothing, first, hrest]
  | @unreadable c character rest text nothing never =>
      obtain ⟨fuel, rfl⟩ := Nat.exists_eq_add_one_of_ne_zero (Nat.ne_zero_of_lt hfuel)
      rw [nextFrom_succ, nothing, never, text]

/-- Every lexeme takes some text away. -/
theorem Finds.length_lt {candidates : TerminalSet} {c behind : Cursor} {l : Lexeme Terminal}
    (h : Finds candidates c (.lexeme l behind)) : behind.rest.length < c.rest.length := by
  generalize hfound : Next.lexeme l behind = found at h
  induction h with
  | finished | misplaced | unreadable => cases hfound
  | @skip c t length found first _ _ ih =>
      exact (ih hfound).trans (length_take_lt first)
  | lexeme first _ =>
      cases hfound
      exact length_take_lt first

theorem Finds.kind_mem {candidates : TerminalSet} {c behind : Cursor} {l : Lexeme Terminal}
    (h : Finds candidates c (.lexeme l behind)) : l.kind ∈ candidates := by
  generalize hfound : Next.lexeme l behind = found at h
  induction h with
  | finished | misplaced | unreadable => cases hfound
  | skip _ _ _ ih => exact ih hfound
  | lexeme first _ =>
      cases hfound
      exact mem_of_first? first

theorem Finds.unique {candidates : TerminalSet} {c : Cursor} {found found' : Next}
    (h : Finds candidates c found) (h' : Finds candidates c found') : found = found' :=
  (h.nextFrom_eq (Nat.lt_succ_self _)).symm.trans (h'.nextFrom_eq (Nat.lt_succ_self _))

def Next.IsFailure : Next → Prop
  | misplaced _ | unreadable _ _ => True
  | lexeme _ _ | finished => False

/-- Without a terminal that the parser could go on with, the lexer gives up. -/
theorem exists_failure_of_nothing {candidates : TerminalSet} {c : Cursor} (hne : c.rest ≠ [])
    (h : first? candidates c.rest = none) : ∃ found, Finds candidates c found ∧ found.IsFailure := by
  cases hfirst : first? everything c.rest with
  | some found => exact ⟨_, .misplaced h hfirst, trivial⟩
  | none =>
      cases hrest : c.rest with
      | nil => exact absurd hrest hne
      | cons character rest => exact ⟨_, .unreadable hrest h hfirst, trivial⟩

/-- Line breaks are looked for everywhere. -/
theorem newline_mem (candidates : TerminalSet) : Terminal.newline ∈ candidates ∪ always :=
  BitSet.mem_union.mpr (.inr (BitSet.mem_ofList.mpr List.mem_cons_self))

theorem next_eq_iff {candidates : TerminalSet} {c : Cursor} {found : Next} :
    next candidates c = found ↔ Finds (candidates ∪ always) c found := by
  constructor
  · rintro rfl
    exact finds_nextFrom (Nat.lt_succ_self c.rest.length)
  · exact fun h => h.nextFrom_eq (Nat.lt_succ_self c.rest.length)

/-- What is found first is next, if it is a lexeme. -/
theorem next_of_first? {candidates : TerminalSet} {c : Cursor} {t : Terminal} {length : Nat}
    (first : first? (candidates ∪ always) c.rest = some (t, length)) (kept : t.isSkipped = false) :
    next candidates c = .lexeme (c.take t length).1 (c.take t length).2 :=
  next_eq_iff.mpr (.lexeme first kept)

end Lexer

end SyntaxTriage
