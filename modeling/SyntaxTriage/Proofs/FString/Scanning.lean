import Mathlib.Data.List.TakeWhile
import SyntaxTriage.Proofs.FString.Grammar

/-!
The scanner reads exactly the bodies of the grammar and finds exactly the expressions in them.

Inside an expression the scanner knows the brackets to close and the open quote. `track` is that
part of it, and `Open` says which texts lead to which brackets and quotes; so where nothing is open
the text so far is `Closed`. Around expressions the scanner needs no memory but its depth, and one
induction in each direction follows the phrases.
-/

namespace SyntaxTriage.FString

/-! ### Brackets and quotes -/

/-- The brackets to close and the open quote behind one more character of an expression. -/
def track : List Char × Option Char → Char → Option (List Char × Option Char)
  | (closers, some q), c => some (closers, if c = q then none else some q)
  | (closers, none), c =>
    if c = '\'' ∨ c = '"' then some (closers, some c)
    else match closer? c with
      | some closer => some (closer :: closers, none)
      | none =>
        if isCloser c then
          match closers with
          | closer :: closers => if c = closer then some (closers, none) else none
          | [] => none
        else some (closers, none)

theorem readExpression_eq (depth : Nat) (closers : List Char) (quote : Option Char)
    (seen : List Char) (c : Char) :
    readExpression depth closers quote seen c =
      match track (closers, quote) c with
      | some (closers, quote) => .ok (.expression depth closers quote (c :: seen))
      | none => .error .mismatchedDelimiter := by
  cases quote with
  | some q => rfl
  | none =>
      simp only [readExpression, track]
      by_cases hq : c = '\'' ∨ c = '"'
      · simp [hq]
      · cases hopener : closer? c with
        | some closer => simp [hq]
        | none =>
            by_cases hcloser : isCloser c
            · cases closers with
              | nil => simp [hq, hcloser]
              | cons closer closers =>
                  by_cases hc : c = closer
                  · simp only [if_neg hq, if_pos hcloser, if_pos hc]
                  · simp only [if_neg hq, if_pos hcloser, if_neg hc]
            · simp [hq, hcloser]

/-- Texts in which the given brackets are to be closed, the innermost first, and perhaps a quote is
open. -/
inductive Open : List Char → Option Char → List Char → Prop
  | closed {text : List Char} (h : Closed text) : Open [] none text
  | bracket {closers before inner : List Char} {c closer : Char} (h : Open closers none before)
      (opener : closer? c = some closer) (inside : Closed inner) :
      Open (closer :: closers) none (before ++ c :: inner)
  | quote {closers before inner : List Char} {q : Char} (h : Open closers none before)
      (quote : IsQuote q) (inside : q ∉ inner) : Open closers (some q) (before ++ q :: inner)

theorem closer?_of_quote {q : Char} (hq : IsQuote q) : closer? q = none ∧ isCloser q = false := by
  rcases hq with rfl | rfl <;> decide

theorem not_quote_of_opener {c closer : Char} (h : closer? c = some closer) : ¬IsQuote c := by
  intro hq
  rw [(closer?_of_quote hq).1] at h
  contradiction

theorem isCloser_of_closer? {c closer : Char} (h : closer? c = some closer) :
    isCloser closer = true := by
  unfold closer? at h
  split at h <;> simp only [Option.some.injEq, reduceCtorEq] at h <;> subst h <;> rfl

theorem closer?_of_isCloser {c : Char} (h : isCloser c = true) : closer? c = none ∧ ¬IsQuote c := by
  unfold isCloser at h
  simp only [Bool.or_eq_true, decide_eq_true_eq, or_assoc] at h
  rcases h with rfl | rfl | rfl <;> simp [closer?, IsQuote]

theorem track_quote {q : Char} (hq : IsQuote q) (closers : List Char) :
    track (closers, none) q = some (closers, some q) := by
  rcases hq with rfl | rfl <;> rfl

theorem track_opener {c closer : Char} (h : closer? c = some closer) (closers : List Char) :
    track (closers, none) c = some (closer :: closers, none) := by
  have hq := not_quote_of_opener h
  unfold IsQuote at hq
  simp [track, hq, h]

theorem track_closer {c : Char} (h : isCloser c = true) (closers : List Char) :
    track (c :: closers, none) c = some (closers, none) := by
  obtain ⟨hopener, hq⟩ := closer?_of_isCloser h
  unfold IsQuote at hq
  simp [track, hq, hopener, h]

/-- A closer closes the innermost bracket, and only that. -/
theorem exists_of_track_isCloser {closers : List Char} {s : List Char × Option Char} {c : Char}
    (hc : isCloser c = true) (h : track (closers, none) c = some s) :
    ∃ rest, closers = c :: rest ∧ s = (rest, none) := by
  obtain ⟨hopener, hq⟩ := closer?_of_isCloser hc
  unfold IsQuote at hq
  simp only [track, if_neg hq, hopener, if_pos hc] at h
  cases closers with
  | nil => contradiction
  | cons closer closers =>
      simp only at h
      split at h
      · rename_i heq
        cases h
        exact ⟨closers, by rw [heq], rfl⟩
      · contradiction

theorem track_plain {c : Char} (hq : ¬IsQuote c) (hopener : closer? c = none)
    (hcloser : isCloser c = false) (closers : List Char) :
    track (closers, none) c = some (closers, none) := by
  unfold IsQuote at hq
  simp [track, hq, hopener, hcloser]

def trackAll (s : List Char × Option Char) (text : List Char) :
    Option (List Char × Option Char) := text.foldlM track s

@[simp] theorem trackAll_nil (s : List Char × Option Char) : trackAll s [] = some s := rfl

@[simp] theorem trackAll_cons (s : List Char × Option Char) (c : Char) (text : List Char) :
    trackAll s (c :: text) = (track s c).bind (trackAll · text) := rfl

@[simp] theorem trackAll_append (s : List Char × Option Char) (a b : List Char) :
    trackAll s (a ++ b) = (trackAll s a).bind (trackAll · b) := by
  simp [trackAll, List.foldlM_append]

theorem trackAll_inside {q : Char} {text : List Char} (h : q ∉ text) (closers : List Char) :
    trackAll (closers, some q) text = some (closers, some q) := by
  induction text with
  | nil => rfl
  | cons c text ih =>
      rw [List.mem_cons, not_or] at h
      simp [track, Ne.symm h.1, ih h.2]

theorem Closed.trackAll {text : List Char} (h : Closed text) (closers : List Char) :
    trackAll (closers, none) text = some (closers, none) := by
  induction h generalizing closers with
  | nil => rfl
  | plain quote opener closer _ ih => simp [track_plain quote opener closer, ih]
  | @quoted q inner text quote inside _ ih =>
      have hend : track (closers, some q) q = some (closers, none) := by simp [track]
      simp only [List.cons_append, trackAll_cons, track_quote quote, Option.bind_some,
        trackAll_append, trackAll_inside inside, hend, ih]
  | bracketed opener _ _ ihInside ihBehind =>
      simp [track_opener opener, ihInside, track_closer (isCloser_of_closer? opener), ihBehind]

theorem Closed.append {a b : List Char} (ha : Closed a) (hb : Closed b) : Closed (a ++ b) := by
  induction ha with
  | nil => exact hb
  | plain quote opener closer _ ih => exact .plain quote opener closer ih
  | @quoted q inner text quote inside _ ih =>
      rw [List.append_assoc, List.cons_append]
      exact .quoted quote inside ih
  | @bracketed c closer inner text opener inside _ _ ih =>
      rw [List.append_assoc, List.cons_append]
      exact .bracketed opener inside ih

theorem Open.append_closed {closers text behind : List Char} (h : Open closers none text)
    (hbehind : Closed behind) : Open closers none (text ++ behind) := by
  cases h with
  | closed h => exact .closed (h.append hbehind)
  | bracket h opener inside =>
      rw [List.append_assoc, List.cons_append]
      exact .bracket h opener (inside.append hbehind)

theorem Open.step_outside {closers closers' text : List Char} {quote' : Option Char} {c : Char}
    (h : Open closers none text) (hc : track (closers, none) c = some (closers', quote')) :
    Open closers' quote' (text ++ [c]) := by
  by_cases hq : IsQuote c
  · rw [track_quote hq, Option.some.injEq, Prod.mk.injEq] at hc
    obtain ⟨rfl, rfl⟩ := hc
    exact .quote h hq (by simp)
  cases hopener : closer? c with
  | some closer =>
      rw [track_opener hopener, Option.some.injEq, Prod.mk.injEq] at hc
      obtain ⟨rfl, rfl⟩ := hc
      exact .bracket h hopener .nil
  | none =>
      cases hcloser : isCloser c with
      | false =>
          rw [track_plain hq hopener hcloser, Option.some.injEq, Prod.mk.injEq] at hc
          obtain ⟨rfl, rfl⟩ := hc
          exact h.append_closed (.plain hq hopener hcloser .nil)
      | true =>
          obtain ⟨rest, rfl, hs⟩ := exists_of_track_isCloser hcloser hc
          cases hs
          cases h with
          | bracket h opener inside =>
              rw [List.append_assoc, List.cons_append]
              exact h.append_closed (.bracketed opener inside .nil)

theorem Open.step {closers closers' text : List Char} {quote quote' : Option Char} {c : Char}
    (h : Open closers quote text) (hc : track (closers, quote) c = some (closers', quote')) :
    Open closers' quote' (text ++ [c]) := by
  cases quote with
  | none => exact h.step_outside hc
  | some q =>
      cases h with
      | @quote _ before inner _ h hq inside =>
          simp only [track, Option.some.injEq, Prod.mk.injEq] at hc
          obtain ⟨rfl, rfl⟩ := hc
          rw [List.append_assoc, List.cons_append]
          split
          · next hcq =>
              subst hcq
              exact h.append_closed (.quoted hq inside .nil)
          · next hcq => exact .quote h hq (by simp [inside, Ne.symm hcq])

theorem Open.trackAll {closers closers' text behind : List Char} {quote quote' : Option Char}
    (h : Open closers quote text)
    (hbehind : trackAll (closers, quote) behind = some (closers', quote')) :
    Open closers' quote' (text ++ behind) := by
  induction behind generalizing closers quote text with
  | nil =>
      rw [trackAll_nil, Option.some.injEq, Prod.mk.injEq] at hbehind
      obtain ⟨rfl, rfl⟩ := hbehind
      rwa [List.append_nil]
  | cons c behind ih =>
      rw [trackAll_cons, Option.bind_eq_some_iff] at hbehind
      obtain ⟨⟨closers₁, quote₁⟩, hc, hrest⟩ := hbehind
      have hall := ih (h.step hc) hrest
      rwa [List.append_assoc, List.singleton_append] at hall

/-- Nothing is open behind a text just if the text is closed. -/
theorem trackAll_eq_nil_iff {text : List Char} :
    trackAll ([], none) text = some ([], none) ↔ Closed text := by
  refine ⟨fun h => ?_, fun h => h.trackAll []⟩
  have hopen := (Open.closed .nil).trackAll h
  rw [List.nil_append] at hopen
  cases hopen with
  | closed h => exact h

/-! ### One expression -/

theorem endsExpression_iff {c : Char} {rest : List Char} :
    endsExpression c rest = true ↔ Ends c rest := by
  cases rest <;> simp [endsExpression, Ends, or_assoc]

theorem dropWhile_echo {source expression blanks : List Char}
    (hsource : source = expression ++ '=' :: blanks) (hblanks : ∀ c ∈ blanks, Text.isBlank c) :
    source.reverse.dropWhile Text.isBlank = '=' :: expression.reverse := by
  rw [hsource, List.reverse_append, List.reverse_cons, List.append_assoc,
    List.dropWhile_append_of_pos (by simpa using hblanks)]
  rfl

theorem echoes_iff {source expression : List Char} :
    Echoes source expression ↔
      source.reverse.dropWhile Text.isBlank = '=' :: expression.reverse ∧
        ∀ c ∈ expression.getLast?, c ∉ ['=', '!', '<', '>'] := by
  constructor
  · rintro ⟨blanks, hsource, hblanks, hlast⟩
    exact ⟨dropWhile_echo hsource hblanks, hlast⟩
  · rintro ⟨hdrop, hlast⟩
    refine ⟨(source.reverse.takeWhile Text.isBlank).reverse, ?_, ?_, hlast⟩
    · have h := List.takeWhile_append_dropWhile (p := Text.isBlank) (l := source.reverse)
      rw [hdrop] at h
      simpa using (congrArg List.reverse h).symm
    · intro c hc
      exact List.mem_takeWhile_imp (List.mem_reverse.mp hc)

/-- What the scanner makes of the text of an expression is what the text stands for. -/
theorem dropEcho_eq_iff {source expression : List Char} :
    dropEcho source = expression ↔
      Echoes source expression ∨ expression = source ∧ ∀ e, ¬Echoes source e := by
  have hunique : ∀ e, Echoes source e → dropEcho source = e := by
    intro e he
    obtain ⟨hdrop, hlast⟩ := echoes_iff.mp he
    have htrimmed : Text.trimEnd source = e ++ ['='] := by simp [Text.trimEnd, hdrop]
    unfold dropEcho
    dsimp only
    rw [htrimmed, List.reverse_append]
    cases hrev : e.reverse with
    | nil =>
        rw [List.reverse_eq_nil_iff.mp hrev]
        rfl
    | cons c rest =>
        have hc := hlast c (by simp [List.getLast?_eq_head?_reverse, hrev])
        simp [hc]
  have hnone : (∀ e, ¬Echoes source e) → dropEcho source = source := by
    intro h
    unfold dropEcho
    dsimp only
    split
    · next c rest hrev =>
        rw [Text.trimEnd, List.reverse_reverse] at hrev
        split
        · rfl
        · next hc =>
            refine absurd ?_ (h (rest.reverse ++ [c]))
            exact echoes_iff.mpr ⟨by simp [hrev], by simpa using hc⟩
    · next hrev =>
        rw [Text.trimEnd, List.reverse_reverse] at hrev
        exact absurd (echoes_iff.mpr ⟨by simp [hrev], by simp⟩) (h [])
    · rfl
  constructor
  · rintro rfl
    by_cases h : ∃ e, Echoes source e
    · obtain ⟨e, he⟩ := h
      rw [hunique e he]
      exact .inl he
    · rw [not_exists] at h
      exact .inr ⟨hnone h, h⟩
  · rintro (h | ⟨rfl, h⟩)
    · exact hunique _ h
    · exact hnone h

theorem expression_eq_ok_iff {source e : List Char} :
    expression source = .ok e ↔ Denotes source e := by
  unfold expression
  constructor
  · intro h
    dsimp only at h
    split at h
    · contradiction
    · next hall =>
        have he := Except.ok.inj h
        subst he
        refine ⟨dropEcho_eq_iff.mp rfl, ?_⟩
        simpa using hall
  · rintro ⟨hecho, c, hc, hblank⟩
    have hall : ¬e.all Text.isBlank = true := fun h => hblank (List.all_eq_true.mp h c hc)
    rw [dropEcho_eq_iff.mpr hecho]
    simp [hall]

/-! ### One character -/

section

variable (depth : Nat) (c : Char) (rest : List Char)

theorem scanFrom_expression (closers : List Char) (quote : Option Char) (seen : List Char) :
    scanFrom (.expression depth closers quote seen) (c :: rest) =
      if quote.isNone && closers.isEmpty && endsExpression c rest then
        (expression seen.reverse).bind fun e =>
          (scanFrom (.afterExpression depth c) rest).bind fun found => .ok (e :: found)
      else (readExpression depth closers quote seen c).bind fun mode => scanFrom mode rest := rfl

theorem scanFrom_conversion :
    scanFrom (.conversion depth) (c :: rest) =
      if isConversion c then scanFrom (.afterConversion depth) rest
      else .error .invalidConversionFlag := rfl

theorem scanFrom_afterConversion :
    scanFrom (.afterConversion depth) (c :: rest) =
      if c = ':' then scanFrom (.format (depth + 1)) rest
      else if c = '\x7d' then scanFrom (.afterField depth) rest
      else .error .expectedBrace := rfl

theorem scanFrom_format :
    scanFrom (.format depth) (c :: rest) =
      if c = '\x7b' then
        if maxDepth ≤ depth then .error .nestedTooDeeply
        else scanFrom (.expression depth [] none []) rest
      else if c = '\x7d' then scanFrom (.afterField (depth - 1)) rest
      else scanFrom (.format depth) rest := rfl

end

theorem scanFrom_text_field {inner : List Char} (h : inner.head? ≠ some '\x7b') :
    scanFrom .text ('\x7b' :: inner) = scanFrom (.expression 0 [] none []) inner := by
  cases inner with
  | nil => rfl
  | cons c inner =>
      have hc : c ≠ '\x7b' := by simpa using h
      rw [scanFrom]
      simpa using hc

theorem scanFrom_text_plain {c : Char} {text : List Char} (hopener : c ≠ '\x7b')
    (hcloser : c ≠ '\x7d') : scanFrom .text (c :: text) = scanFrom .text text := by
  rw [scanFrom] <;> simp [hopener, hcloser]

theorem scanFrom_text_unopened {c : Char} {text : List Char} (hc : c ≠ '\x7d') :
    scanFrom .text ('\x7d' :: c :: text) = .error .unopenedBrace := by
  rw [scanFrom]
  simpa using hc

/-! ### An expression to its end -/

/-- A character that does not end the expression is tracked. -/
theorem scanFrom_expression_inside {depth : Nat} {closers seen rest : List Char}
    {quote : Option Char} {c : Char} (hstay : quote = none → closers = [] → ¬Ends c rest) :
    scanFrom (.expression depth closers quote seen) (c :: rest) =
      match track (closers, quote) c with
      | some (closers, quote) => scanFrom (.expression depth closers quote (c :: seen)) rest
      | none => .error .mismatchedDelimiter := by
  have hends : (quote.isNone && closers.isEmpty && endsExpression c rest) = false := by
    rw [Bool.eq_false_iff]
    intro h
    rw [Bool.and_eq_true, Bool.and_eq_true, Option.isNone_iff_eq_none, List.isEmpty_iff,
      endsExpression_iff] at h
    exact hstay h.1.1 h.1.2 h.2
  rw [scanFrom_expression, hends, readExpression_eq]
  cases track (closers, quote) c <;> rfl

theorem scanFrom_expression_cons {depth : Nat} {closers closers' seen rest : List Char}
    {quote quote' : Option Char} {c : Char} (hc : track (closers, quote) c = some (closers', quote'))
    (hstay : quote = none → closers = [] → ¬Ends c rest) :
    scanFrom (.expression depth closers quote seen) (c :: rest) =
      scanFrom (.expression depth closers' quote' (c :: seen)) rest := by
  rw [scanFrom_expression_inside hstay, hc]

/-- Reading an expression on, as long as nothing ends it. -/
theorem scanFrom_expression_append {depth : Nat} {closers closers' seen text behind : List Char}
    {quote quote' : Option Char}
    (htrack : trackAll (closers, quote) text = some (closers', quote'))
    (hgoes : ∀ before c after, text = before ++ c :: after →
      trackAll (closers, quote) before = some ([], none) → ¬Ends c (after ++ behind)) :
    scanFrom (.expression depth closers quote seen) (text ++ behind) =
      scanFrom (.expression depth closers' quote' (text.reverse ++ seen)) behind := by
  induction text generalizing closers quote seen with
  | nil =>
      rw [trackAll_nil, Option.some.injEq, Prod.mk.injEq] at htrack
      obtain ⟨rfl, rfl⟩ := htrack
      rfl
  | cons c text ih =>
      rw [trackAll_cons, Option.bind_eq_some_iff] at htrack
      obtain ⟨⟨closers₁, quote₁⟩, hc, hrest⟩ := htrack
      rw [List.cons_append, scanFrom_expression_cons hc, ih hrest, List.reverse_cons,
        List.append_assoc, List.singleton_append]
      · intro before d after htext hbefore
        apply hgoes (c :: before) d after (by rw [htext, List.cons_append])
        rw [trackAll_cons, hc, Option.bind_some, hbefore]
      · rintro rfl rfl
        exact hgoes [] c text rfl rfl

theorem scanFrom_expression_end {depth : Nat} {seen rest e : List Char} {c : Char}
    (hends : Ends c rest) (he : expression seen.reverse = .ok e) :
    scanFrom (.expression depth [] none seen) (c :: rest) =
      (scanFrom (.afterExpression depth c) rest).map (e :: ·) := by
  have hc := endsExpression_iff.mpr hends
  rw [scanFrom_expression, hc, he]
  cases scanFrom (.afterExpression depth c) rest <;> rfl

/-- What a scan has done when it gets behind an expression. -/
theorem scanFrom_expression_eq_ok {depth : Nat} {closers seen text : List Char}
    {quote : Option Char} {found : List (List Char)}
    (h : scanFrom (.expression depth closers quote seen) text = .ok found) :
    ∃ source c rest e others, text = source ++ c :: rest ∧
      trackAll (closers, quote) source = some ([], none) ∧
      (∀ before d after, source = before ++ d :: after →
        trackAll (closers, quote) before = some ([], none) → ¬Ends d (after ++ c :: rest)) ∧
      Ends c rest ∧ expression (seen.reverse ++ source) = .ok e ∧ found = e :: others ∧
      scanFrom (.afterExpression depth c) rest = .ok others := by
  induction text generalizing closers quote seen with
  | nil => contradiction
  | cons c text ih =>
      rw [scanFrom_expression] at h
      split at h
      · next hends =>
          rw [Bool.and_eq_true, Bool.and_eq_true, Option.isNone_iff_eq_none,
            List.isEmpty_iff, endsExpression_iff] at hends
          obtain ⟨⟨rfl, rfl⟩, hends⟩ := hends
          cases he : expression seen.reverse with
          | error e => rw [he] at h; contradiction
          | ok e =>
              cases hrest : scanFrom (.afterExpression depth c) text with
              | error e => rw [he, hrest] at h; contradiction
              | ok others =>
                  rw [he, hrest] at h
                  exact ⟨[], c, text, e, others, rfl, rfl, by simp, hends, by simpa using he,
                    (Except.ok.inj h).symm, hrest⟩
      · next hstay =>
          rw [readExpression_eq] at h
          cases hc : track (closers, quote) c with
          | none => rw [hc] at h; contradiction
          | some s =>
              obtain ⟨closers₁, quote₁⟩ := s
              rw [hc] at h
              obtain ⟨source, d, rest, e, others, rfl, hsource, hgoes, hends, he, hfound, hrest⟩ :=
                ih h
              refine ⟨c :: source, d, rest, e, others, rfl, by simpa [hc] using hsource, ?_, hends,
                by simpa using he, hfound, hrest⟩
              intro before b after hbefore htrack
              cases before with
              | nil =>
                  simp only [List.nil_append, List.cons.injEq] at hbefore
                  obtain ⟨rfl, rfl⟩ := hbefore
                  rw [trackAll_nil, Option.some.injEq, Prod.mk.injEq] at htrack
                  obtain ⟨rfl, rfl⟩ := htrack
                  simpa [endsExpression_iff] using hstay
              | cons a before =>
                  simp only [List.cons_append, List.cons.injEq] at hbefore
                  obtain ⟨rfl, rfl⟩ := hbefore
                  rw [trackAll_cons, hc, Option.bind_some] at htrack
                  exact hgoes before b after rfl htrack

/-! ### Around expressions -/

theorem scanFrom_afterExpression {depth : Nat} {c : Char} {text : List Char}
    (h : c = ':' ∨ c = '\x7d') :
    scanFrom (.afterExpression depth c) text = scanFrom (.afterConversion depth) (c :: text) := by
  rcases h with rfl | rfl
  · rw [scanFrom_afterConversion, if_pos rfl]
    rfl
  · rw [scanFrom_afterConversion, if_neg (by decide), if_pos rfl]
    rfl

theorem ends_append {c : Char} {behind : List Char} (h : behind ≠ []) (rest : List Char) :
    Ends c (behind ++ rest) ↔ Ends c behind := by
  cases behind with
  | nil => exact absurd rfl h
  | cons d behind => simp [Ends]

theorem mem_conversions {conversion : List Char} :
    conversion ∈ [[], ['!', 's'], ['!', 'r'], ['!', 'a']] ↔
      conversion = [] ∨ ∃ c, isConversion c = true ∧ conversion = ['!', c] := by
  simp only [List.mem_cons, List.not_mem_nil, or_false, isConversion, Bool.or_eq_true,
    decide_eq_true_eq]
  constructor
  · rintro (rfl | rfl | rfl | rfl) <;> simp
  · rintro (rfl | ⟨c, (rfl | rfl) | rfl, rfl⟩) <;> simp

theorem Derives.suffix_shape {depth : Nat} {suffix : List Char} {found : List (List Char)}
    (h : Derives (.suffix depth) suffix found) :
    ∃ c rest, suffix ++ ['\x7d'] = c :: rest ∧ (c = ':' ∨ c = '\x7d') := by
  cases h with
  | noFormat => exact ⟨_, _, rfl, .inr rfl⟩
  | withFormat => exact ⟨_, _, rfl, .inl rfl⟩

/-- The scanner takes the expression of a field and goes on behind it. -/
theorem scanFrom_reachesEnd {depth : Nat} {source expression tail : List Char} {c : Char}
    (reach : ReachesEnd source (c :: tail)) (htail : c = '!' → tail ≠ [])
    (denotes : Denotes source expression) (rest : List Char) :
    scanFrom (.expression depth [] none []) (source ++ c :: (tail ++ rest)) =
      (scanFrom (.afterExpression depth c) (tail ++ rest)).map (expression :: ·) := by
  have hgoes : ∀ before d after, source = before ++ d :: after →
      trackAll ([], none) before = some ([], none) → ¬Ends d (after ++ c :: (tail ++ rest)) := by
    intro before d after hsource hbefore
    have hd := reach.first before d after hsource (trackAll_eq_nil_iff.mp hbefore)
    rwa [← ends_append (by simp) rest, List.append_assoc] at hd
  have hends : Ends c (tail ++ rest) := by
    obtain ⟨_, _, heq, hends⟩ := reach.ends
    obtain ⟨rfl, rfl⟩ := List.cons.inj heq
    by_cases htail' : tail = []
    · rcases hends with hc | hc | ⟨hc, -⟩
      · exact .inl hc
      · exact .inr (.inl hc)
      · exact absurd htail' (htail hc)
    · rwa [ends_append htail']
  have hdenotes := expression_eq_ok_iff.mpr denotes
  rw [scanFrom_expression_append (reach.closed.trackAll []) hgoes]
  exact scanFrom_expression_end hends (by simpa using hdenotes)

/-- What the scanner does with a phrase: it takes the phrase, with what ends it, and goes on. -/
def Scans : Phrase → List Char → List (List Char) → Prop
  | .body, text, found => scanFrom .text text = .ok found
  | .field depth, text, found => ∃ inner, text = '\x7b' :: inner ∧ inner ≠ [] ∧
      ∀ rest, scanFrom (.expression depth [] none []) (inner ++ rest) =
        (scanFrom (.afterField depth) rest).map (found ++ ·)
  | .suffix depth, text, found => ∀ rest,
      scanFrom (.afterConversion depth) (text ++ '\x7d' :: rest) =
        (scanFrom (.afterField depth) rest).map (found ++ ·)
  | .format depth, text, found => 0 < depth → ∀ rest,
      scanFrom (.format depth) (text ++ '\x7d' :: rest) =
        (scanFrom (.afterField (depth - 1)) rest).map (found ++ ·)

theorem map_nil_append {ε : Type} (r : Except ε (List (List Char))) :
    r.map ([] ++ ·) = r := by
  cases r <;> rfl

theorem map_append_append {ε : Type} (here found : List (List Char))
    (r : Except ε (List (List Char))) :
    (r.map (found ++ ·)).map (here ++ ·) = r.map (here ++ found ++ ·) := by
  cases r <;> simp [Except.map]

/-- A field is taken: its expression, then a conversion if there is one, then what stands behind. -/
theorem scans_field {depth : Nat} {source expression conversion suffix : List Char}
    {found : List (List Char)}
    (reach : ReachesEnd source (conversion ++ suffix ++ ['\x7d']))
    (denotes : Denotes source expression)
    (letter : conversion ∈ [[], ['!', 's'], ['!', 'r'], ['!', 'a']])
    (format : Derives (.suffix depth) suffix found) (h : Scans (.suffix depth) suffix found) :
    Scans (.field depth) ('\x7b' :: source ++ conversion ++ suffix ++ ['\x7d'])
      (expression :: found) := by
  refine ⟨source ++ conversion ++ suffix ++ ['\x7d'], rfl, by simp, fun rest => ?_⟩
  have htake := h rest
  simp only [List.append_assoc, List.singleton_append] at reach ⊢
  rcases mem_conversions.mp letter with rfl | ⟨l, hl, rfl⟩
  · obtain ⟨c, tail, hshape, hc⟩ := format.suffix_shape
    have hbehind : suffix ++ '\x7d' :: rest = c :: (tail ++ rest) := by
      rw [← List.cons_append, ← hshape, List.append_assoc, List.singleton_append]
    have hmark : c = '!' → tail ≠ [] := by
      rintro rfl
      simp at hc
    rw [List.nil_append, hshape] at reach
    rw [List.nil_append, hbehind, scanFrom_reachesEnd reach hmark denotes,
      scanFrom_afterExpression hc, ← hbehind, htake]
    exact map_append_append [expression] found _
  · have hscan := @scanFrom_reachesEnd depth _ _ (l :: (suffix ++ ['\x7d'])) '!' reach (by simp)
      denotes rest
    have hletter : scanFrom (.afterExpression depth '!') (l :: (suffix ++ '\x7d' :: rest)) =
        scanFrom (.afterConversion depth) (suffix ++ '\x7d' :: rest) := by
      show scanFrom (.conversion depth) _ = _
      rw [scanFrom_conversion, if_pos hl]
    simp only [List.nil_append, List.append_assoc, List.cons_append] at hscan ⊢
    rw [hscan, hletter, htake]
    exact map_append_append [expression] found _

theorem Derives.scans {phrase : Phrase} {text : List Char} {found : List (List Char)}
    (h : Derives phrase text found) : Scans phrase text found := by
  induction h with
  | bodyEnd => rfl
  | bodyPlain opener closer _ ih => exact (scanFrom_text_plain opener closer).trans ih
  | bodyOpener _ ih => exact ih
  | bodyCloser _ ih => exact ih
  | @bodyField inner text here found _ single _ ihField ihBehind =>
      obtain ⟨_, hinner, hne, hfield⟩ := ihField
      rw [List.cons.injEq] at hinner
      obtain ⟨-, rfl⟩ := hinner
      have hhead : (inner ++ text).head? ≠ some '\x7b' := by
        cases inner with
        | nil => exact absurd rfl hne
        | cons c inner => exact single
      change scanFrom .text text = .ok found at ihBehind
      show scanFrom .text ('\x7b' :: (inner ++ text)) = _
      rw [scanFrom_text_field hhead, hfield, Mode.afterField, ihBehind]
      rfl
  | field _ reach denotes letter format ih => exact scans_field reach denotes letter format ih
  | noFormat =>
      intro rest
      rw [map_nil_append]
      rfl
  | withFormat _ ih =>
      intro rest
      exact ih (Nat.succ_pos _) rest
  | formatEnd =>
      intro _ rest
      rw [map_nil_append, List.nil_append, scanFrom_format, if_neg (by decide), if_pos rfl]
  | formatPlain opener closer _ ih =>
      intro hdepth rest
      rw [List.cons_append, scanFrom_format, if_neg opener, if_neg closer]
      exact ih hdepth rest
  | @formatField depth _ text here found field _ ihField ihBehind =>
      intro hdepth rest
      obtain ⟨inner, rfl, hne, hfield⟩ := ihField
      have hshallow : ¬maxDepth ≤ depth := by
        cases field with
        | field shallow => exact Nat.not_le.mpr shallow
      have hafter : Mode.afterField depth = .format depth := by
        cases depth with
        | zero => contradiction
        | succ depth => rfl
      rw [List.append_assoc, List.cons_append, scanFrom_format, if_pos rfl, if_neg hshallow, hfield,
        hafter, ihBehind hdepth, map_append_append]

/-! ### What a successful scan has read -/

theorem exists_conversion_of_scanFrom {depth : Nat} {text : List Char} {found : List (List Char)}
    (h : scanFrom (.conversion depth) text = .ok found) :
    ∃ c rest, text = c :: rest ∧ isConversion c = true ∧
      scanFrom (.afterConversion depth) rest = .ok found := by
  cases text with
  | nil => contradiction
  | cons c rest =>
      rw [scanFrom_conversion] at h
      split at h
      · next hc => exact ⟨c, rest, rfl, hc, h⟩
      · contradiction

def ReadsFormat (text : List Char) : Prop :=
  ∀ depth found, scanFrom (.format (depth + 1)) text = .ok found →
    ∃ format rest here others, text = format ++ '\x7d' :: rest ∧
      Derives (.format (depth + 1)) format here ∧ found = here ++ others ∧
      scanFrom (.afterField depth) rest = .ok others

theorem exists_suffix_of_scanFrom {depth : Nat} {text : List Char} {found : List (List Char)}
    (hformat : ∀ t, t.length < text.length → ReadsFormat t)
    (h : scanFrom (.afterConversion depth) text = .ok found) :
    ∃ suffix rest here others, text = suffix ++ '\x7d' :: rest ∧
      Derives (.suffix depth) suffix here ∧ found = here ++ others ∧
      scanFrom (.afterField depth) rest = .ok others := by
  cases text with
  | nil => contradiction
  | cons c text =>
      rw [scanFrom_afterConversion] at h
      split at h
      · next hc =>
          subst hc
          obtain ⟨format, rest, here, others, rfl, hderives, hfound, hrest⟩ :=
            hformat text (by simp) depth found h
          exact ⟨':' :: format, rest, here, others, rfl, .withFormat hderives, hfound, hrest⟩
      · split at h
        · next hc =>
            subst hc
            exact ⟨[], text, [], found, rfl, .noFormat, rfl, h⟩
        · contradiction

theorem Derives.field_of_ends {depth : Nat} {source expression conversion suffix : List Char}
    {found : List (List Char)} {c : Char} {tail rest : List Char} (shallow : depth < 2)
    (hsource : trackAll ([], none) source = some ([], none))
    (hgoes : ∀ before d after, source = before ++ d :: after →
      trackAll ([], none) before = some ([], none) → ¬Ends d (after ++ c :: tail))
    (hends : Ends c tail) (he : FString.expression source = .ok expression)
    (hbehind : c :: tail = conversion ++ suffix ++ '\x7d' :: rest)
    (letter : conversion ∈ [[], ['!', 's'], ['!', 'r'], ['!', 'a']])
    (format : Derives (.suffix depth) suffix found) :
    Derives (.field depth) ('\x7b' :: source ++ conversion ++ suffix ++ ['\x7d'])
      (expression :: found) := by
  have hsplit : c :: tail = (conversion ++ suffix ++ ['\x7d']) ++ rest := by simpa using hbehind
  refine .field shallow ⟨trackAll_eq_nil_iff.mp hsource, ?_, ?_⟩ (expression_eq_ok_iff.mp he) letter
    format
  · obtain ⟨d, inner, hinner⟩ := List.exists_cons_of_ne_nil
      (show conversion ++ suffix ++ ['\x7d'] ≠ [] by simp)
    rw [hinner, List.cons_append, List.cons.injEq] at hsplit
    obtain ⟨rfl, rfl⟩ := hsplit
    refine ⟨c, inner, hinner, ?_⟩
    by_cases hne : inner = []
    · have hlast := congrArg List.getLast? hinner
      rw [hne, List.getLast?_append, List.getLast?_singleton] at hlast
      exact .inr (.inl (Option.some.inj hlast).symm)
    · rwa [ends_append hne] at hends
  · intro before d after hbefore hclosed hd
    apply hgoes before d after hbefore (trackAll_eq_nil_iff.mpr hclosed)
    rw [hsplit, ← List.append_assoc]
    exact (ends_append (by simp) rest).mpr hd

/-- A scan that gets through a field has read one of the grammar. -/
theorem exists_field_of_scanFrom {depth : Nat} {text : List Char} {found : List (List Char)}
    (shallow : depth < 2) (hformat : ∀ t, t.length < text.length → ReadsFormat t)
    (h : scanFrom (.expression depth [] none []) text = .ok found) :
    ∃ inner rest here others, text = inner ++ rest ∧ inner ≠ [] ∧
      Derives (.field depth) ('\x7b' :: inner) here ∧ found = here ++ others ∧
      scanFrom (.afterField depth) rest = .ok others := by
  obtain ⟨source, c, tail, e, found, rfl, hsource, hgoes, hends, he, rfl, hrest⟩ :=
    scanFrom_expression_eq_ok h
  have hshorter (t : List Char) (ht : t.length < (c :: tail).length) : ReadsFormat t :=
    hformat t (by simp only [List.length_append]; omega)
  by_cases hc : c = '!'
  · subst hc
    obtain ⟨l, tail, rfl, hl, hrest⟩ := exists_conversion_of_scanFrom hrest
    obtain ⟨suffix, rest, here, others, rfl, hsuffix, rfl, hbehind⟩ :=
      exists_suffix_of_scanFrom (fun t ht => hshorter t (by simp only [List.length_cons]; omega))
        hrest
    have hfield := Derives.field_of_ends shallow hsource hgoes hends he rfl
      (mem_conversions.mpr (.inr ⟨l, hl, rfl⟩)) hsuffix
    exact ⟨source ++ ['!', l] ++ suffix ++ ['\x7d'], rest, e :: here, others, by simp, by simp,
      hfield, rfl, hbehind⟩
  · have hcolon : c = ':' ∨ c = '\x7d' := by
      rcases hends with h | h | ⟨h, -⟩
      · exact .inl h
      · exact .inr h
      · exact absurd h hc
    rw [scanFrom_afterExpression hcolon] at hrest
    obtain ⟨suffix, rest, here, others, hsplit, hsuffix, rfl, hbehind⟩ :=
      exists_suffix_of_scanFrom hshorter hrest
    have hfield := Derives.field_of_ends shallow hsource hgoes hends he hsplit
      (mem_conversions.mpr (.inl rfl)) hsuffix
    refine ⟨source ++ suffix ++ ['\x7d'], rest, e :: here, others, by simp [hsplit], by simp, ?_,
      rfl, hbehind⟩
    simpa using hfield

theorem readsFormat (text : List Char) : ReadsFormat text := by
  induction hn : text.length using Nat.strong_induction_on generalizing text with
  | _ n ih =>
      have shorter (t : List Char) (ht : t.length < text.length) : ReadsFormat t :=
        ih t.length (hn ▸ ht) t rfl
      intro depth found h
      cases text with
      | nil => contradiction
      | cons c text =>
          rw [scanFrom_format] at h
          split at h
          · next hc =>
              subst hc
              split at h
              · contradiction
              · next hdepth =>
                  obtain ⟨inner, rest, here, others, rfl, -, hfield, rfl, hrest⟩ :=
                    exists_field_of_scanFrom (Nat.not_le.mp hdepth)
                      (fun t ht => shorter t (Nat.lt_succ_of_lt ht)) h
                  obtain ⟨format, behind, there, others, rfl, hderives, rfl, hbehind⟩ :=
                    shorter rest (by grind) depth others hrest
                  exact ⟨'\x7b' :: inner ++ format, behind, here ++ there, others, by simp,
                    .formatField hfield hderives, by simp, hbehind⟩
          · next hopener =>
              split at h
              · next hc =>
                  subst hc
                  exact ⟨[], text, [], found, rfl, .formatEnd, rfl, h⟩
              · next hcloser =>
                  obtain ⟨format, rest, here, others, rfl, hderives, hfound, hrest⟩ :=
                    shorter text (by simp) depth found h
                  exact ⟨c :: format, rest, here, others, rfl,
                    .formatPlain hopener hcloser hderives, hfound, hrest⟩

/-- A scan that gets through a body has read one of the grammar. -/
theorem derives_body_of_scanFrom {text : List Char} {found : List (List Char)}
    (h : scanFrom .text text = .ok found) : Derives .body text found := by
  induction hn : text.length using Nat.strong_induction_on generalizing text found with
  | _ n ih =>
      have shorter {t : List Char} {es : List (List Char)} (ht : t.length < text.length)
          (hscan : scanFrom .text t = .ok es) : Derives .body t es :=
        ih t.length (hn ▸ ht) hscan rfl
      cases text with
      | nil =>
          cases h
          exact .bodyEnd
      | cons c text =>
          by_cases hopener : c = '\x7b'
          · subst hopener
            by_cases hdouble : text.head? = some '\x7b'
            · obtain ⟨rest, rfl⟩ := List.head?_eq_some_iff.mp hdouble
              exact .bodyOpener (shorter (by grind) h)
            · rw [scanFrom_text_field hdouble] at h
              obtain ⟨inner, rest, here, others, rfl, hne, hfield, rfl, hrest⟩ :=
                exists_field_of_scanFrom (by decide) (fun t _ => readsFormat t) h
              have hsingle : inner.head? ≠ some '\x7b' := by
                cases inner with
                | nil => exact absurd rfl hne
                | cons d inner => exact hdouble
              exact .bodyField hfield hsingle (shorter (by grind) hrest)
          · by_cases hcloser : c = '\x7d'
            · subst hcloser
              cases text with
              | nil => contradiction
              | cons d rest =>
                  by_cases hd : d = '\x7d'
                  · subst hd
                    exact .bodyCloser (shorter (by grind) h)
                  · rw [scanFrom_text_unopened hd] at h
                    contradiction
            · rw [scanFrom_text_plain hopener hcloser] at h
              exact .bodyPlain hopener hcloser (shorter (by simp) h)

theorem scanFrom_text_eq_ok_iff {text : List Char} {found : List (List Char)} :
    scanFrom .text text = .ok found ↔ Derives .body text found :=
  ⟨derives_body_of_scanFrom, Derives.scans⟩

/-! ### Where the expressions stand -/

theorem SlicesOf.append {es fs : List (List Char)} {a b : List Char} (ha : SlicesOf es a)
    (hb : SlicesOf fs b) : SlicesOf (es ++ fs) (a ++ b) := by
  induction es generalizing a with
  | nil =>
      cases fs with
      | nil => trivial
      | cons f fs =>
          obtain ⟨before, after, rfl, hfs⟩ := hb
          exact ⟨a ++ before, after, by simp, hfs⟩
  | cons e es ih =>
      obtain ⟨before, after, rfl, hes⟩ := ha
      refine ⟨before, after ++ b, by simp, ?_⟩
      rw [← List.append_assoc]
      exact ih hes

theorem SlicesOf.append_left {es : List (List Char)} {b : List Char} (h : SlicesOf es b)
    (a : List Char) : SlicesOf es (a ++ b) :=
  have hnil : SlicesOf [] a := trivial
  hnil.append h

theorem SlicesOf.append_right {es : List (List Char)} {a : List Char} (h : SlicesOf es a)
    (b : List Char) : SlicesOf es (a ++ b) := by
  have hnil : SlicesOf [] b := trivial
  simpa using h.append hnil

theorem Denotes.exists_append {source expression : List Char} (h : Denotes source expression) :
    ∃ behind, source = expression ++ behind := by
  rcases h.echo with ⟨blanks, hsource, -⟩ | ⟨rfl, -⟩
  · exact ⟨_, hsource⟩
  · exact ⟨[], (List.append_nil _).symm⟩

theorem Derives.slicesOf {phrase : Phrase} {text : List Char} {found : List (List Char)}
    (h : Derives phrase text found) : SlicesOf found text := by
  induction h with
  | bodyEnd | noFormat | formatEnd => trivial
  | bodyPlain _ _ _ ih | formatPlain _ _ _ ih => exact ih.append_left [_]
  | bodyOpener _ ih | bodyCloser _ ih => exact ih.append_left [_, _]
  | withFormat _ ih => exact ih.append_left [_]
  | bodyField _ _ _ ihField ihBehind => exact ihField.append ihBehind
  | formatField _ _ ihField ihBehind => exact ihField.append ihBehind
  | @field depth source expression conversion suffix found _ _ denotes _ _ ih =>
      obtain ⟨behind, rfl⟩ := denotes.exists_append
      refine ⟨[], behind ++ conversion ++ suffix ++ ['\x7d'], by simp, ?_⟩
      have hsuffix := (ih.append_left (expression ++ behind ++ conversion)).append_right ['\x7d']
      simpa using hsuffix

/-- The scanner accepts exactly the bodies that the grammar derives, and finds exactly the
expressions in them: slices of the body, in the order of their opening braces. -/
theorem scan_eq_ok_iff (body : List Char) (location : Location) (found : List (List Char)) :
    scan body location = .ok found ↔ Derives .body body found ∧ SlicesOf found body := by
  rw [← scanFrom_text_eq_ok_iff]
  unfold scan
  constructor
  · intro h
    cases hscan : scanFrom .text body with
    | error reason => rw [hscan] at h; contradiction
    | ok es =>
        rw [hscan] at h
        cases Except.ok.inj h
        exact ⟨rfl, (derives_body_of_scanFrom hscan).slicesOf⟩
  · rintro ⟨h, -⟩
    rw [h]
    rfl

/-- A doubled brace is no field, a field may hold further ones in its format, and an equals sign at
the end of an expression is not part of it. -/
example : scan "\x7b\x7ba\x7bx = !r:>\x7bw\x7d\x7d".toList {} = .ok [['x', ' '], ['w']] := by
  decide +kernel

end SyntaxTriage.FString
