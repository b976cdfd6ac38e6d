import Mathlib.Data.List.Basic
import Mathlib.Data.List.Induction
import SyntaxTriage.Proofs.FString.Scanning

/-!
Bodies that are read on. A body is accepted, and then the scan begins anew behind it, or it fails for
good, whatever follows, or it is unfinished, and some text completes it.

`Outcome` says where a scan stands that more may follow: it has failed, or it is in some mode, perhaps
in front of a last character that cannot be read before it is known what follows. This is carried over
the body from its beginning, one character at a time, and `Standing` is read off it.
-/

namespace SyntaxTriage.FString

/-- Modes in which a scan can stand between two characters. The mark of a conversion is read together
with its letter. -/
def Mode.Between : Mode → Prop
  | .text | .afterConversion _ => True
  | .format depth => 0 < depth
  | .expression _ closers quote _ => (∀ c ∈ closers, isCloser c = true) ∧ ∀ q ∈ quote, IsQuote q
  | .conversion _ => False

/-- Characters at the end of a text that are not read before it is known what follows: a brace that
may be doubled, and a mark that may belong to a comparison. -/
inductive Pending : Mode → List Char → Prop
  | nothing {mode : Mode} : Pending mode []
  | opener : Pending .text ['\x7b']
  | closer : Pending .text ['\x7d']
  | mark {depth : Nat} {seen : List Char} : Pending (.expression depth [] none seen) ['!']

inductive Outcome (mode : Mode) (text : List Char) : Prop
  | reached {found : List (List Char)} {next : Mode} {pending : List Char}
      (scan : ∀ rest, scanFrom mode (text ++ rest) =
        (scanFrom next (pending ++ rest)).map (found ++ ·))
      (between : next.Between) (pends : Pending next pending) (behind : pending <:+ text)
  | refused {reason : FStringReason}
      (scan : ∀ rest, scanFrom mode (text ++ rest) = .error reason)
      (closed : reason ≠ .unclosedBrace)

theorem scanFrom_text_doubled {c : Char} (h : c = '\x7b' ∨ c = '\x7d') (rest : List Char) :
    scanFrom .text (c :: c :: rest) = scanFrom .text rest := by
  rcases h with rfl | rfl <;> rfl

theorem between_afterField (depth : Nat) : (Mode.afterField depth).Between := by
  cases depth with
  | zero => trivial
  | succ depth => exact Nat.succ_pos depth

theorem outcome_of_pending {mode : Mode} {pending : List Char} (between : mode.Between)
    (pends : Pending mode pending) : Outcome mode pending :=
  .reached (fun _ => (map_nil_append _).symm) between pends List.suffix_rfl

/-- A scan that has come to a last part of the text comes to what it comes to there. -/
theorem Outcome.carry {mode next : Mode} {text behind : List Char} (h : Outcome next behind)
    (found : List (List Char))
    (hscan : ∀ rest, scanFrom mode (text ++ rest) =
      (scanFrom next (behind ++ rest)).map (found ++ ·))
    (hbehind : behind <:+ text) : Outcome mode text := by
  cases h with
  | @reached here last pending scan between pends suffix =>
      have hall (rest : List Char) : scanFrom mode (text ++ rest) =
          (scanFrom last (pending ++ rest)).map (found ++ here ++ ·) := by
        rw [hscan, scan, map_append_append]
      exact .reached hall between pends (suffix.trans hbehind)
  | refused scan closed =>
      refine .refused (fun rest => ?_) closed
      rw [hscan, scan]
      rfl

theorem Outcome.goes {mode next : Mode} {text : List Char}
    (hscan : ∀ rest, scanFrom mode (text ++ rest) = scanFrom next rest)
    (between : next.Between) : Outcome mode text :=
  (outcome_of_pending between .nothing).carry []
    (fun rest => by rw [hscan, map_nil_append, List.nil_append]) List.nil_suffix

/-! ### One character -/

section

variable {depth : Nat} {closers closers' seen : List Char} {quote quote' : Option Char} (c : Char)

theorem outcome_format (hdepth : 0 < depth) : Outcome (.format depth) [c] := by
  have hscan (rest : List Char) := scanFrom_format depth c rest
  by_cases hopener : c = '\x7b'
  · simp only [if_pos hopener] at hscan
    by_cases hdeep : maxDepth ≤ depth
    · simp only [if_pos hdeep] at hscan
      exact .refused hscan (by simp)
    · simp only [if_neg hdeep] at hscan
      exact .goes hscan (by simp [Mode.Between])
  · simp only [if_neg hopener] at hscan
    by_cases hcloser : c = '\x7d'
    · simp only [if_pos hcloser] at hscan
      exact .goes hscan (between_afterField (depth - 1))
    · simp only [if_neg hcloser] at hscan
      exact .goes hscan hdepth

theorem outcome_afterConversion : Outcome (.afterConversion depth) [c] := by
  have hscan (rest : List Char) := scanFrom_afterConversion depth c rest
  by_cases hcolon : c = ':'
  · simp only [if_pos hcolon] at hscan
    exact .goes hscan (Nat.succ_pos depth)
  · simp only [if_neg hcolon] at hscan
    by_cases hcloser : c = '\x7d'
    · simp only [if_pos hcloser] at hscan
      exact .goes hscan (between_afterField depth)
    · simp only [if_neg hcloser] at hscan
      exact .refused hscan (by simp)

theorem outcome_conversion : Outcome (.conversion depth) [c] := by
  have hscan (rest : List Char) := scanFrom_conversion depth c rest
  by_cases hletter : isConversion c = true
  · simp only [if_pos hletter] at hscan
    exact .goes hscan trivial
  · simp only [if_neg hletter] at hscan
    exact .refused hscan (by simp)

theorem expression_error {source : List Char} {reason : FStringReason}
    (h : expression source = .error reason) : reason = .emptyExpression := by
  unfold expression at h
  dsimp only at h
  split at h
  · exact (Except.error.inj h).symm
  · contradiction

/-- Where the expression of a field ends, whatever follows, it is judged. -/
theorem outcome_end {behind : List Char} (hends : ∀ rest, Ends c (behind ++ rest))
    (h : Outcome (.afterExpression depth c) behind) :
    Outcome (.expression depth [] none seen) (c :: behind) := by
  cases he : expression seen.reverse with
  | error reason =>
      have hscan (rest : List Char) : scanFrom (.expression depth [] none seen)
          (c :: (behind ++ rest)) = .error reason := by
        rw [scanFrom_expression, endsExpression_iff.mpr (hends rest), he]
        rfl
      exact .refused hscan (by simp [expression_error he])
  | ok e =>
      exact h.carry [e] (fun rest => scanFrom_expression_end (hends rest) he)
        (List.suffix_cons ..)

/-- Brackets to close are closers, and open quotes are quotes. -/
theorem between_track (h : track (closers, quote) c = some (closers', quote'))
    (hbetween : (Mode.expression depth closers quote seen).Between) :
    (Mode.expression depth closers' quote' (c :: seen)).Between := by
  obtain ⟨hclosers, hquote⟩ := hbetween
  cases quote with
  | some q =>
      simp only [track, Option.some.injEq, Prod.mk.injEq] at h
      obtain ⟨rfl, rfl⟩ := h
      refine ⟨hclosers, ?_⟩
      split
      · simp
      · exact hquote
  | none =>
      by_cases hq : IsQuote c
      · rw [track_quote hq, Option.some.injEq, Prod.mk.injEq] at h
        obtain ⟨rfl, rfl⟩ := h
        exact ⟨hclosers, by simpa using hq⟩
      cases hopener : closer? c with
      | some closer =>
          rw [track_opener hopener, Option.some.injEq, Prod.mk.injEq] at h
          obtain ⟨rfl, rfl⟩ := h
          exact ⟨List.forall_mem_cons.mpr ⟨isCloser_of_closer? hopener, hclosers⟩, hquote⟩
      | none =>
          cases hcloser : isCloser c with
          | false =>
              rw [track_plain hq hopener hcloser, Option.some.injEq, Prod.mk.injEq] at h
              obtain ⟨rfl, rfl⟩ := h
              exact ⟨hclosers, hquote⟩
          | true =>
              obtain ⟨rest, rfl, hs⟩ := exists_of_track_isCloser hcloser h
              cases hs
              exact ⟨(List.forall_mem_cons.mp hclosers).2, hquote⟩

/-- A character that does not end the expression, whatever follows, goes on with it. -/
theorem outcome_inside (hbetween : (Mode.expression depth closers quote seen).Between)
    (hstay : quote = none → closers = [] → ∀ rest, ¬Ends c rest) :
    Outcome (.expression depth closers quote seen) [c] := by
  cases htrack : track (closers, quote) c with
  | some s =>
      refine .goes (fun rest => ?_) (between_track c htrack hbetween)
      exact scanFrom_expression_cons htrack fun hquote hclosers => hstay hquote hclosers rest
  | none =>
      have hscan (rest : List Char) : scanFrom (.expression depth closers quote seen)
          (c :: rest) = .error .mismatchedDelimiter := by
        rw [scanFrom_expression_inside fun hquote hclosers => hstay hquote hclosers rest, htrack]
      exact .refused hscan (by simp)

theorem outcome_expression (hbetween : (Mode.expression depth closers quote seen).Between) :
    Outcome (.expression depth closers quote seen) [c] := by
  by_cases houtside : quote = none ∧ closers = []
  · obtain ⟨rfl, rfl⟩ := houtside
    by_cases hc : c = ':' ∨ c = '\x7d'
    · refine outcome_end c (fun rest => ?_) (outcome_of_pending ?_ .nothing)
      · exact hc.imp_right .inl
      · rcases hc with rfl | rfl
        · exact Nat.succ_pos depth
        · exact between_afterField depth
    · by_cases hmark : c = '!'
      · subst hmark
        exact outcome_of_pending hbetween .mark
      · refine outcome_inside c hbetween fun _ _ rest => ?_
        rintro (h | h | ⟨h, -⟩)
        · exact hc (.inl h)
        · exact hc (.inr h)
        · exact hmark h
  · exact outcome_inside c hbetween fun hquote hclosers => absurd ⟨hquote, hclosers⟩ houtside

/-! ### Behind a pending character -/

theorem outcome_opener : Outcome .text ['\x7b', c] := by
  by_cases hdouble : c = '\x7b'
  · subst hdouble
    exact .goes (scanFrom_text_doubled (.inl rfl)) trivial
  · have hfield : (Mode.expression 0 [] none []).Between := by simp [Mode.Between]
    refine (outcome_expression c hfield).carry [] (fun rest => ?_) (List.suffix_cons ..)
    rw [map_nil_append]
    exact scanFrom_text_field (by simpa using hdouble)

theorem outcome_closer : Outcome .text ['\x7d', c] := by
  by_cases hdouble : c = '\x7d'
  · subst hdouble
    exact .goes (scanFrom_text_doubled (.inr rfl)) trivial
  · exact .refused (fun _ => scanFrom_text_unopened hdouble) (by simp)

theorem outcome_mark (hbetween : (Mode.expression depth [] none seen).Between) :
    Outcome (.expression depth [] none seen) ['!', c] := by
  by_cases hequals : c = '='
  · subst hequals
    have hmark : (Mode.expression depth [] none ('!' :: seen)).Between := hbetween
    refine (outcome_expression '=' hmark).carry [] (fun rest => ?_) (List.suffix_cons ..)
    rw [map_nil_append]
    exact scanFrom_expression_cons rfl fun _ _ => by simp [Ends]
  · exact outcome_end '!' (fun rest => .inr (.inr ⟨rfl, by simpa using hequals⟩))
      (outcome_conversion c)

theorem outcome_text : Outcome .text [c] := by
  by_cases hopener : c = '\x7b'
  · subst hopener
    exact outcome_of_pending trivial .opener
  · by_cases hcloser : c = '\x7d'
    · subst hcloser
      exact outcome_of_pending trivial .closer
    · exact .goes (fun _ => scanFrom_text_plain hopener hcloser) trivial

theorem outcome_pending {mode : Mode} {pending : List Char} (between : mode.Between)
    (pends : Pending mode pending) : Outcome mode (pending ++ [c]) := by
  cases pends with
  | nothing =>
      cases mode with
      | text => exact outcome_text c
      | format depth => exact outcome_format c between
      | expression depth closers quote seen => exact outcome_expression c between
      | conversion depth => exact between.elim
      | afterConversion depth => exact outcome_afterConversion c
  | opener => exact outcome_opener c
  | closer => exact outcome_closer c
  | mark => exact outcome_mark c between

end

/-! ### A whole body -/

/-- A body has failed for good, or its scan stands in some mode behind it. -/
theorem outcome (body : List Char) : Outcome .text body := by
  induction body using List.reverseRecOn with
  | nil => exact outcome_of_pending trivial .nothing
  | append_singleton body c ih =>
      cases ih with
      | @reached found next pending scan between pends behind =>
          refine (outcome_pending c between pends).carry found (fun rest => ?_) ?_
          · rw [List.append_assoc, scan, List.append_assoc]
          · obtain ⟨front, rfl⟩ := behind
            rw [List.append_assoc]
            exact List.suffix_append ..
      | refused scan closed =>
          refine .refused (fun rest => ?_) closed
          rw [List.append_assoc, scan]

/-! ### Completing a body -/

/-- A text that ends what is open in a mode: the quote, the brackets of the expression and the
fields. An expression is given a letter, since it may be empty without one. -/
def Mode.completion : Mode → List Char
  | .text => []
  | .format depth => List.replicate depth '\x7d'
  | .expression depth closers quote _ =>
    quote.toList ++ (closers ++ 'x' :: '\x7d' :: List.replicate depth '\x7d')
  | .conversion depth => 's' :: '\x7d' :: List.replicate depth '\x7d'
  | .afterConversion depth => '\x7d' :: List.replicate depth '\x7d'

theorem scanFrom_closingBraces (depth : Nat) :
    scanFrom (.afterField depth) (List.replicate depth '\x7d') = .ok [] := by
  induction depth with
  | zero => rfl
  | succ depth ih => exact ih

section

variable {depth : Nat} {closers seen : List Char} {quote : Option Char}

theorem scanFrom_closingQuote (rest : List Char) :
    scanFrom (.expression depth closers quote seen) (quote.toList ++ rest) =
      scanFrom (.expression depth closers none (quote.toList ++ seen)) rest := by
  cases quote with
  | none => rfl
  | some q =>
      have htrack : track (closers, some q) q = some (closers, none) := by simp [track]
      exact scanFrom_expression_cons htrack (by simp)

theorem scanFrom_closingBrackets (h : ∀ c ∈ closers, isCloser c = true) (rest : List Char) :
    scanFrom (.expression depth closers none seen) (closers ++ rest) =
      scanFrom (.expression depth [] none (closers.reverse ++ seen)) rest := by
  induction closers generalizing seen with
  | nil => rfl
  | cons c closers ih =>
      obtain ⟨hc, hclosers⟩ := List.forall_mem_cons.mp h
      have hstay : (none : Option Char) = none → c :: closers = [] → ¬Ends c (closers ++ rest) :=
        fun _ hnil => absurd hnil (List.cons_ne_nil c closers)
      rw [List.cons_append, scanFrom_expression_cons (track_closer hc closers) hstay,
        ih hclosers, List.reverse_cons, List.append_assoc, List.singleton_append]

/-- An expression with a letter at its end stands for itself. -/
theorem denotes_letter (source : List Char) : Denotes (source ++ ['x']) (source ++ ['x']) := by
  refine ⟨.inr ⟨rfl, ?_⟩, 'x', by simp, by decide⟩
  rintro e ⟨blanks, hsource, hblanks, -⟩
  have hlast := congrArg List.getLast? hsource
  rw [List.getLast?_concat, List.getLast?_append_of_ne_nil e (List.cons_ne_nil '=' blanks)] at hlast
  rcases List.mem_cons.mp (List.mem_of_getLast? hlast.symm) with h | h
  · contradiction
  · exact absurd (hblanks 'x' h) (by decide)

theorem scanFrom_letter :
    scanFrom (.expression depth [] none seen) ('x' :: '\x7d' :: List.replicate depth '\x7d') =
      .ok [seen.reverse ++ ['x']] := by
  have htrack : track ([], none) 'x' = some ([], none) := rfl
  have he : expression ('x' :: seen).reverse = .ok (seen.reverse ++ ['x']) := by
    rw [List.reverse_cons]
    exact expression_eq_ok_iff.mpr (denotes_letter seen.reverse)
  rw [scanFrom_expression_cons htrack fun _ _ => by simp [Ends],
    scanFrom_expression_end (.inr (.inl rfl)) he]
  show (scanFrom (.afterField depth) _).map _ = _
  rw [scanFrom_closingBraces]
  rfl

end

theorem exists_scanFrom_completion {mode : Mode} (between : mode.Between) :
    ∃ found, scanFrom mode mode.completion = .ok found := by
  cases mode with
  | text => exact ⟨[], rfl⟩
  | format depth =>
      obtain ⟨depth, rfl⟩ := Nat.exists_eq_succ_of_ne_zero (Nat.ne_of_gt between)
      exact ⟨[], scanFrom_closingBraces (depth + 1)⟩
  | expression depth closers quote seen =>
      obtain ⟨hclosers, -⟩ := between
      rw [Mode.completion, scanFrom_closingQuote, scanFrom_closingBrackets hclosers,
        scanFrom_letter]
      exact ⟨_, rfl⟩
  | conversion => exact between.elim
  | afterConversion depth => exact ⟨[], scanFrom_closingBraces depth⟩

/-- What is pending does not stand in the way of completion: a brace is doubled or begins a field, and
a mark becomes part of a comparison. -/
theorem exists_completion {mode : Mode} {pending : List Char} (between : mode.Between)
    (pends : Pending mode pending) : ∃ text found, scanFrom mode (pending ++ text) = .ok found := by
  cases pends with
  | nothing => exact ⟨_, exists_scanFrom_completion between⟩
  | opener => exact ⟨['x', '\x7d'], [['x']], by decide +kernel⟩
  | closer => exact ⟨['\x7d'], [], rfl⟩
  | @mark depth seen =>
      have hafter : (Mode.expression depth [] none ('=' :: '!' :: seen)).Between := between
      obtain ⟨found, hfound⟩ := exists_scanFrom_completion hafter
      have hmark : track ([], none) '!' = some ([], none) := rfl
      have hequals : track ([], none) '=' = some ([], none) := rfl
      refine ⟨'=' :: (Mode.expression depth [] none ('=' :: '!' :: seen)).completion, found, ?_⟩
      rw [List.singleton_append, scanFrom_expression_cons hmark fun _ _ => by simp [Ends],
        scanFrom_expression_cons hequals fun _ _ => by simp [Ends], hfound]

/-! ### The end of a body -/

/-- What follows a body cannot mend the failure. A mark or a brace at its end may yet turn out to
be something else. -/
def IsFinal (body : List Char) : FStringReason → Prop
  | .mismatchedDelimiter | .nestedTooDeeply => True
  | .emptyExpression | .invalidConversionFlag => body.getLast? ≠ some '!'
  | .unopenedBrace => body.getLast? ≠ some '\x7d'
  | .unclosedBrace | .expectedBrace | .invalidExpression _ => False

theorem scanFrom_mark (depth : Nat) (seen : List Char) :
    scanFrom (.expression depth [] none seen) ['!'] = .error .emptyExpression ∨
      scanFrom (.expression depth [] none seen) ['!'] = .error .invalidConversionFlag := by
  have hends : Ends '!' [] := by simp [Ends]
  cases he : expression seen.reverse with
  | error reason =>
      left
      rw [scanFrom_expression, endsExpression_iff.mpr hends, he, expression_error he]
      rfl
  | ok e =>
      right
      rw [scanFrom_expression_end hends he]
      rfl

/-- A body that ends where a scan stands is accepted only if it stands in text, with nothing
pending. Otherwise it fails, but not for good. -/
theorem scanFrom_pending {mode : Mode} {pending body : List Char} (between : mode.Between)
    (pends : Pending mode pending) (behind : pending <:+ body) :
    mode = .text ∧ pending = [] ∨
      ∃ reason, scanFrom mode pending = .error reason ∧ ¬IsFinal body reason := by
  have hlast {c : Char} (h : pending = [c]) : body.getLast? = some c := by
    obtain ⟨front, rfl⟩ := behind
    rw [h, List.getLast?_concat]
  cases pends with
  | nothing =>
      cases mode with
      | text => exact .inl ⟨rfl, rfl⟩
      | format | expression | afterConversion => exact .inr ⟨_, rfl, id⟩
      | conversion => exact between.elim
  | opener => exact .inr ⟨.unclosedBrace, rfl, id⟩
  | closer => exact .inr ⟨.unopenedBrace, rfl, fun h => h (hlast rfl)⟩
  | @mark depth seen =>
      rcases scanFrom_mark depth seen with hscan | hscan
      · exact .inr ⟨_, hscan, fun h => h (hlast rfl)⟩
      · exact .inr ⟨_, hscan, fun h => h (hlast rfl)⟩

inductive Standing (body : List Char) : Prop
  | accepted {found : List (List Char)}
      (scan : ∀ rest, scanFrom .text (body ++ rest) = (scanFrom .text rest).map (found ++ ·))
  | refused {reason : FStringReason}
      (scan : ∀ rest, scanFrom .text (body ++ rest) = .error reason)
      (closed : reason ≠ .unclosedBrace)
  | unfinished {reason : FStringReason} (scan : scanFrom .text body = .error reason)
      (notFinal : ¬IsFinal body reason)
      (completes : ∃ text found, scanFrom .text (body ++ text) = .ok found)

theorem standing (body : List Char) : Standing body := by
  cases outcome body with
  | refused scan closed => exact .refused scan closed
  | @reached found next pending scan between pends behind =>
      rcases scanFrom_pending between pends behind with ⟨rfl, rfl⟩ | ⟨reason, hfail, hnot⟩
      · exact .accepted scan
      · have hbody := scan []
        rw [List.append_nil, List.append_nil, hfail] at hbody
        obtain ⟨text, here, htext⟩ := exists_completion between pends
        refine .unfinished hbody hnot ⟨text, found ++ here, ?_⟩
        rw [scan, htext]
        rfl

/-! ### Bodies in a row -/

section

variable {a b body : List Char} {location : Location}

theorem scan_eq_ok_iff_scanFrom {found : List (List Char)} :
    scan body location = .ok found ↔ scanFrom .text body = .ok found := by
  unfold scan
  cases scanFrom .text body <;> simp [Except.mapError]

theorem scan_eq_error_iff {error : FStringError} :
    scan body location = .error error ↔
      scanFrom .text body = .error error.reason ∧ error.location = location := by
  obtain ⟨reason, place⟩ := error
  unfold scan
  cases scanFrom .text body <;> simp [Except.mapError, eq_comm]

/-- What fails for good fails in the same way whatever follows. -/
theorem scanFrom_append_of_isFinal {reason : FStringReason} (h : scanFrom .text a = .error reason)
    (hfinal : IsFinal a reason) (b : List Char) : scanFrom .text (a ++ b) = .error reason := by
  cases standing a with
  | accepted scan =>
      have ha := scan []
      rw [List.append_nil, h] at ha
      contradiction
  | refused scan =>
      have ha := scan []
      rw [List.append_nil, h] at ha
      cases ha
      exact scan b
  | unfinished scan notFinal =>
      cases h.symm.trans scan
      exact absurd hfinal notFinal

/-- Main result. A failure that nothing at the end of the body has a part in is there whatever
follows. A body in which a brace is not closed can always be completed. -/
theorem scan_append_of_error {error : FStringError} (h : scan body location = .error error) :
    (IsFinal body error.reason → ∀ text, scan (body ++ text) location = .error error) ∧
      (error.reason = .unclosedBrace →
        ∃ text found, scan (body ++ text) location = .ok found) := by
  obtain ⟨hbody, hlocation⟩ := scan_eq_error_iff.mp h
  refine ⟨fun hfinal text => scan_eq_error_iff.mpr
    ⟨scanFrom_append_of_isFinal hbody hfinal text, hlocation⟩, fun hopen => ?_⟩
  cases standing body with
  | accepted scan =>
      have haccepted := scan []
      rw [List.append_nil, hbody] at haccepted
      contradiction
  | refused scan closed =>
      have hreason := scan []
      rw [List.append_nil, hbody] at hreason
      cases hreason
      exact absurd hopen closed
  | unfinished scan notFinal completes =>
      obtain ⟨text, found, htext⟩ := completes
      exact ⟨text, found, scan_eq_ok_iff_scanFrom.mpr htext⟩

/-- A bracket that closes nothing is there for good. A quote can still be closed, with the brackets
around it and the field in whose format it stands. -/
theorem scan_append_of_error_bracket :
    scan "\x7bx)!".toList {} = .error ⟨.mismatchedDelimiter, {}⟩ ∧
      scan ("\x7bx)!".toList ++ ['=', '\x7d']) {} = .error ⟨.mismatchedDelimiter, {}⟩ ∧
      scan "\x7bx:\x7bf([\x27".toList {} = .error ⟨.unclosedBrace, {}⟩ ∧
      ∃ text found, scan ("\x7bx:\x7bf([\x27".toList ++ text) {} = .ok found := by
  have hbracket : scan "\x7bx)!".toList {} = .error ⟨.mismatchedDelimiter, {}⟩ := by
    decide +kernel
  have hquote : scan "\x7bx:\x7bf([\x27".toList {} = .error ⟨.unclosedBrace, {}⟩ := by
    decide +kernel
  exact ⟨hbracket, (scan_append_of_error hbracket).1 trivial _, hquote,
    (scan_append_of_error hquote).2 rfl⟩

end

end SyntaxTriage.FString
