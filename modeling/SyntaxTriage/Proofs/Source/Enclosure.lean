import SyntaxTriage.Proofs.Lexer.Simple
import SyntaxTriage.Proofs.Parser.Calls
import SyntaxTriage.Proofs.Source.Verdict

/-!
The parentheses around an expression. The scanner of format strings and the lexer read the same text
with notions of their own of what a string is: to the scanner a quote ends at the next quote of the
same kind, whatever stands in front of it, and it knows of no comments. As long as both find the
same quotes to belong together, the parenthesis that is put in front of an expression is closed by
the one behind it. Where they do not, an expression may close the one and open the other.
-/

namespace SyntaxTriage

namespace FString

/-! ### Text that the scanner takes for an expression -/

theorem trackAll_of_plain {text : List Char} (h : ∀ c ∈ text, IsPlain c) (closers : List Char) :
    trackAll (closers, none) text = some (closers, none) :=
  (Closed.of_plain h).trackAll closers

theorem Closed.of_append_plain {text behind : List Char} (h : Closed (text ++ behind))
    (hbehind : ∀ c ∈ behind, IsPlain c) : Closed text := by
  have htrack := h.trackAll []
  rw [trackAll_append] at htrack
  obtain ⟨⟨closers, quote⟩, htext, hrest⟩ := Option.bind_eq_some_iff.mp htrack
  cases quote with
  | none =>
      rw [trackAll_of_plain hbehind] at hrest
      cases hrest
      exact trackAll_eq_nil_iff.mp htext
  | some q =>
      -- a quote that is open behind the text is not ended by plain text
      cases (Open.closed .nil).trackAll htext with
      | quote _ hq _ =>
          rw [trackAll_inside fun hmem => (hbehind q hmem).1 hq] at hrest
          cases hrest

theorem isPlain_of_isBlank {c : Char} (h : Text.isBlank c = true) : IsPlain c :=
  Lexer.isPlain_of_test (by decide) h

theorem Denotes.closed {source expression : List Char} (h : Denotes source expression)
    (hsource : Closed source) : Closed expression := by
  rcases h.echo with ⟨blanks, rfl, hblanks, -⟩ | ⟨rfl, -⟩
  · refine hsource.of_append_plain (List.forall_mem_cons.mpr ⟨isPlain_iff.mpr (by decide), ?_⟩)
    exact fun c hc => isPlain_of_isBlank (hblanks c hc)
  · exact hsource

/-- Every expression closes the quotes and brackets that it opens, as the scanner sees them. -/
theorem Derives.closed {phrase : Phrase} {text e : List Char} {es : List (List Char)}
    (h : Derives phrase text es) (he : e ∈ es) : Closed e := by
  induction h with
  | bodyEnd | noFormat | formatEnd => contradiction
  | bodyPlain _ _ _ ih | bodyOpener _ ih | bodyCloser _ ih | withFormat _ ih
  | formatPlain _ _ _ ih => exact ih he
  | bodyField _ _ _ ihField ihBehind | formatField _ _ ihField ihBehind =>
      exact (List.mem_append.mp he).elim ihField ihBehind
  | field _ reach denotes _ _ ih =>
      rcases List.mem_cons.mp he with rfl | he
      · exact denotes.closed reach.closed
      · exact ih he

/-- Text that the scanner can read does not go past the end of text that closes what is open, if a
bracket that closes nothing stands there. -/
theorem exists_append_of_trackAll {closers u x w y : List Char} {s : List Char × Option Char}
    (hu : trackAll (closers, none) u = some ([], none)) (hw : trackAll (closers, none) w = some s)
    (h : u ++ ')' :: x = w ++ y) : ∃ u', u = w ++ u' ∧ y = u' ++ ')' :: x := by
  rcases List.append_eq_append_iff.mp h with ⟨v, rfl, hv⟩ | ⟨v, rfl, rfl⟩
  · cases v with
    | nil => exact ⟨[], by simp, by simpa using hv.symm⟩
    | cons c v =>
        cases hv
        rw [trackAll_append, hu] at hw
        cases hw
  · exact ⟨v, rfl, rfl⟩

end FString

namespace Source

open FString (Closed closer? isCloser trackAll)
open Grammar (openBrackets openBrackets_cons countBracket)
open SyntaxTriage.Parser

variable {e : List Char} {p q : Progress} {l : Lexeme Terminal} {ls : List (Lexeme Terminal)}

/-- The text that is read for an expression. -/
theorem complete_parenthesized (e : List Char) :
    complete (parenthesized e) = '(' :: (e ++ [')', '\n']) := by
  have hlast : (parenthesized e).getLast? = some ')' := List.getLast?_concat ..
  rw [complete, if_neg (by rw [hlast]; decide)]
  simp [parenthesized]

def kinds (ls : List (Lexeme Terminal)) : List Symbol := ls.map fun l => .terminal l.kind

/-- Of the lexemes, the parenthesis in front of the expression stays open up to the one behind the
expression, and is closed by that. -/
def Encloses (e : List Char) (ls : List (Lexeme Terminal)) : Prop :=
  ∃ first inside last rest, ls = first :: (inside ++ last :: rest) ∧
    first.kind = .leftParen ∧
    Lexer.Piece first (complete (parenthesized e)) [] (e ++ [')', '\n']) ∧
    last.kind = .rightParen ∧
    Lexer.Piece last (complete (parenthesized e)) ('(' :: e) ['\n'] ∧
    (∀ before, before <+: inside →
      ∃ depth, openBrackets 0 (kinds (first :: before)) = some (depth + 1)) ∧
    openBrackets 0 (kinds (first :: inside)) = some 1

/-- The scanner has nothing against the text of the lexeme, if it is one that may hold anything. -/
def ReadAlike (l : Lexeme Terminal) : Prop :=
  isString l = true ∨ l.kind = .newline → Closed l.text.toList

/-- The run has come to `left`, behind the part `done` of the expression, and the scanner has to
find the closers in what is left. -/
structure Inside (e : List Char) (p : Progress) (done left closers : List Char) : Prop where
  sound : p.Sound (complete (parenthesized e)) ('(' :: done)
  split : e = done ++ left
  closes : trackAll (closers, none) left = some ([], none)

theorem Inside.rest_eq {done left closers : List Char} (h : Inside e p done left closers) :
    p.cursor.rest = left ++ [')', '\n'] := by
  have htext := h.sound.place.text
  rw [complete_parenthesized, h.split] at htext
  simpa using htext.symm

/-- One lexeme inside the parentheses either stays inside, and opens and closes what the scanner
sees opened and closed, or is the parenthesis behind the expression. -/
theorem Inside.step {done left closers : List Char} (h : Inside e p done left closers)
    (hstep : Steps p l q) (hl : ReadAlike l) :
    (∃ done' left' closers', Inside e q done' left' closers' ∧
      countBracket (closers.length + 1) (.terminal l.kind) = some (closers'.length + 1)) ∨
    (closers = [] ∧ l.kind = .rightParen ∧
      Lexer.Piece l (complete (parenthesized e)) ('(' :: e) ['\n']) := by
  obtain ⟨skipped, hpiece, -, -, hsound, -⟩ := h.sound.step hstep
  obtain ⟨behind, hnext, hread⟩ := hstep
  obtain ⟨⟨taken, htaken, hplain⟩, hmade⟩ :=
    (Lexer.next_eq_iff.mp hnext).madeOf (Lexer.newline_mem _)
  rw [← cursor_of_read hread] at htaken
  have hskipped : p.cursor.rest = skipped ++ (l.text.toList ++ q.cursor.rest) := by
    have htext := hpiece.text.symm.trans h.sound.place.text
    simpa using htext.symm
  cases List.append_cancel_right (htaken.symm.trans hskipped)
  rw [h.rest_eq] at htaken
  have hcloses := h.closes
  obtain ⟨left, hleft, hbehind⟩ :=
    FString.exists_append_of_trackAll hcloses (FString.trackAll_of_plain hplain closers) htaken
  rw [hleft, FString.trackAll_append, FString.trackAll_of_plain hplain closers,
    Option.bind_some] at hcloses
  -- a lexeme that the scanner can read stands in the expression as a whole
  have hadvance {closers' : List Char}
      (htrack : trackAll (closers, none) l.text.toList = some (closers', none)) :
      ∃ done' left', Inside e q done' left' closers' := by
    obtain ⟨left', rfl, -⟩ :=
      FString.exists_append_of_trackAll hcloses htrack hbehind.symm
    rw [FString.trackAll_append, htrack, Option.bind_some] at hcloses
    refine ⟨done ++ skipped ++ l.text.toList, left', ?_, ?_, hcloses⟩
    · simpa using hsound
    · rw [h.split, hleft]
      simp
  cases hmade with
  | anything kind =>
      have hstring : isString l = true ∨ l.kind = .newline := by
        simpa [isString, or_assoc] using kind
      obtain ⟨done', left', hinside⟩ := hadvance ((hl hstring).trackAll closers)
      refine .inl ⟨done', left', closers, hinside, ?_⟩
      rcases kind with hkind | hkind | hkind <;> rw [hkind] <;> rfl
  | plain role plain =>
      obtain ⟨done', left', hinside⟩ := hadvance (FString.trackAll_of_plain plain closers)
      refine .inl ⟨done', left', closers, hinside, ?_⟩
      simp only [countBracket, role]
  | @opener c closer role _ text opener =>
      obtain ⟨done', left', hinside⟩ := @hadvance (closer :: closers) (by
        rw [text, FString.trackAll_cons, FString.track_opener opener]
        rfl)
      refine .inl ⟨done', left', closer :: closers, hinside, ?_⟩
      simp only [countBracket, role, List.length_cons]
  | @closer c role fixed text closer =>
      cases left with
      | nil =>
          -- the expression is read, so this is the parenthesis behind it
          cases hcloses
          obtain ⟨rfl, hafter⟩ : c = ')' ∧ q.cursor.rest = ['\n'] := by
            rw [text] at hbehind
            exact List.cons.inj hbehind
          refine .inr ⟨rfl, Lexer.Parenthesis.right.eq_of_text? fixed rfl, ?_⟩
          have hbefore : '(' :: e = '(' :: done ++ skipped := by
            rw [h.split, hleft, List.append_nil]
            rfl
          rw [hbefore, ← hafter]
          exact hpiece
      | cons d left =>
          rw [text] at hbehind
          obtain ⟨rfl, -⟩ := List.cons.inj hbehind
          obtain ⟨s, hs, -⟩ := Option.bind_eq_some_iff.mp hcloses
          obtain ⟨closers', rfl, rfl⟩ := FString.exists_of_track_isCloser closer hs
          obtain ⟨done', left', hinside⟩ := @hadvance closers' (by
            rw [text, FString.trackAll_cons, hs]
            rfl)
          refine .inl ⟨done', left', closers', hinside, ?_⟩
          simp [countBracket, role]

theorem Inside.exists_last {tree : Tree} {done left closers : List Char}
    (hruns : Runs p ls (.ok tree)) (h : Inside e p done left closers)
    (hls : ∀ l ∈ ls, ReadAlike l) :
    ∃ inside last rest, ls = inside ++ last :: rest ∧ last.kind = .rightParen ∧
      Lexer.Piece last (complete (parenthesized e)) ('(' :: e) ['\n'] ∧
      (∀ before, before <+: inside →
        ∃ depth, openBrackets (closers.length + 1) (kinds before) = some (depth + 1)) ∧
      openBrackets (closers.length + 1) (kinds inside) = some 1 := by
  generalize hresult : (Except.ok tree : Except Stop Tree) = result at hruns
  induction hruns generalizing done left closers with
  | @finished p found =>
      -- the parenthesis behind the expression is still to be read
      obtain ⟨taken, htaken, hplain⟩ :=
        (Lexer.next_eq_iff.mp found).plain_of_finished (Lexer.newline_mem _)
      rw [h.rest_eq, List.append_nil] at htaken
      exact absurd (hplain ')' (by simp [← htaken])) fun hparen =>
        FString.isPlain_iff.mp hparen (by decide)
  | stopped | misplaced | unreadable => cases hresult
  | @step p q l ls _ first _ ih =>
      obtain ⟨hl, hls⟩ := List.forall_mem_cons.mp hls
      rcases h.step first hl with ⟨done', left', closers', hinside, hcount⟩ | ⟨rfl, hkind, hpiece⟩
      · obtain ⟨inside, last, rest, rfl, hkind, hpiece, hopen, hend⟩ := ih hinside hls hresult
        refine ⟨l :: inside, last, rest, rfl, hkind, hpiece, fun before hbefore => ?_, ?_⟩
        · cases before with
          | nil => exact ⟨closers.length, rfl⟩
          | cons k before =>
              obtain ⟨rfl, hbefore⟩ := List.cons_prefix_cons.mp hbefore
              rw [kinds, List.map_cons, openBrackets_cons, hcount]
              exact hopen before ‹_›
        · rw [kinds, List.map_cons, openBrackets_cons, hcount]
          exact hend
      · refine ⟨[], l, ls, rfl, hkind, hpiece, fun before hbefore => ?_, rfl⟩
        rw [List.prefix_nil.mp hbefore]
        exact ⟨0, rfl⟩

/-- The run begins with the parenthesis in front of the expression. -/
theorem encloses_of_runs {mode : Mode} {tree : Tree}
    (hruns : Runs (.start mode.entry (complete (parenthesized e))) ls (.ok tree))
    (hclosed : Closed e) (hls : ∀ l ∈ ls, ReadAlike l) : Encloses e ls := by
  have hsound := sound_start mode.entry (complete (parenthesized e))
  have hrest : (Progress.start mode.entry (complete (parenthesized e))).cursor.rest =
      '(' :: (e ++ [')', '\n']) := complete_parenthesized e
  generalize Progress.start mode.entry (complete (parenthesized e)) = p at hruns hsound hrest
  generalize hresult : (Except.ok tree : Except Stop Tree) = result at hruns
  cases hruns with
  | finished found =>
      have hplain := (Lexer.next_eq_iff.mp found).plain_of_finished (Lexer.newline_mem _)
      have hnil := hplain.eq_of_not_plain hrest fun hparen =>
        FString.isPlain_iff.mp hparen (by decide)
      rw [hrest] at hnil
      contradiction
  | stopped | misplaced | unreadable => cases hresult
  | @step _ q first ls _ hfirst hbehind =>
      obtain ⟨skipped, hpiece, -, -, hq, -⟩ := hsound.step hfirst
      obtain ⟨behind, hnext, hread⟩ := hfirst
      obtain ⟨hkind, htext, hafter⟩ :=
        (Lexer.next_eq_iff.mp hnext).leftParen (Lexer.newline_mem _) hsound.place hrest
      rw [← cursor_of_read hread] at hafter
      rw [hafter] at hpiece
      have hskipped : skipped = [] := by
        have hlength := congrArg List.length hpiece.text
        rw [complete_parenthesized, htext] at hlength
        simp only [List.length_append, List.length_cons, List.length_nil] at hlength
        exact List.length_eq_zero_iff.mp (by omega)
      subst hskipped
      rw [htext] at hq
      obtain ⟨-, hls⟩ := List.forall_mem_cons.mp hls
      subst hresult
      obtain ⟨inside, last, rest, rfl, hlast, hlastPiece, hopen, hend⟩ :=
        Inside.exists_last hbehind ⟨hq, rfl, hclosed.trackAll []⟩ hls
      have hcount : countBracket 0 (.terminal first.kind) = some 1 := by
        rw [hkind]
        rfl
      refine ⟨first, inside, last, rest, rfl, hkind, hpiece, hlast, hlastPiece, ?_, ?_⟩
      · intro before hbefore
        rw [kinds, List.map_cons, openBrackets_cons, hcount]
        exact hopen before hbefore
      · rw [kinds, List.map_cons, openBrackets_cons, hcount]
        exact hend

/-! ### Simple expressions -/

/-- Parentheses and the end of the line do not add to the quotes of an expression. -/
theorem simple_complete (h : Lexer.Simple e) : Lexer.Simple (complete (parenthesized e)) := by
  rw [complete_parenthesized]
  refine ⟨by simpa using h.escape, by simpa using h.comment, fun q hq htriple => h.triple q hq ?_⟩
  have hne : q ≠ '(' ∧ q ≠ ')' ∧ q ≠ '\n' := by
    refine ⟨?_, ?_, ?_⟩ <;> (rintro rfl; contradiction)
  have hbehind : [q, q, q] <:+: e ++ [')', '\n'] := by
    rcases List.infix_cons_iff.mp htriple with hprefix | hpart
    · exact absurd (List.cons_prefix_cons.mp hprefix).1 hne.1
    · exact hpart
  -- from behind, the same step goes over the last two characters
  rw [← List.reverse_infix, List.reverse_append] at hbehind
  rcases List.infix_cons_iff.mp hbehind with hprefix | hpart
  · exact absurd (List.cons_prefix_cons.mp hprefix).1 hne.2.2
  · rcases List.infix_cons_iff.mp hpart with hprefix | hpart
    · exact absurd (List.cons_prefix_cons.mp hprefix).1 hne.2.1
    · exact List.reverse_infix.mp hpart

/-- The scanner has nothing against the lexemes of a simple expression. -/
theorem readAlike_of_simple {entry : Nonterminal} {result : Except Stop Tree}
    (hruns : Runs (.start entry (complete (parenthesized e))) ls result) (he : Lexer.Simple e) :
    ∀ l ∈ ls, ReadAlike l := by
  intro l hl hkind
  obtain ⟨before, after, hpiece, htaken⟩ := (hruns.pieces (sound_start entry _)).exists_piece hl
  have hsimple : Lexer.Simple l.text.toList :=
    (simple_complete he).of_part ⟨before, after, hpiece.text.symm⟩
  exact htaken.closed (by simpa [isString, or_assoc] using hkind) hsimple

/-! ### Parentheses in a row -/

/-- An expression is accepted that makes a line of parentheses of those around it. -/
theorem exists_verdictOn_calls {comments : List (List Char)} (hne : comments ≠ [])
    (hcomments : ∀ comment ∈ comments, '\n' ∉ comment)
    (htext : complete (parenthesized e) = callText comments) :
    ∃ tree, verdictOn e = .ok tree ∧
      Runs (.start Mode.statement.entry (complete (parenthesized e)))
        (callLexemes ⟨callText comments, {}⟩ comments) (.ok tree) := by
  obtain ⟨tree, hruns⟩ := exists_runs_calls hne hcomments
  rw [← htext] at hruns
  have hstrings : stringsIn tree = [] := by
    rw [htext] at hruns
    exact (hruns.strings (sound_start _ _)).trans (filter_isString_callLexemes _ comments)
  refine ⟨tree, judged_iff.mpr (.valid ?_ ?_), by rw [← htext]; exact hruns⟩
  · rw [String.toList_ofList]
    exact run_eq_iff.mpr ⟨_, hruns⟩
  · rw [hstrings]
    simp

/-! ### Main result -/

/-- An expression of a format string that is accepted in parentheses is enclosed by them, if the
scanner can read its strings and its line breaks, with the comments in front of them, as the lexer
does. It can if the expression is simple. -/
theorem encloses_of_readAlike {body : List Char} {location : Location} {es : List (List Char)}
    {tree : Tree} (hscan : FString.scan body location = .ok es) (he : e ∈ es)
    (hparse : verdictOn e = .ok tree) :
    ∃ ls, Runs (.start Mode.statement.entry (complete (parenthesized e))) ls (.ok tree) ∧
      ((∀ l ∈ ls, ReadAlike l) → Encloses e ls) ∧
      (Lexer.Simple e → ∀ l ∈ ls, ReadAlike l) := by
  have hclosed : Closed e := ((FString.scan_eq_ok_iff body location es).mp hscan).1.closed he
  cases judged_iff.mp hparse with
  | valid run _ =>
      rw [String.toList_ofList] at run
      obtain ⟨ls, hruns⟩ := run_eq_iff.mp run
      exact ⟨ls, hruns, encloses_of_runs hruns hclosed, readAlike_of_simple hruns⟩

theorem encloses_of_readAlike_comment :
    FString.scan "\x7b#\n\x7d".toList ⟨1, 1⟩ = .ok [['#', '\n']] ∧
      ∃ tree ls, verdictOn ['#', '\n'] = .ok tree ∧
        Runs (.start Mode.statement.entry (complete (parenthesized ['#', '\n']))) ls (.ok tree) ∧
        (∀ l ∈ ls, ReadAlike l) ∧ Encloses ['#', '\n'] ls := by
  have hscan : FString.scan "\x7b#\n\x7d".toList ⟨1, 1⟩ = .ok [['#', '\n']] := rfl
  obtain ⟨tree, hparse, hcalls⟩ := @exists_verdictOn_calls ['#', '\n'] [[]] (by simp) (by simp) rfl
  obtain ⟨ls, hruns, hencloses, -⟩ :=
    encloses_of_readAlike hscan (List.mem_singleton_self _) hparse
  have hread : ∀ l ∈ callLexemes ⟨callText [[]], {}⟩ [[]],
      isString l = true ∨ l.kind = .newline → l.text.toList.all (· ∉ FString.delimiters) := by
    decide
  have halike : ∀ l ∈ ls, ReadAlike l := fun l hl hkind =>
    .of_plain fun c hc => FString.isPlain_iff.mpr (of_decide_eq_true
      (List.all_eq_true.mp (hread l ((hruns.unique hcalls).1 ▸ hl) hkind) c hc))
  exact ⟨hscan, tree, ls, hparse, hruns, halike, hencloses halike⟩

/-- To the scanner all of the expression stands in one string, up to its last line. To the lexer
each quote is a comment, and the parenthesis behind the first line closes the one in front. -/
theorem not_encloses_quotes :
    FString.scan "\x7b#'\n)(#'\n\x7d".toList ⟨1, 1⟩ = .ok ["#'\n)(#'\n".toList] ∧
      ∃ tree ls, verdictOn "#'\n)(#'\n".toList = .ok tree ∧
        Runs (.start Mode.statement.entry (complete (parenthesized "#'\n)(#'\n".toList))) ls
          (.ok tree) ∧
        ¬Encloses "#'\n)(#'\n".toList ls := by
  have hcomments : ∀ comment ∈ [['\''], ['\'']], '\n' ∉ comment := by simp
  obtain ⟨tree, hparse, hruns⟩ :=
    @exists_verdictOn_calls "#'\n)(#'\n".toList [['\''], ['\'']] (by simp) hcomments rfl
  refine ⟨rfl, tree, _, hparse, hruns, ?_⟩
  rintro ⟨first, inside, last, rest, hls, -, -, hlast, hpiece, hopen, -⟩
  obtain ⟨hfirst, hbehind⟩ := List.cons.inj hls
  rcases inside with _ | ⟨x, _ | ⟨y, inside⟩⟩
  · -- the first line ends inside the parentheses
    obtain ⟨hline, -⟩ := List.cons.inj hbehind
    rw [← hline] at hlast
    exact absurd hlast (by decide)
  · -- the first closing parenthesis stands on the second line, not on the third one
    obtain ⟨-, hbehind⟩ := List.cons.inj hbehind
    obtain ⟨hclosing, -⟩ := List.cons.inj hbehind
    rw [← hclosing] at hpiece
    exact absurd hpiece.line (by decide)
  · -- and behind it no parenthesis is open
    obtain ⟨hline, hbehind⟩ := List.cons.inj hbehind
    obtain ⟨hclosing, -⟩ := List.cons.inj hbehind
    obtain ⟨depth, hdepth⟩ := hopen [x, y] (List.prefix_append _ inside)
    rw [← hfirst, ← hline, ← hclosing] at hdepth
    cases hdepth

end Source

end SyntaxTriage
