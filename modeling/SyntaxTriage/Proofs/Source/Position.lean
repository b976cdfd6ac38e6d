import SyntaxTriage.Proofs.Parser.Prefix
import SyntaxTriage.Proofs.Source.Verdict

/-!
Where errors are reported. Every lexeme that the parser is given stands between two positions of the
text, be it a piece of the text or a lexeme of layout, which takes the positions of another one. So
what is reported about a lexeme, its beginning or its end, is such a position, and so is the place
where the lexer or layout gives up. The positions that stand for unknown ones are never reported:
where levels are left to close, something has been read.
-/

namespace SyntaxTriage

/-- The location is that of a character of the text, or the one behind the last character. -/
def Location.IsIn (location : Location) (text : List Char) : Prop :=
  ∃ before, before <+: text ∧ location = endOf before

namespace Lexeme

variable {κ : Type} {l : Lexeme κ} {text : List Char}

structure StandsIn (l : Lexeme κ) (text : List Char) : Prop where
  start : ∃ before, before <+: text ∧ l.line = some (Location.endOf before).row ∧
    l.column = some (Location.endOf before).column
  stop : ∃ before, before <+: text ∧ l.endLine = some (Location.endOf before).row ∧
    l.endColumn = some (Location.endOf before).column

theorem StandsIn.borrow (h : l.StandsIn text) (kind : κ) (word : String) :
    (l.borrow kind word).StandsIn text := ⟨h.start, h.stop⟩

theorem StandsIn.mapKind {κ' : Type} (h : l.StandsIn text) (f : κ → κ') :
    (l.mapKind f).StandsIn text := ⟨h.start, h.stop⟩

theorem StandsIn.ofCoordinates (h : l.StandsIn text) (fallback : Location) :
    (Location.ofCoordinates l.line l.column fallback).IsIn text := by
  obtain ⟨before, hbefore, hline, hcolumn⟩ := h.start
  rw [hline, hcolumn, Location.ofCoordinates_endOf]
  exact ⟨before, hbefore, rfl⟩

theorem StandsIn.endLocation (h : l.StandsIn text) : (Layout.endLocation l).IsIn text := by
  obtain ⟨before, hbefore, hline, hcolumn⟩ := h.stop
  have hrow := Location.one_le_row before
  have hpos := Location.one_le_column before
  refine ⟨before, hbefore, ?_⟩
  rw [Layout.endLocation, hline, hcolumn, Layout.coordinate, Layout.coordinate,
    if_neg (by omega), if_neg (by omega)]

/-- A token is reported where its lexeme starts, or where it stops if it is one of layout. -/
theorem StandsIn.start_ofLexeme {l : Lexeme String} (h : l.StandsIn text) :
    (SpannedToken.ofLexeme l).start.IsIn text := by
  obtain ⟨before, hbefore, hline, hcolumn⟩ := h.stop
  rw [SpannedToken.ofLexeme, hline, hcolumn]
  simp only
  split
  · exact ⟨before, hbefore, rfl⟩
  · exact h.ofCoordinates {}

end Lexeme

/-- What the lexer takes from the text stands in the text. -/
theorem Lexer.Cursor.StandsIn.lexeme {c : Cursor} {text before : List Char}
    (h : c.StandsIn text before) (t : Terminal) (length : Nat) :
    (c.take t length).1.StandsIn text where
  start := by
    refine ⟨before, ⟨c.rest, h.text.symm⟩, ?_⟩
    rw [← h.location]
    exact ⟨rfl, rfl⟩
  stop := by
    have hbehind := h.take t length
    refine ⟨_, ⟨_, hbehind.text.symm⟩, ?_⟩
    rw [← hbehind.location]
    exact ⟨rfl, rfl⟩

def Lexer.Next.StandsIn (text : List Char) : Next → Prop
  | .lexeme l _ | .misplaced l => l.StandsIn text
  | .unreadable _ location => location.IsIn text
  | .finished => True

theorem Lexer.Finds.standsIn {candidates : TerminalSet} {c : Cursor} {found : Next}
    {text before : List Char} (h : Finds candidates c found) (hc : c.StandsIn text before) :
    found.StandsIn text := by
  induction h generalizing before with
  | finished => trivial
  | @skip c t length found _ _ _ ih => exact ih (hc.take t length)
  | lexeme | misplaced => exact hc.lexeme _ _
  | unreadable => exact ⟨before, ⟨_, hc.text.symm⟩, hc.location⟩

/-! ### Layout -/

namespace Layout

variable {tabSize : Nat} {s s' : Layout} {l : Lexeme Terminal} {text : List Char}

theorem standsIn_emitted (h : l.StandsIn text) :
    ∀ e ∈ (s.read tabSize l).emitted, e.StandsIn text := by
  intro e he
  rcases mem_emitted_read he with rfl | ⟨_, rfl | rfl⟩
  · exact h
  · exact h.borrow _ _
  · exact h.borrow _ _

theorem isIn_of_fault {error : LexicalError} (h : l.StandsIn text)
    (hfault : (s.read tabSize l).next = .error (.lexical error)) : error.location.IsIn text := by
  rw [(location_of_fault hfault).2]
  exact h.endLocation

/-- What closes the levels at the end stands where the last lexeme does. -/
theorem standsIn_finish {last : Option (Lexeme Terminal)}
    (h : ∀ l, last = some l → l.StandsIn text ∧ l.text ≠ "")
    (hmargin : last = none → s.levels.dropLast = []) :
    ∀ d ∈ s.finish last, d.StandsIn text := by
  intro d hd
  cases last with
  | none => simp [finish, hmargin rfl] at hd
  | some l =>
      obtain ⟨hl, htext⟩ := h l rfl
      obtain ⟨_, -, rfl⟩ := List.mem_map.mp hd
      simp only [if_neg htext]
      exact hl.borrow _ _

end Layout

theorem Rejection.isIn_toFailure {l : Lexeme String} {text : List Char} (h : l.StandsIn text)
    (expected accepted : List String) (fallback : Option Location) :
    ((lexeme l expected accepted).toFailure fallback).toParseError.location.IsIn text := by
  obtain ⟨shown, heq | heq | heq⟩ := toFailure_lexeme l expected accepted fallback
  · rw [heq]
    exact h.ofCoordinates _
  · rw [heq]
    exact h.start_ofLexeme
  · rw [heq]
    exact h.start_ofLexeme

/-! ### The parser -/

namespace Parser

-- the bound on reductions is a large number that nothing here should compute
attribute [local irreducible] Stack.settle

def Stop.StandsIn (text : List Char) (stop : Stop) : Prop :=
  ∀ failure, Source.faultOf text stop = .failure failure → failure.toParseError.location.IsIn text

variable {p q : Progress} {text before : List Char} {l : Lexeme Terminal}

theorem standsIn_rejectionOf (s : Stack) (h : l.StandsIn text) :
    (Stop.rejected (rejectionOf s l)).StandsIn text := by
  rintro failure ⟨⟩
  exact Rejection.isIn_toFailure (h.mapKind Terminal.name) _ _ _

theorem standsIn_of_feedAll {s : Stack} {ls : List (Lexeme Terminal)} {rejection : Rejection}
    (hls : ∀ l ∈ ls, l.StandsIn text) (h : feedAll s ls = .error rejection) :
    (Stop.rejected rejection).StandsIn text := by
  obtain ⟨t, l, hl, rfl⟩ := feedAll_eq_error h
  exact standsIn_rejectionOf t (hls l hl)

/-- What is known about the lexemes that positions are taken from: they stand in the text, and
levels have been opened only by a lexeme. -/
structure Progress.Placed (p : Progress) (text : List Char) : Prop where
  lastRead : ∀ l, p.lastRead = some l → l.StandsIn text ∧ l.text ≠ ""
  lastFed : ∀ l, p.lastFed = some l → l.StandsIn text
  margin : p.lastRead = none → p.layout.levels.dropLast = []

theorem placed_start (entry : Nonterminal) (text : List Char) :
    (Progress.start entry text).Placed text where
  lastRead _ h := by cases h
  lastFed _ h := by cases h
  margin _ := rfl

theorem Progress.Placed.read (h : p.Placed text) {behind : Lexer.Cursor} (hl : l.StandsIn text)
    (htext : l.text ≠ "") (hread : p.read l behind = .ok q) : q.Placed text := by
  obtain ⟨stack, layout, -, hlayout, rfl⟩ := read_eq_ok_iff.mp hread
  refine ⟨?_, ?_, fun hnone => by cases hnone⟩
  · rintro _ ⟨⟩
    exact ⟨hl, htext⟩
  · intro e he
    rcases Option.or_eq_some_iff.mp he with he | ⟨-, he⟩
    · exact Layout.standsIn_emitted hl e (List.mem_of_getLast? he)
    · exact h.lastFed e he

theorem standsIn_of_read {behind : Lexer.Cursor} {stop : Stop} (hl : l.StandsIn text)
    (hread : p.read l behind = .error stop) : stop.StandsIn text := by
  unfold Progress.read at hread
  simp only at hread
  split at hread
  · rename_i rejection hfeed
    cases hread
    exact standsIn_of_feedAll (Layout.standsIn_emitted hl) hfeed
  · split at hread
    · rename_i fault hfault
      cases hread
      intro failure hfailure
      cases fault with
      | lexical error =>
          cases hfailure
          exact Layout.isIn_of_fault hl hfault
      | unopenedBracket | noLineBreak => cases hfailure
    · cases hread

theorem standsIn_endLexeme {last : Option (Lexeme Terminal)} (s : Stack)
    (h : ∀ l, last = some l → l.StandsIn text) :
    (Stop.rejected (rejectionOf s (endLexeme last))).StandsIn text := by
  have hbeginning : (Stop.rejected (rejectionOf s
      ⟨.endOfInput, "", some 1, some 1, none, none⟩)).StandsIn text := by
    rintro failure ⟨⟩
    exact ⟨[], List.nil_prefix, rfl⟩
  unfold endLexeme
  split
  · rename_i l
    split
    · exact hbeginning
    · exact standsIn_rejectionOf s ((h l rfl).borrow _ _)
  · exact hbeginning

theorem Progress.Placed.finish_error (h : p.Placed text) {stop : Stop}
    (hfinish : p.finish = .error stop) : stop.StandsIn text := by
  have hdedents := Layout.standsIn_finish h.lastRead h.margin
  rcases finish_cases p with ⟨_, hfeed, hp⟩ | ⟨_, -, ⟨_, -, hp⟩ | ⟨_, -, hp⟩⟩
  · cases hp.symm.trans hfinish
    exact standsIn_of_feedAll hdedents hfeed
  · cases hp.symm.trans hfinish
  · cases hp.symm.trans hfinish
    refine standsIn_endLexeme _ fun l hl => ?_
    rcases Option.or_eq_some_iff.mp hl with hl | ⟨-, hl⟩
    · exact hdedents l (List.mem_of_getLast? hl)
    · exact h.lastFed l hl

/-- Wherever a run stops, it stops at a position of the text. -/
theorem Runs.standsIn {ls : List (Lexeme Terminal)} {result : Except Stop Tree} {stop : Stop}
    (h : Runs p ls result) (hp : p.Sound text before) (hplaced : p.Placed text)
    (hresult : result = .error stop) : stop.StandsIn text := by
  induction h generalizing before with
  | finished => exact hplaced.finish_error hresult
  | @step p q l ls result first _ ih =>
      obtain ⟨_, -, -, htext, hq, -⟩ := hp.step first
      obtain ⟨behind, hnext, hread⟩ := first
      have hl : l.StandsIn text := (Lexer.next_eq_iff.mp hnext).standsIn hp.place
      have hne : l.text ≠ "" := fun hnil => htext (by rw [hnil]; rfl)
      exact ih hq (hplaced.read hl hne hread) hresult
  | stopped found refused =>
      cases hresult
      exact standsIn_of_read ((Lexer.next_eq_iff.mp found).standsIn hp.place) refused
  | misplaced found =>
      cases hresult
      exact standsIn_rejectionOf _ ((Lexer.next_eq_iff.mp found).standsIn hp.place)
  | unreadable found =>
      cases hresult
      rintro failure ⟨⟩
      obtain ⟨place, hplace, rfl⟩ := (Lexer.next_eq_iff.mp found).standsIn hp.place
      exact ⟨place, hplace, Location.ofCoordinates_endOf _ _⟩

end Parser

/-! ### Main result -/

namespace Source

theorem Judged.isIn {mode : Mode} {source : String} {error : ParseError}
    (h : Judged mode source (.error (.invalid error))) :
    error.location.IsIn (complete source.toList) := by
  cases h with
  | @refused stop failure run shape =>
      obtain ⟨ls, hruns⟩ := Parser.run_eq_iff.mp run
      exact hruns.standsIn (Parser.sound_start _ _) (Parser.placed_start _ _) rfl failure shape
  | @string tree l reason run first =>
      obtain ⟨before, after, hpiece, -⟩ := (Parser.pieces_of_run run).exists_piece first.mem
      refine ⟨before, ⟨l.text.toList ++ after, ?_⟩, start_eq hpiece⟩
      rw [hpiece.text, List.append_assoc]

/-- A source has a tree, or an error that is reported at a position of the text that the parser
reads: the one that some initial part of it leads to. -/
theorem parse_ok_or_located (mode : Mode) (source : String) :
    (∃ tree, (parse mode source).result = .ok tree) ∨
      ∃ error before, (parse mode source).result = .error (.invalid error) ∧
        before <+: complete source.toList ∧ error.location = Location.endOf before ∧
        1 ≤ error.location.row ∧ 1 ≤ error.location.column ∧
        error.location ≤ Location.endOf (complete source.toList) := by
  obtain ⟨result, hresult⟩ := exists_judged mode source
  rw [hresult.result_eq]
  rcases result with ⟨error | defect⟩ | tree
  · obtain ⟨before, hbefore, hlocation⟩ := hresult.isIn
    refine .inr ⟨error, before, rfl, hbefore, hlocation, ?_⟩
    rw [hlocation]
    exact ⟨Location.one_le_row _, Location.one_le_column _,
      Location.endOf_le_endOf_of_prefix hbefore⟩
  · exact absurd rfl (hresult.not_defect defect)
  · exact .inl ⟨tree, rfl⟩

end Source

end SyntaxTriage
