import SyntaxTriage.Proofs.Lexer.OpenString
import SyntaxTriage.Proofs.Parser.Rejection
import SyntaxTriage.Proofs.Parser.Run

/-!
Runs on the first lines of a text that can be read as a whole. Such a run goes the way of the run on
the whole text to the end of its lines, unless they open a string that they do not end. At the end
it closes the levels of indentation; so it succeeds, or the input ends too early, or a level cannot
be closed yet.
-/

namespace SyntaxTriage.Parser

open Grammar

-- the bound on reductions is a large number that nothing here should compute
attribute [local irreducible] Stack.settle

def Progress.extend (p : Progress) (b : List Char) : Progress :=
  { p with cursor := p.cursor.extend b }

theorem read_extend (p : Progress) (l : Lexeme Terminal) (behind : Lexer.Cursor) (b : List Char) :
    (p.extend b).read l (behind.extend b) = (p.read l behind).map (·.extend b) := by
  unfold Progress.read
  simp only [Progress.extend]
  cases feedAll p.stack (p.layout.read tabSize l).emitted with
  | error rejection => rfl
  | ok stack => cases (p.layout.read tabSize l).next <;> rfl

/-! ### Runs that succeed -/

theorem Steps.unique {p q q' : Progress} {l l' : Lexeme Terminal} (h : Steps p l q)
    (h' : Steps p l' q') : l = l' ∧ q = q' := by
  obtain ⟨behind, hnext, hread⟩ := h
  obtain ⟨behind', hnext', hread'⟩ := h'
  rw [hnext] at hnext'
  cases hnext'
  rw [hread] at hread'
  exact ⟨rfl, Except.ok.inj hread'⟩

/-- A run that succeeds goes on over what the lexer finds. -/
theorem Runs.exists_step {p : Progress} {ls : List (Lexeme Terminal)} {tree : Tree}
    (h : Runs p ls (.ok tree)) {found : Lexer.Next}
    (hnext : Lexer.next (candidates p.stack.state) p.cursor = found) :
    ¬found.IsFailure ∧ ∀ l behind, found = .lexeme l behind →
      ∃ q rest, p.read l behind = .ok q ∧ ls = l :: rest ∧ Runs q rest (.ok tree) := by
  have hcases := h.continues hnext
  cases found with
  | lexeme l behind =>
      refine ⟨fun h => h, fun l' behind' heq => ?_⟩
      cases heq
      rcases hcases with hstep | ⟨stop, -, -, hresult⟩
      · exact hstep
      · cases hresult
  | finished => exact ⟨fun h => h, fun _ _ heq => by cases heq⟩
  | misplaced | unreadable => cases hcases.2

theorem feedAll_eq_error {s : Stack} {ls : List (Lexeme Terminal)} {rejection : Rejection}
    (h : feedAll s ls = .error rejection) : ∃ t, ∃ l ∈ ls, rejection = rejectionOf t l := by
  induction ls generalizing s with
  | nil => cases h
  | cons l ls ih =>
      cases hfeed : s.feed l with
      | ok t =>
          rw [feedAll_cons_of_ok ls hfeed] at h
          obtain ⟨t, k, hk, hrejection⟩ := ih h
          exact ⟨t, k, List.mem_cons_of_mem l hk, hrejection⟩
      | error t =>
          rw [feedAll_cons_of_error ls hfeed] at h
          cases h
          exact ⟨t, l, List.mem_cons_self, rfl⟩

/-! ### Open strings -/

/-- A string between triple quotes comes next that the text does not end. -/
def AtOpenString (p : Progress) : Prop :=
  ∃ c, Lexer.SkipsTo (candidates p.stack.state ∪ Lexer.always) p.cursor c ∧ Lexer.OpensLong c.rest

inductive MeetsOpenString : Progress → Prop
  | here {p : Progress} (opens : AtOpenString p) : MeetsOpenString p
  | later {p q : Progress} {l : Lexeme Terminal} (first : Steps p l q)
      (rest : MeetsOpenString q) : MeetsOpenString p

/-- The result is an error that more input cannot make good. -/
def IsFinal (result : Except Stop Tree) : Prop :=
  ∃ rejection, result = .error (.rejected rejection) ∧ rejection.isIncomplete = false

theorem Runs.isFinal_of_unreadable {p : Progress} {ls : List (Lexeme Terminal)}
    {result : Except Stop Tree} {c : Char} {location : Location} (h : Runs p ls result)
    (hnext : Lexer.next (candidates p.stack.state) p.cursor = .unreadable c location) :
    IsFinal result :=
  ⟨_, (h.continues hnext).2, rfl⟩

theorem isIncomplete_identifier {s : Stack} {l : Lexeme Terminal} (hl : l.kind = .identifier)
    (hs : s.reported ≠ [.indent]) : (rejectionOf s l).isIncomplete = false := by
  rw [← Bool.not_eq_true, isIncomplete_rejectionOf, hl]
  rintro (h | ⟨h, -⟩ | h)
  · cases h
  · cases h
  · exact hs h

theorem feed_eq_error {s t : Stack} {l : Lexeme Terminal} (h : s.feed l = .error t) :
    t = s.settle l.kind := by
  unfold Stack.feed at h
  simp only at h
  split at h
  · cases h
  · exact (Except.error.inj h).symm

/-- A lexeme without a part in layout is handed on as it is. -/
theorem read_other (p : Progress) {l : Lexeme Terminal} (behind : Lexer.Cursor)
    (hl : LayoutKind.role l.kind = .other) :
    p.read l behind = match p.stack.feed l with
      | .ok stack => .ok ⟨behind, p.layout, some l, stack, some l⟩
      | .error s => .error (.rejected (rejectionOf s l)) := by
  have hread : p.layout.read tabSize l = ⟨[l], .ok p.layout⟩ := by
    unfold Layout.read
    simp only [hl]
  cases hfeed : p.stack.feed l with
  | ok stack =>
      exact read_eq_ok_iff.mpr ⟨stack, p.layout, by rw [hread, feedAll_cons_of_ok [] hfeed]; rfl,
        by rw [hread], by rw [hread]; rfl⟩
  | error s =>
      exact read_of_feedAll_error behind (by rw [hread, feedAll_cons_of_error [] hfeed])

/-- The letters in front of the quotes may still be read, but not the quotes. -/
theorem Runs.isFinal_of_letters {p : Progress} {ls : List (Lexeme Terminal)}
    {result : Except Stop Tree} {l : Lexeme Terminal} {behind : Lexer.Cursor}
    (h : Runs p ls result) (hl : l.kind = .identifier)
    (hnext : Lexer.next (candidates p.stack.state) p.cursor = .lexeme l behind)
    (hbehind : ∀ ts, ∃ c location, Lexer.Finds ts behind (.unreadable c location))
    (hreported : ∀ stop, p.read l behind = .error stop →
      (p.stack.settle .identifier).reported ≠ [.indent]) : IsFinal result := by
  rcases h.continues hnext with ⟨q, rest, hread, -, hrest⟩ | ⟨stop, hrefused, -, rfl⟩
  · obtain ⟨c, location, hunreadable⟩ := hbehind (candidates q.stack.state ∪ Lexer.always)
    rw [← cursor_of_read hread] at hunreadable
    exact hrest.isFinal_of_unreadable (Lexer.next_eq_iff.mpr hunreadable)
  · have hstop := hreported _ hrefused
    rw [read_other p behind (by rw [hl]; rfl)] at hrefused
    cases hfeed : p.stack.feed l with
    | ok stack =>
        rw [hfeed] at hrefused
        cases hrefused
    | error s =>
        rw [hfeed] at hrefused
        cases hrefused
        rw [feed_eq_error hfeed, hl]
        exact ⟨_, rfl, isIncomplete_identifier hl hstop⟩

theorem Runs.isFinal_of_misplaced {p : Progress} {ls : List (Lexeme Terminal)}
    {result : Except Stop Tree} {l : Lexeme Terminal} (h : Runs p ls result)
    (hl : l.kind = .identifier) (hreported : p.stack.reported ≠ [.indent])
    (hnext : Lexer.next (candidates p.stack.state) p.cursor = .misplaced l) : IsFinal result :=
  ⟨_, (h.continues hnext).2, isIncomplete_identifier hl hreported⟩

/-- A text that opens a string without an end is refused for good, although a longer text can be
read: in this text the string begins where the parser looks for one. -/
theorem Runs.isFinal_of_atOpenString {p : Progress} {ls ls' : List (Lexeme Terminal)}
    {result : Except Stop Tree} {tree : Tree} {b : List Char} (h : Runs p ls result)
    (hwhole : Runs (p.extend b) ls' (.ok tree)) (hp : p.stack.Built)
    (hlines : Lexer.Lines p.cursor.rest) (hopen : AtOpenString p) : IsFinal result := by
  obtain ⟨c, skips, opens⟩ := hopen
  obtain ⟨word, q, rest, htriple, hlong⟩ := opens.exists_triple
  by_cases hword : word = []
  · subst hword
    have hnext := Lexer.next_eq_iff.mpr (skips.finds (htriple.finds_unreadable hlong _))
    exact h.isFinal_of_unreadable hnext
  have hletters (hmem : Terminal.identifier ∈ candidates p.stack.state ∪ Lexer.always) :=
    Lexer.next_eq_iff.mpr (skips.finds (htriple.finds_letters hlong hword hmem))
  -- what the run on the whole text finds at the same place
  obtain ⟨found, hfound⟩ :=
    Lexer.exists_finds (candidates p.stack.state ∪ Lexer.always) (c.extend b)
  have hnext := Lexer.next_eq_iff.mpr ((skips.extend hlines b).finds hfound)
  obtain ⟨hgood, hstep⟩ := hwhole.exists_step hnext
  rcases htriple.finds_extend b hfound with hfailure | ⟨l, behind, rfl, hl⟩ | ⟨-, hmem, rfl⟩
  · exact absurd hfailure hgood
  · -- the string, which the parser takes, so that an indentation is not all that is expected
    obtain ⟨q, rest, hread, -, -⟩ := hstep _ _ rfl
    rw [read_other _ behind (by rw [hl]; rfl)] at hread
    obtain ⟨t, hfeed⟩ : ∃ t, p.stack.feed l = .ok t := by
      cases hfeed : p.stack.feed l with
      | ok t => exact ⟨t, rfl⟩
      | error t =>
          rw [show (p.extend b).stack = p.stack from rfl, hfeed] at hread
          cases hread
    have hmem : l.kind ∈ candidates p.stack.state := by
      refine (BitSet.mem_union.mp hfound.kind_mem).resolve_right ?_
      rw [hl]
      decide
    obtain ⟨hreported, hsettle⟩ := Stack.reported_settle_ne hp hmem (by rw [hl]; decide)
      (by rw [hl]; decide) hfeed .identifier
    by_cases hidentifier : Terminal.identifier ∈ candidates p.stack.state ∪ Lexer.always
    · exact h.isFinal_of_letters rfl (hletters hidentifier) (htriple.behind_unreadable hlong)
        fun _ _ => hsettle
    · exact h.isFinal_of_misplaced rfl hreported (Lexer.next_eq_iff.mpr
        (skips.finds (htriple.finds_misplaced hlong hword hidentifier)))
  · -- the letters, which the parser takes
    refine h.isFinal_of_letters rfl (hletters hmem) (htriple.behind_unreadable hlong) ?_
    intro stop hstop
    obtain ⟨q, rest, hread, -, -⟩ := hstep _ _ rfl
    rw [read_extend, hstop] at hread
    cases hread

/-! ### The end of the lines -/

/-- The parser reads the text to its end, up to the line break that ends it at least. -/
inductive ReadsAll : Progress → Prop
  | finished {p : Progress}
      (found : Lexer.next (candidates p.stack.state) p.cursor = .finished) : ReadsAll p
  | lineEnd {p : Progress} {l : Lexeme Terminal} {behind : Lexer.Cursor}
      (found : Lexer.next (candidates p.stack.state) p.cursor = .lexeme l behind)
      (kind : l.kind = .newline) (last : behind.rest = []) : ReadsAll p
  | step {p q : Progress} {l : Lexeme Terminal} (first : Steps p l q) (rest : ReadsAll q) :
      ReadsAll p

/-- The text is read to its end: there it has a tree, or the end comes too early, or it comes where
a level of indentation cannot be closed. -/
inductive ReachesEnd (p : Progress) : Except Stop Tree → Prop
  | read (tree : Tree) : ReachesEnd p (.ok tree)
  | refused (s : Stack) {l : Lexeme Terminal} (kind : l.kind = .endOfInput ∨ l.kind = .dedent)
      (all : ReadsAll p) : ReachesEnd p (.error (.rejected (rejectionOf s l)))

theorem ReachesEnd.step {p q : Progress} {l : Lexeme Terminal} {result : Except Stop Tree}
    (h : ReachesEnd q result) (first : Steps p l q) : ReachesEnd p result := by
  cases h with
  | read tree => exact .read tree
  | refused s kind all => exact .refused s kind (.step first all)

theorem reachesEnd_finish {p : Progress}
    (found : Lexer.next (candidates p.stack.state) p.cursor = .finished) :
    ReachesEnd p p.finish := by
  rcases finish_cases p with ⟨rejection, hfeed, hp⟩ | ⟨_, -, ⟨tree, -, hp⟩ | ⟨s, -, hp⟩⟩
  · obtain ⟨t, l, hl, rfl⟩ := feedAll_eq_error hfeed
    rw [hp]
    exact .refused t (.inr (kind_of_mem_finish hl)) (.finished found)
  · rw [hp]
    exact .read tree
  · rw [hp]
    exact .refused s (.inl (kind_endLexeme _)) (.finished found)

/-- The line break at the end of the lines is read if a line break can be read at all. Only the
levels that it closes may be refused. -/
theorem read_lineEnd {p q : Progress} {l l' : Lexeme Terminal} {behind' : Lexer.Cursor}
    (behind : Lexer.Cursor) (hl : l.kind = .newline) (hend : Lexer.WholeLines l.text.toList)
    (hmargin : 0 ∈ p.layout.levels) (hl' : l'.kind = .newline)
    (hread : p.read l' behind' = .ok q) :
    (∃ q', p.read l behind = .ok q') ∨
      ∃ s d, d.kind = .dedent ∧ p.read l behind = .error (.rejected (rejectionOf s d)) := by
  obtain ⟨stack, layout, hfeed, hlayout, -⟩ := read_eq_ok_iff.mp hread
  by_cases hbrackets : p.layout.brackets = 0
  · obtain ⟨dedents, layout', hread', hdedents, -⟩ :=
      @Layout.read_lineEnd tabSize _ _ (by decide) hl hend hmargin hbrackets
    obtain ⟨rest, hemitted⟩ := Layout.emitted_newline hl' hbrackets hlayout
    rw [hemitted] at hfeed
    obtain ⟨t', ht', -⟩ := feedAll_cons_eq_ok hfeed
    -- whether a lexeme can be read depends on its kind
    obtain ⟨t, ht⟩ : ∃ t, p.stack.feed l = .ok t := by
      have hok := Stack.isOk_feed p.stack l
      rw [hl, ← hl', ← Stack.isOk_feed, ht'] at hok
      cases hfeedl : p.stack.feed l with
      | ok t => exact ⟨t, rfl⟩
      | error t =>
          rw [hfeedl] at hok
          cases hok
    have hemitted' : feedAll p.stack (p.layout.read tabSize l).emitted = feedAll t dedents := by
      rw [hread', feedAll_cons_of_ok dedents ht]
    cases hall : feedAll t dedents with
    | ok stack =>
        exact .inl ⟨_, read_eq_ok_iff.mpr ⟨stack, layout', hemitted'.trans hall, by rw [hread'],
          rfl⟩⟩
    | error rejection =>
        obtain ⟨s, d, hd, rfl⟩ := feedAll_eq_error hall
        exact .inr ⟨s, d, hdedents d hd, read_of_feedAll_error behind (hemitted'.trans hall)⟩
  · left
    unfold Progress.read
    rw [Layout.read_newline (Layout.role_eq_newline_iff.mpr hl), Layout.readNewline,
      if_pos (Nat.pos_of_ne_zero hbrackets)]
    exact ⟨_, rfl⟩

theorem not_atOpenString_of_nil {p : Progress} (h : p.cursor.rest = []) : ¬AtOpenString p := by
  rintro ⟨c, skips, opens⟩
  cases skips with
  | here =>
      obtain ⟨word, q, behind, htriple, -⟩ := opens.exists_triple
      obtain ⟨c, rest, htext, -⟩ := htriple.exists_cons
      rw [h] at htext
      cases htext
  | skip first =>
      rw [h, Lexer.first?_nil] at first
      cases first

/-- No string comes at the end of the lines. -/
theorem not_meetsOpenString {p : Progress} (hopen : ¬AtOpenString p)
    (hend : ∀ l q, Steps p l q → q.cursor.rest = []) : ¬MeetsOpenString p := by
  intro h
  cases h with
  | here opens => exact hopen opens
  | @later _ q l first rest =>
      have hnil := hend l q first
      cases rest with
      | here opens => exact not_atOpenString_of_nil hnil opens
      | later second =>
          obtain ⟨behind, hnext, -⟩ := second
          have hlength := length_of_next hnext
          rw [hnil] at hlength
          exact absurd hlength (Nat.not_lt_zero _)

/-- Behind the line break at the end of the lines the run is at its end. -/
theorem Runs.reachesEnd_of_lineEnd {p : Progress} {ls : List (Lexeme Terminal)}
    {result : Except Stop Tree} {l : Lexeme Terminal} {behind : Lexer.Cursor}
    (h : Runs p ls result) (hl : l.kind = .newline) (hnil : behind.rest = [])
    (hnext : Lexer.next (candidates p.stack.state) p.cursor = .lexeme l behind)
    (hread : (∃ q, p.read l behind = .ok q) ∨
      ∃ s d, d.kind = .dedent ∧ p.read l behind = .error (.rejected (rejectionOf s d))) :
    ReachesEnd p result ∧ ls.filter Source.isString = [] := by
  have hstring : Source.isString l = false := by simp [Source.isString, hl]
  rcases h.continues hnext with ⟨q, rest, hq, rfl, hrest⟩ | ⟨stop, hstop, rfl, rfl⟩
  · have hfinished : Lexer.next (candidates q.stack.state) q.cursor = .finished := by
      refine Lexer.next_eq_iff.mpr (.finished ?_)
      rw [cursor_of_read hq, hnil]
    obtain ⟨rfl, rfl⟩ := hrest.continues hfinished
    exact ⟨(reachesEnd_finish hfinished).step ⟨behind, hnext, hq⟩, by simp [hstring]⟩
  · rcases hread with ⟨q, hq⟩ | ⟨s, d, hd, hrejected⟩
    · rw [hstop] at hq
      cases hq
    · rw [hstop] at hrejected
      cases hrejected
      exact ⟨.refused s (.inr hd) (.lineEnd hnext hl hnil), rfl⟩

theorem MeetsOpenString.of_step {p q : Progress} {l : Lexeme Terminal} (h : MeetsOpenString p)
    (hopen : ¬AtOpenString p) (hstep : Steps p l q) : MeetsOpenString q := by
  cases h with
  | here opens => exact absurd opens hopen
  | later first rest =>
      obtain ⟨-, rfl⟩ := first.unique hstep
      exact rest

/-- How a run on the first lines of a text compares with a run on the whole text, which reads the
lexemes `ls'`. -/
def Compares (p : Progress) (ls ls' : List (Lexeme Terminal)) (result : Except Stop Tree) : Prop :=
  MeetsOpenString p ∧ IsFinal result ∨
    ¬MeetsOpenString p ∧ ReachesEnd p result ∧
      ∃ more, ls'.filter Source.isString = ls.filter Source.isString ++ more

theorem Compares.step {p q : Progress} {l : Lexeme Terminal} {ls ls' : List (Lexeme Terminal)}
    {result : Except Stop Tree} (h : Compares q ls ls' result) (hopen : ¬AtOpenString p)
    (hstep : Steps p l q) : Compares p (l :: ls) (l :: ls') result := by
  rcases h with ⟨hmeets, hfinal⟩ | ⟨hmeets, hend, more, hmore⟩
  · exact .inl ⟨.later hstep hmeets, hfinal⟩
  · refine .inr ⟨fun hp => hmeets (hp.of_step hopen hstep), hend.step hstep, more, ?_⟩
    rw [List.filter_cons, List.filter_cons, hmore]
    split <;> rfl

/-- One lexeme that is the same in the whole text. -/
theorem Runs.exists_step_extend {p : Progress} {ls ls' : List (Lexeme Terminal)}
    {result : Except Stop Tree} {tree : Tree} {b : List Char} {l : Lexeme Terminal}
    {behind : Lexer.Cursor} (h : Runs p ls result) (hwhole : Runs (p.extend b) ls' (.ok tree))
    (hnext : Lexer.next (candidates p.stack.state) p.cursor = .lexeme l behind)
    (hsame : Lexer.Finds (candidates p.stack.state ∪ Lexer.always) (p.cursor.extend b)
      (.lexeme l (behind.extend b))) :
    ∃ q rest rest', Steps p l q ∧ ls = l :: rest ∧ ls' = l :: rest' ∧ Runs q rest result ∧
      Runs (q.extend b) rest' (.ok tree) := by
  obtain ⟨q', rest', hread', rfl, hwhole'⟩ :=
    (hwhole.exists_step (Lexer.next_eq_iff.mpr hsame)).2 _ _ rfl
  rw [read_extend] at hread'
  rcases h.continues hnext with ⟨q, rest, hread, rfl, hrest⟩ | ⟨stop, hstop, -, -⟩
  · rw [hread] at hread'
    cases hread'
    exact ⟨q, rest, rest', ⟨behind, hnext, hread⟩, rfl, rfl, hrest, hwhole'⟩
  · rw [hstop] at hread'
    cases hread'

/-- The run on the first lines of a text that can be read. -/
theorem Runs.of_extend {p : Progress} {ls ls' : List (Lexeme Terminal)}
    {result : Except Stop Tree} {tree : Tree} {b text before : List Char} (h : Runs p ls result)
    (hwhole : Runs (p.extend b) ls' (.ok tree)) (hp : p.Sound text before)
    (hlines : Lexer.WholeLines text) : Compares p ls ls' result := by
  induction hlength : p.cursor.rest.length using Nat.strong_induction_on
    generalizing p ls ls' before with
  | _ length ih =>
      have hrest : Lexer.Lines p.cursor.rest := by
        by_cases hnil : p.cursor.rest = []
        · exact .inl hnil
        · rw [hp.place.text] at hlines
          exact .inr (hlines.of_append hnil)
      by_cases hopen : AtOpenString p
      · exact .inl ⟨.here hopen, h.isFinal_of_atOpenString hwhole hp.built hrest hopen⟩
      obtain ⟨found, hfound⟩ :=
        Lexer.exists_finds (candidates p.stack.state ∪ Lexer.always) p.cursor
      have hnext := Lexer.next_eq_iff.mpr hfound
      have hextend := hfound.extend b hrest fun c skips opens => hopen ⟨c, skips, opens⟩
      cases found with
      | finished =>
          obtain ⟨rfl, rfl⟩ := h.continues hnext
          refine .inr ⟨not_meetsOpenString hopen ?_, reachesEnd_finish hnext, _, rfl⟩
          rintro l q ⟨behind, hfirst, -⟩
          rw [hnext] at hfirst
          cases hfirst
      | misplaced | unreadable =>
          obtain ⟨failure, hfailure, hgives⟩ := hextend
          exact absurd hgives (hwhole.exists_step (Lexer.next_eq_iff.mpr hfailure)).1
      | lexeme l behind =>
          obtain ⟨-, hsame | ⟨hl, hnil, l', behind', hl', hlonger⟩⟩ := hextend
          · obtain ⟨q, rest, rest', hstep, rfl, rfl, hruns, hwhole'⟩ :=
              h.exists_step_extend hwhole hnext hsame
            obtain ⟨_, -, -, -, hsound, -⟩ := hp.step hstep
            refine (ih q.cursor.rest.length ?_ hruns hwhole' hsound rfl).step hopen hstep
            obtain ⟨behind, hfirst, hread⟩ := hstep
            rw [cursor_of_read hread, ← hlength]
            exact length_of_next hfirst
          · -- the line break at the end of the lines, which may go on in the whole text
            obtain ⟨q', _, hread', -, -⟩ :=
              (hwhole.exists_step (Lexer.next_eq_iff.mpr hlonger)).2 _ _ rfl
            obtain ⟨skipped, hpiece, -, htext, -⟩ := hfound.piece hp.place
            have hend : Lexer.WholeLines l.text.toList := by
              rw [hpiece.text, hnil, List.append_nil] at hlines
              exact hlines.of_append htext
            have hread := read_lineEnd behind hl hend hp.margin hl' hread'
            obtain ⟨hends, hstrings⟩ := h.reachesEnd_of_lineEnd hl hnil hnext hread
            refine .inr ⟨not_meetsOpenString hopen ?_, hends, _, by rw [hstrings]; rfl⟩
            rintro k q ⟨behind, hfirst, hq⟩
            rw [hnext] at hfirst
            cases hfirst
            rw [cursor_of_read hq, hnil]

/-- At its end the text is refused for a level of indentation that cannot be closed, although an
indented block is not all that may come. -/
def RefusesDedent (entry : Nonterminal) (text : List Char) : Prop :=
  ∃ s l, run entry text = .error (.rejected (rejectionOf s l)) ∧ l.kind = .dedent ∧
    s.reported ≠ [.indent]

/-- A text that is refused at its end counts as incomplete unless it is refused for a level of
indentation. -/
theorem isIncomplete_iff_not_refusesDedent {entry : Nonterminal} {text : List Char} {s : Stack}
    {l : Lexeme Terminal} (h : run entry text = .error (.rejected (rejectionOf s l)))
    (hl : l.kind = .endOfInput ∨ l.kind = .dedent) :
    (rejectionOf s l).isIncomplete = true ↔ ¬RefusesDedent entry text := by
  constructor
  · rintro hincomplete ⟨s', l', hrun, hl', hreported⟩
    rw [h] at hrun
    rw [Stop.rejected.inj (Except.error.inj hrun), isIncomplete_rejectionOf, hl'] at hincomplete
    rcases hincomplete with hkind | ⟨hkind, -⟩ | hindent
    · cases hkind
    · cases hkind
    · exact hreported hindent
  · intro hno
    rw [isIncomplete_rejectionOf]
    rcases hl with hl | hl
    · exact .inl hl
    · right
      right
      by_contra hreported
      exact hno ⟨s, l, h, hl, hreported⟩

end SyntaxTriage.Parser
