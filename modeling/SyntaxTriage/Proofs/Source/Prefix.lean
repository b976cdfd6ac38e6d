import SyntaxTriage.Proofs.Parser.Prefix
import SyntaxTriage.Proofs.Source.Verdict

/-!
Verdicts on the first lines of a source that is valid as a whole. A reader that is fed line by line
relies on them: lines that are refused, but not as incomplete, should never become valid. This holds
with two exceptions. A string between triple quotes that is still open is refused for good, and so
are lines that end where a level of indentation cannot be closed yet, as long as anything but an
indented block may come next.
-/

namespace SyntaxTriage.Source

theorem complete_of_wholeLines {source : List Char} (h : Lexer.WholeLines source) :
    complete source = source :=
  if_pos h

theorem exists_complete_append (source more : List Char) :
    ∃ b, complete (source ++ more) = source ++ b := by
  unfold complete
  split
  · exact ⟨more, rfl⟩
  · exact ⟨more ++ ['\n'], List.append_assoc source more ['\n']⟩

/-- More input may make the source valid, as far as the verdict on it tells. -/
def MayContinue (mode : Mode) (source : String) : Prop :=
  (∃ tree, (parse mode source).result = .ok tree) ∨
    ∃ error, (parse mode source).result = .error (.invalid error) ∧
      error.reason.isIncomplete = true

theorem mayContinue_of_rejected {mode : Mode} {source : String} {rejection : Rejection}
    (h : Parser.run mode.entry (complete source.toList) = .error (.rejected rejection)) :
    MayContinue mode source ↔ rejection.isIncomplete = true := by
  have hparse := judged_iff.mpr (Judged.refused h rfl)
  rw [MayContinue, hparse]
  constructor
  · rintro (⟨tree, htree⟩ | ⟨error, herror, hincomplete⟩)
    · cases htree
    · cases herror
      rwa [Rejection.reason_toFailure] at hincomplete
  · intro hincomplete
    refine .inr ⟨_, rfl, ?_⟩
    rwa [Rejection.reason_toFailure]

/-- The parser and the strings of a source that is valid. -/
theorem run_of_ok {mode : Mode} {source : String} {tree : Tree}
    (h : (parse mode source).result = .ok tree) :
    Parser.run mode.entry (complete source.toList) = .ok tree ∧ ∀ l ∈ stringsIn tree, Sound l := by
  cases judged_iff.mp h with
  | valid run strings => exact ⟨run, strings⟩

/-- A line with nothing but a string between triple quotes is valid if the string is. -/
theorem parse_literal {source : String} {body word behind : List Char} {q : Char}
    (hsource : source.toList = body ++ ['\n']) (h : Lexer.Triple source.toList word q behind)
    (hlong : Lexer.longString source.toList = some ['\n']) (hsound : Sound (Parser.literalOf body)) :
    ∃ tree, (parse .program source).result = .ok tree := by
  rw [hsource] at h hlong
  obtain ⟨tree, hrun, hstrings⟩ := Parser.run_literal ⟨h, hlong⟩
  have hcomplete : complete source.toList = body ++ ['\n'] := by
    rw [hsource]
    exact complete_of_wholeLines (Lexer.WholeLines.singleton.append_left body)
  rw [← hcomplete] at hrun
  refine ⟨tree, judged_iff.mpr (.valid hrun fun l hl => ?_)⟩
  rw [stringsIn, hstrings, List.mem_singleton] at hl
  rw [hl]
  exact hsound

/-- Lines that begin with a string between triple quotes and do not end it are refused for good. -/
theorem not_mayContinue_of_open {mode : Mode} {source : String} {behind : List Char} {q : Char}
    (hlines : Lexer.WholeLines source.toList) (h : Lexer.Triple source.toList [] q behind)
    (hlong : Lexer.longString source.toList = none) : ¬MayContinue mode source := by
  let p := Parser.Progress.start mode.entry source.toList
  have hfound := @Lexer.Triple.finds_unreadable p.cursor behind q h hlong
    (Parser.candidates p.stack.state ∪ Lexer.always)
  have hrun := Parser.run_eq_iff.mpr ⟨_, .unreadable (Lexer.next_eq_iff.mpr hfound)⟩
  rw [← complete_of_wholeLines hlines] at hrun
  rw [mayContinue_of_rejected hrun, Rejection.not_isIncomplete_character]
  exact Bool.false_ne_true

/-- Lines at the beginning of a valid source are valid or refused as incomplete, unless they leave
a string between triple quotes open, or end where a level of indentation cannot be closed and
something else than an indented block may come. -/
theorem mayContinue_iff {mode : Mode} {source more : String} {tree : Tree}
    (hlines : Lexer.WholeLines source.toList)
    (hwhole : (parse mode (source ++ more)).result = .ok tree) :
    MayContinue mode source ↔
      ¬Parser.MeetsOpenString (.start mode.entry source.toList) ∧
        ¬Parser.RefusesDedent mode.entry source.toList := by
  obtain ⟨hrun', hsound⟩ := run_of_ok hwhole
  obtain ⟨b, hb⟩ := exists_complete_append source.toList more.toList
  rw [String.toList_append, hb] at hrun'
  obtain ⟨ls', hruns'⟩ := Parser.run_eq_iff.mp hrun'
  obtain ⟨result, hresult⟩ : ∃ result, Parser.run mode.entry source.toList = result := ⟨_, rfl⟩
  have hcomplete : Parser.run mode.entry (complete source.toList) = result := by
    rw [complete_of_wholeLines hlines, hresult]
  obtain ⟨ls, hruns⟩ := Parser.run_eq_iff.mp hresult
  have hstart := Parser.sound_start mode.entry source.toList
  rcases hruns.of_extend (b := b) hruns' hstart hlines with
    ⟨hmeets, rejection, rfl, hfinal⟩ | ⟨hmeets, hend, others, hothers⟩
  · rw [mayContinue_of_rejected hcomplete, hfinal]
    simp [hmeets]
  · cases hend with
    | read found =>
        refine iff_of_true (.inl ⟨found, judged_iff.mpr (.valid hcomplete fun l hl => ?_)⟩)
          ⟨hmeets, ?_⟩
        · -- the strings of the first lines are among those of the whole source
          have hfound := hruns.strings hstart
          have htree := hruns'.strings (Parser.sound_start mode.entry (source.toList ++ b))
          refine hsound l ?_
          rw [stringsIn, hfound] at hl
          rw [stringsIn, htree, hothers, ← List.append_assoc]
          exact List.mem_append_left others hl
        · rintro ⟨s, l, hrun, -⟩
          rw [hresult] at hrun
          cases hrun
    | refused s hl =>
        rw [mayContinue_of_rejected hcomplete,
          Parser.isIncomplete_iff_not_refusesDedent hresult hl]
        exact (and_iff_right hmeets).symm

theorem exists_parse_quotes :
    ∃ tree, (parse .program ("\"\"\"\n" ++ "\"\"\"\n")).result = .ok tree := by
  have htriple : Lexer.Triple ("\"\"\"\n" ++ "\"\"\"\n").toList [] '"' "\n\"\"\"\n".toList :=
    ⟨rfl, rfl, rfl, by simp⟩
  have hsound : Sound (Parser.literalOf "\"\"\"\n\"\"\"".toList) := .plain rfl rfl
  exact parse_literal rfl htriple rfl hsound

/-- What the verdict on the first of two lines with quotes depends on. -/
theorem mayContinue_iff_quotes :
    Lexer.WholeLines "\"\"\"\n".toList ∧
      ∃ tree, (parse .program ("\"\"\"\n" ++ "\"\"\"\n")).result = .ok tree ∧
        (MayContinue .program "\"\"\"\n" ↔
          ¬Parser.MeetsOpenString (.start Mode.program.entry "\"\"\"\n".toList) ∧
            ¬Parser.RefusesDedent Mode.program.entry "\"\"\"\n".toList) := by
  obtain ⟨tree, htree⟩ := exists_parse_quotes
  exact ⟨rfl, tree, htree, mayContinue_iff rfl htree⟩

/-- The first line is refused for good, although the second one ends the string. -/
theorem not_mayContinue_quotes :
    Lexer.WholeLines "\"\"\"\n".toList ∧
      (∃ tree, (parse .program ("\"\"\"\n" ++ "\"\"\"\n")).result = .ok tree) ∧
        ¬MayContinue .program "\"\"\"\n" := by
  have htriple : Lexer.Triple "\"\"\"\n".toList [] '"' ['\n'] := ⟨rfl, rfl, rfl, by simp⟩
  exact ⟨rfl, exists_parse_quotes, not_mayContinue_of_open rfl htriple rfl⟩

end SyntaxTriage.Source
