import SyntaxTriage.Proofs.Parser.Literal
import SyntaxTriage.Proofs.Reason
import SyntaxTriage.Proofs.Source.Nesting

/-!
The verdict on a source. A source is refused by the parser, or for the first of its strings that is
malformed or holds a malformed expression, and for nothing else: what the parts of the library must
never do to each other, they do not do. `Sound` and `RefusedFor` say of one string whether it has
anything against it; they speak of `parse` itself for the expressions in it.
-/

namespace SyntaxTriage

namespace Traced

variable {ε ε' α β : Type}

theorem result_bind (x : Traced ε α) (f : α → Traced ε β) :
    (x >>= f).result = x.result.bind fun a => (f a).result := by
  change (Traced.bind x f).result = _
  unfold Traced.bind
  cases x.result <;> rfl

theorem result_handle (x : Traced ε α) (onError : ε → Traced ε' β) (onOk : α → Traced ε' β) :
    (x.handle onError onOk).result =
      match x.result with
      | .ok a => (onOk a).result
      | .error e => (onError e).result := by
  unfold handle
  cases x.result <;> rfl

/-- A check of one element after the other succeeds if all of them do. -/
theorem result_forM_ok {f : α → Traced ε Unit} {xs : List α}
    (h : ∀ x ∈ xs, (f x).result = .ok ()) : (xs.forM f).result = .ok () := by
  induction xs with
  | nil => rfl
  | cons x xs ih =>
      change (f x >>= fun _ => xs.forM f).result = _
      rw [result_bind, h x List.mem_cons_self]
      exact ih fun y hy => h y (List.mem_cons_of_mem x hy)

/-- The first element that is refused decides. -/
theorem result_forM_error {f : α → Traced ε Unit} {before after : List α} {x : α} {e : ε}
    (hbefore : ∀ y ∈ before, (f y).result = .ok ()) (hx : (f x).result = .error e) :
    ((before ++ x :: after).forM f).result = .error e := by
  induction before with
  | nil =>
      change (f x >>= fun _ => after.forM f).result = _
      rw [result_bind, hx]
      rfl
  | cons y before ih =>
      change (f y >>= fun _ => (before ++ x :: after).forM f).result = _
      rw [result_bind, hbefore y List.mem_cons_self]
      exact ih fun z hz => hbefore z (List.mem_cons_of_mem y hz)

end Traced

/-- Either all elements are good, or there is a first one that is bad. -/
theorem forall_or_exists_first {α : Type} {good bad : α → Prop} {xs : List α}
    (h : ∀ x ∈ xs, good x ∨ bad x) :
    (∀ x ∈ xs, good x) ∨
      ∃ before x after, xs = before ++ x :: after ∧ (∀ y ∈ before, good y) ∧ bad x := by
  induction xs with
  | nil => exact .inl (by simp)
  | cons x xs ih =>
      rcases h x List.mem_cons_self with hgood | hbad
      · rcases ih fun y hy => h y (List.mem_cons_of_mem x hy) with hall |
          ⟨before, y, after, rfl, hbefore, hy⟩
        · exact .inl (List.forall_mem_cons.mpr ⟨hgood, hall⟩)
        · exact .inr ⟨x :: before, y, after, rfl, List.forall_mem_cons.mpr ⟨hgood, hbefore⟩, hy⟩
      · exact .inr ⟨[], x, xs, rfl, by simp, hbad⟩

namespace Source

def verdictOn (expression : List Char) : Except Halt Tree :=
  (parse .statement (String.ofList (parenthesized expression))).result

/-- Nothing can be said against the string: it is no format string, or one whose expressions can all
be read. -/
inductive Sound (l : Lexeme Terminal) : Prop
  | plain {literal : StringLiteral} (taken : StringLiteral.ofText? l.text.toList = some literal)
      (format : literal.isFormat = false) : Sound l
  | format {es : List (List Char)} (found : Interpolates l es)
      (valid : ∀ e ∈ es, ∃ tree, verdictOn e = .ok tree) : Sound l

/-- Why the string is refused: its fields are malformed, or else the first expression that cannot be
read is. -/
inductive RefusedFor (l : Lexeme Terminal) : FStringReason → Prop
  | scan {literal : StringLiteral} {reason : FStringReason}
      (taken : StringLiteral.ofText? l.text.toList = some literal)
      (format : literal.isFormat = true)
      (malformed : FString.scan literal.body (start l) = .error ⟨reason, start l⟩) :
      RefusedFor l reason
  | expression {before after : List (List Char)} {e : List Char} {error : ParseError}
      (found : Interpolates l (before ++ e :: after))
      (valid : ∀ d ∈ before, ∃ tree, verdictOn d = .ok tree)
      (invalid : verdictOn e = .error (.invalid error)) :
      RefusedFor l (.invalidExpression error.reason)

def errorAt (l : Lexeme Terminal) (reason : FStringReason) : ParseError :=
  ⟨.lexical (.formatString reason), start l⟩

/-! ### One string -/

section

variable {read : Reader} {l : Lexeme Terminal}

def Agrees (read : Reader) (l : Lexeme Terminal) : Prop :=
  ∀ es, Interpolates l es → ∀ e ∈ es, (read (parenthesized e)).result = verdictOn e

theorem result_checkExpression {location : Location} {e : List Char}
    (h : (read (parenthesized e)).result = verdictOn e) :
    (checkExpression read location e).result =
      match verdictOn e with
      | .ok _ => .ok ()
      | .error (.invalid error) => .error (.failure
          (FStringError.toFailure ⟨.invalidExpression error.reason, location⟩))
      | .error (.defect defect) => .error (.defect defect) := by
  rw [checkExpression, Traced.result_handle, h]
  cases verdictOn e with
  | ok tree => rfl
  | error halt => cases halt <;> rfl

theorem checkString_eq {literal : StringLiteral}
    (h : StringLiteral.ofText? l.text.toList = some literal) :
    checkString read l =
      if literal.isFormat then
        match FString.scan literal.body (start l) with
        | .error error => .ofExcept (.error (.failure error.toFailure))
        | .ok expressions => expressions.forM (checkExpression read (start l))
      else .ofExcept (.ok ()) := by
  rw [checkString, h]
  rfl

theorem result_checkString_of_sound (hread : Agrees read l) (h : Sound l) :
    (checkString read l).result = .ok () := by
  cases h with
  | plain taken format =>
      rw [checkString_eq taken, format]
      rfl
  | @format es found valid =>
      obtain ⟨literal, taken, format, hscan⟩ := found
      rw [checkString_eq taken, if_pos format, hscan]
      refine Traced.result_forM_ok fun e he => ?_
      obtain ⟨tree, htree⟩ := valid e he
      rw [result_checkExpression (hread es ⟨literal, taken, format, hscan⟩ e he), htree]

theorem result_checkString_of_refusedFor {reason : FStringReason} (hread : Agrees read l)
    (h : RefusedFor l reason) :
    (checkString read l).result = .error (.failure (FStringError.toFailure ⟨reason, start l⟩)) := by
  cases h with
  | scan taken format malformed =>
      rw [checkString_eq taken, if_pos format, malformed]
      rfl
  | @expression before after e error found valid invalid =>
      have hread' := hread _ found
      obtain ⟨literal, taken, format, hscan⟩ := found
      rw [checkString_eq taken, if_pos format, hscan]
      refine Traced.result_forM_error (fun d hd => ?_) ?_
      · obtain ⟨tree, htree⟩ := valid d hd
        rw [result_checkExpression (hread' d (by simp [hd])), htree]
      · rw [result_checkExpression (hread' e (by simp)), invalid]

end

/-- The scanner reports every error at the location that it is given. -/
theorem scan_error {body : List Char} {location : Location} {error : FStringError}
    (h : FString.scan body location = .error error) : error = ⟨error.reason, location⟩ := by
  unfold FString.scan at h
  cases hscan : FString.scanFrom .text body with
  | ok es =>
      rw [hscan] at h
      cases h
  | error reason =>
      rw [hscan] at h
      cases h
      rfl

theorem sound_or_refusedFor {l : Lexeme Terminal} (hquote : ∃ q ∈ l.text.toList, Lexer.isQuote q = true)
    (hread : ∀ es, Interpolates l es → ∀ e ∈ es, ∀ defect, verdictOn e ≠ .error (.defect defect)) :
    Sound l ∨ ∃ reason, RefusedFor l reason := by
  cases hliteral : StringLiteral.ofText? l.text.toList with
  | none =>
      exfalso
      obtain ⟨q, hq, hquote⟩ := hquote
      unfold StringLiteral.ofText? at hliteral
      split at hliteral
      · rename_i hnil
        rw [List.dropWhile_eq_nil_iff] at hnil
        have hplain := hnil q hq
        rw [show StringLiteral.isQuote q = true from hquote] at hplain
        contradiction
      · contradiction
  | some literal =>
      cases hformat : literal.isFormat with
      | false => exact .inl (.plain hliteral hformat)
      | true =>
          cases hscan : FString.scan literal.body (start l) with
          | error error =>
              rw [scan_error hscan] at hscan
              exact .inr ⟨_, .scan hliteral hformat hscan⟩
          | ok es =>
              have hes : Interpolates l es := ⟨literal, hliteral, hformat, hscan⟩
              have hall : ∀ e ∈ es, (∃ tree, verdictOn e = .ok tree) ∨
                  ∃ error, verdictOn e = .error (.invalid error) := by
                intro e he
                cases hverdict : verdictOn e with
                | ok tree => exact .inl ⟨tree, rfl⟩
                | error halt =>
                    cases halt with
                    | invalid error => exact .inr ⟨error, rfl⟩
                    | defect defect => exact absurd hverdict (hread es hes e he defect)
              rcases forall_or_exists_first hall with hvalid |
                ⟨before, e, after, rfl, hbefore, error, herror⟩
              · exact .inl (.format hes hvalid)
              · exact .inr ⟨_, .expression hes hbefore herror⟩

/-! ### The whole source -/

def stringsIn (tree : Tree) : List (Lexeme Terminal) := tree.leaves.filter isString

def FirstRefused (strings : List (Lexeme Terminal)) (l : Lexeme Terminal)
    (reason : FStringReason) : Prop :=
  ∃ before after, strings = before ++ l :: after ∧ (∀ k ∈ before, Sound k) ∧ RefusedFor l reason

theorem FirstRefused.mem {strings : List (Lexeme Terminal)} {l : Lexeme Terminal}
    {reason : FStringReason} (h : FirstRefused strings l reason) : l ∈ strings := by
  obtain ⟨before, after, rfl, -⟩ := h
  simp

inductive Judged (mode : Mode) (source : String) : Except Halt Tree → Prop
  | refused {stop : Parser.Stop} {failure : Failure}
      (run : Parser.run mode.entry (complete source.toList) = .error stop)
      (shape : faultOf (complete source.toList) stop = .failure failure) :
      Judged mode source (.error (.invalid failure.toParseError))
  | string {tree : Tree} {l : Lexeme Terminal} {reason : FStringReason}
      (run : Parser.run mode.entry (complete source.toList) = .ok tree)
      (first : FirstRefused (stringsIn tree) l reason) :
      Judged mode source (.error (.invalid (errorAt l reason)))
  | valid {tree : Tree} (run : Parser.run mode.entry (complete source.toList) = .ok tree)
      (strings : ∀ l ∈ stringsIn tree, Sound l) : Judged mode source (.ok tree)

theorem result_parse (mode : Mode) (source : String) :
    (parse mode source).result =
      match (parseOnce (parseWithin source.toList.length .statement) mode source.toList).result with
      | .ok tree => .ok tree
      | .error (.failure failure) => .error (.invalid failure.toParseError)
      | .error (.defect defect) => .error (.defect defect) := by
  rw [parse, parseWithin, conclude, Traced.result_handle]
  cases (parseOnce (parseWithin source.toList.length .statement) mode source.toList).result with
  | ok tree => rfl
  | error fault => cases fault <;> rfl

theorem result_parseOnce_of_error {read : Reader} {mode : Mode} {source : List Char}
    {stop : Parser.Stop} (h : Parser.run mode.entry (complete source) = .error stop) :
    (parseOnce read mode source).result = .error (faultOf (complete source) stop) := by
  rw [parseOnce]
  simp only [h]
  rfl

theorem result_parseOnce_of_ok {read : Reader} {mode : Mode} {source : List Char} {tree : Tree}
    (h : Parser.run mode.entry (complete source) = .ok tree) :
    (parseOnce read mode source).result =
      ((stringsIn tree).forM (checkString read)).result.bind fun _ => .ok tree := by
  rw [parseOnce]
  simp only [h]
  change (checkStrings read tree >>= fun _ => pure tree).result = _
  rw [Traced.result_bind]
  rfl

/-- What stops the parser is never a defect. -/
theorem exists_failure {mode : Mode} {source : List Char} {stop : Parser.Stop}
    (h : Parser.run mode.entry (complete source) = .error stop) :
    ∃ failure, faultOf (complete source) stop = .failure failure := by
  cases stop with
  | rejected rejection => exact ⟨_, rfl⟩
  | fault fault =>
      obtain ⟨error, rfl, -⟩ := Parser.run_fault (wholeLines_complete source) h
      exact ⟨_, rfl⟩

theorem agrees_of_run {mode : Mode} {source : List Char} {tree : Tree}
    (h : Parser.run mode.entry (complete source) = .ok tree) :
    ∀ l ∈ stringsIn tree, Agrees (parseWithin source.length .statement) l := by
  intro l hl es hes e he
  have hlength := Hands.length_lt ⟨tree, l, es, e, h, hl, hes, he, rfl⟩
  rw [verdictOn, parse, String.toList_ofList,
    parseWithin_fuel hlength (Nat.lt_succ_self (parenthesized e).length)]

/-- What the judgement says is what reading the source comes to. -/
theorem Judged.result_eq {mode : Mode} {source : String} {result : Except Halt Tree}
    (h : Judged mode source result) : (parse mode source).result = result := by
  rw [result_parse]
  cases h with
  | refused run shape => rw [result_parseOnce_of_error run, shape]
  | @string tree l reason run first =>
      obtain ⟨before, after, hsplit, hbefore, hreason⟩ := first
      have hagrees := agrees_of_run run
      have hmem : ∀ k ∈ before, k ∈ stringsIn tree := fun k hk => by simp [hsplit, hk]
      have hl : l ∈ stringsIn tree := by simp [hsplit]
      have herror := @Traced.result_forM_error _ _ _ before after l _
        (fun k hk => result_checkString_of_sound (hagrees k (hmem k hk)) (hbefore k hk))
        (result_checkString_of_refusedFor (hagrees l hl) hreason)
      rw [result_parseOnce_of_ok run, hsplit, herror]
      rfl
  | valid run strings =>
      have hok := Traced.result_forM_ok fun l hl =>
        result_checkString_of_sound (agrees_of_run run l hl) (strings l hl)
      rw [result_parseOnce_of_ok run, hok]
      rfl

/-- There is a judgement, if the sources in the source are read without a defect. -/
theorem exists_judged_of_nested {mode : Mode} {source : String}
    (h : ∀ e, (parenthesized e).length < source.toList.length →
      ∀ defect, verdictOn e ≠ .error (.defect defect)) :
    ∃ result, Judged mode source result := by
  cases hrun : Parser.run mode.entry (complete source.toList) with
  | error stop =>
      obtain ⟨failure, hfailure⟩ := exists_failure hrun
      exact ⟨_, .refused hrun hfailure⟩
  | ok tree =>
      have hstrings : ∀ l ∈ stringsIn tree, Sound l ∨ ∃ reason, RefusedFor l reason := by
        intro l hl
        obtain ⟨before, after, -, htaken⟩ := (Parser.pieces_of_run hrun).exists_piece hl
        refine sound_or_refusedFor (htaken.quote_mem (List.mem_filter.mp hl).2) ?_
        exact fun es hes e he => h e (Hands.length_lt ⟨tree, l, es, e, hrun, hl, hes, he, rfl⟩)
      rcases forall_or_exists_first hstrings with hall |
        ⟨before, l, after, hsplit, hbefore, reason, hreason⟩
      · exact ⟨_, .valid hrun hall⟩
      · exact ⟨_, .string hrun ⟨before, after, hsplit, hbefore, hreason⟩⟩

theorem Judged.not_defect {mode : Mode} {source : String} {result : Except Halt Tree}
    (h : Judged mode source result) (defect : Defect) : result ≠ .error (.defect defect) := by
  rintro rfl
  cases h

/-- Every source is judged: by induction on its length, because the sources in it are shorter. -/
theorem exists_judged (mode : Mode) (source : String) : ∃ result, Judged mode source result := by
  generalize hlength : source.toList.length = length
  induction length using Nat.strong_induction_on generalizing mode source with
  | _ length ih =>
      refine exists_judged_of_nested fun e he defect => ?_
      obtain ⟨result, hresult⟩ := ih (parenthesized e).length (hlength ▸ he) .statement
        (String.ofList (parenthesized e)) (by rw [String.toList_ofList])
      rw [verdictOn, hresult.result_eq]
      exact hresult.not_defect defect

theorem judged_iff {mode : Mode} {source : String} {result : Except Halt Tree} :
    (parse mode source).result = result ↔ Judged mode source result := by
  constructor
  · rintro rfl
    obtain ⟨result, hresult⟩ := exists_judged mode source
    rwa [hresult.result_eq]
  · exact Judged.result_eq

/-! ### Main results -/

/-- A string starts where the text in front of it ends. -/
theorem start_eq {l : Lexeme Terminal} {text before after : List Char}
    (h : Lexer.Piece l text before after) : start l = Location.endOf before := by
  rw [start, h.line, h.column, Location.ofCoordinates_endOf]

/-- Reading a source gives a tree or an error of the parser, and nothing else: layout and checks
never come upon what they rely on not to happen. Every reason in the error is one that its kind and
its payloads make. -/
theorem parse_ok_or_invalid (mode : Mode) (source : String) :
    (∃ tree, (parse mode source).result = .ok tree) ∨
      ∃ error, (parse mode source).result = .error (.invalid error) ∧
        ∀ reason ∈ .parse error.reason :: error.reason.causes, reason.Constructed := by
  obtain ⟨result, hresult⟩ := exists_judged mode source
  rw [hresult.result_eq]
  cases hresult with
  | refused | string => exact .inr ⟨_, rfl, fun reason _ => reason.constructed⟩
  | valid => exact .inl ⟨_, rfl⟩

/-- Every format string of a text that the parser accepts is checked, at every depth, and the first
one that is refused decides: the error stands where the string starts, whatever it rests on. -/
theorem parse_of_run {mode : Mode} {source : String} {tree : Tree}
    (h : Parser.run mode.entry (complete source.toList) = .ok tree) :
    ((∃ found, (parse mode source).result = .ok found) ↔ ∀ l ∈ stringsIn tree, Sound l) ∧
      (∀ halt, (parse mode source).result = .error halt ↔
        ∃ l reason before after, FirstRefused (stringsIn tree) l reason ∧
          Lexer.Piece l (complete source.toList) before after ∧
          halt = .invalid ⟨.lexical (.formatString reason), Location.endOf before⟩) ∧
      Parser.Pieces (complete source.toList) [] (stringsIn tree) := by
  have hpieces := Parser.pieces_of_run h
  refine ⟨?_, fun halt => ?_, hpieces⟩
  · constructor
    · rintro ⟨found, hfound⟩
      cases judged_iff.mp hfound with
      | valid run strings =>
          rw [h] at run
          cases run
          exact strings
    · intro hall
      exact ⟨tree, judged_iff.mpr (.valid h hall)⟩
  · rw [judged_iff]
    constructor
    · intro hjudged
      cases hjudged with
      | refused run =>
          rw [h] at run
          cases run
      | @string _ l reason run first =>
          rw [h] at run
          cases run
          obtain ⟨_, _, hpiece, -⟩ := hpieces.exists_piece first.mem
          exact ⟨l, reason, _, _, first, hpiece, by rw [errorAt, start_eq hpiece]⟩
    · rintro ⟨l, reason, before, after, first, hpiece, rfl⟩
      rw [← start_eq hpiece]
      exact .string h first

/-- A format string with an empty field is refused where it starts. -/
theorem parse_of_run_emptyField :
    ∃ tree, Parser.run Mode.program.entry (complete "f\"\"\"\x7b\x7d\"\"\"".toList) = .ok tree ∧
      (parse .program "f\"\"\"\x7b\x7d\"\"\"").result =
        .error (.invalid ⟨.lexical (.formatString .emptyExpression), ⟨1, 1⟩⟩) := by
  have htriple : Lexer.Triple ("f\"\"\"\x7b\x7d\"\"\"".toList ++ ['\n']) ['f'] '"'
      "\x7b\x7d\"\"\"\n".toList := ⟨rfl, rfl, rfl, by simp [Lexer.isQuote]⟩
  obtain ⟨tree, hrun, hstrings⟩ := Parser.run_literal ⟨htriple, rfl⟩
  have hentry : Parser.run Mode.program.entry (complete "f\"\"\"\x7b\x7d\"\"\"".toList) = .ok tree :=
    hrun
  have hrefused := (@parse_of_run .program _ tree hentry).2.1
    (.invalid ⟨.lexical (.formatString .emptyExpression), ⟨1, 1⟩⟩)
  refine ⟨tree, hentry, hrefused.mpr ?_⟩
  exact ⟨Parser.literalOf "f\"\"\"\x7b\x7d\"\"\"".toList, .emptyExpression, [], ['\n'],
    ⟨[], [], hstrings, by simp, .scan rfl rfl rfl⟩, ⟨rfl, rfl, rfl⟩, rfl⟩

end Source

end SyntaxTriage
