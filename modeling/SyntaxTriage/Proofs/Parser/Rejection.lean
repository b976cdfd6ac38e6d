import SyntaxTriage.Proofs.Failure
import SyntaxTriage.Proofs.Parser.Balance
import SyntaxTriage.Parser.Basic
import SyntaxTriage.Reason.Basic

/-!
What a rejection by the parser tells about the rest of the input. It counts as incomplete if the
input has ended, if it is an indentation, or if nothing but an indentation could have come. The last
is known to be true of the end of a line only: behind a reduction something else can always come.
-/

namespace SyntaxTriage

open Grammar

namespace Rejection

/-- Whether the error made of the rejection counts as incomplete. Where the input ends has no
influence on that. -/
def isIncomplete (r : Rejection) : Bool := (r.toFailure none).toParseError.reason.isIncomplete

theorem reason_toFailure (fallback : Option Location) (r : Rejection) :
    (r.toFailure fallback).toParseError.reason = (r.toFailure none).toParseError.reason := by
  cases r with
  | lexeme l expected accepted =>
      unfold toFailure
      simp only
      split
      · rfl
      · split <;> rfl
  | character | endOfInput | other => rfl

theorem not_isIncomplete_character (c : Char) (line column : Option Int) :
    (character c line column).isIncomplete = false := rfl

end Rejection

/-! ### Names -/

theorem Token.displayName_eq_indent_iff {t : Terminal} :
    displayName t.name = Token.indent.kind ↔ t = .indent := by
  have hall : ∀ t ∈ Terminal.all, displayName t.name = Token.indent.kind ↔ t = .indent := by
    decide +kernel
  exact hall t (LawfulNumbered.mem_all t)

theorem Token.ofTerminal_name_eq_indent_iff {t : Terminal} {text : String} :
    ofTerminal t.name text = Token.indent ↔ t = .indent := by
  rw [ofTerminal_eq_indent_iff, displayName_eq_indent_iff]

/-- A hint at an indentation is given just if nothing else is expected. -/
theorem Failure.hint_displayNames_eq_indent_iff {ts : List Terminal} :
    hint (Rejection.displayNames (ts.map Terminal.name)) = some Token.indent.kind ↔
      ts = [.indent] := by
  rw [Rejection.hint_displayNames_eq_some_iff]
  constructor
  · rintro ⟨name, hnames, hshown⟩
    obtain ⟨t, rfl, rfl⟩ := List.map_eq_singleton_iff.mp hnames
    rw [Token.displayName_eq_indent_iff.mp hshown]
  · rintro rfl
    exact ⟨_, rfl, Token.displayName_eq_indent_iff.mpr rfl⟩

namespace Parser

-- the lookahead sets and the bound on reductions are large, and nothing here should compute them
attribute [local irreducible] Lookahead.sets Stack.settle

/-! ### The terminals that are reported -/

/-- What a rejection reports: the terminals that the input can go on with or, if there are none,
those that the state has any use for. -/
def Stack.reported (s : Stack) : List Terminal :=
  if s.accepted.isEmpty then (candidates s.state).toList else s.accepted

theorem Stack.mem_candidates_of_mem_reported {s : Stack} {t : Terminal} (h : t ∈ s.reported) :
    t ∈ candidates s.state := by
  unfold reported at h
  split at h
  · exact BitSet.mem_toList.mp h
  · exact BitSet.mem_toList.mp (List.mem_filter.mp h).1

theorem Stack.nodup_reported (s : Stack) : s.reported.Nodup := by
  have hlist : (candidates s.state).toList.Nodup := Terminal.nodup_all.filter _
  unfold reported
  split
  · exact hlist
  · exact hlist.filter _

theorem kind_of_rejectionOf_eq {s s' : Stack} {l l' : Lexeme Terminal}
    (h : rejectionOf s l = rejectionOf s' l') : l.kind = l'.kind := by
  unfold rejectionOf at h
  injection h with hlexeme
  exact Terminal.name_inj (congrArg Lexeme.kind hlexeme)

/-- When the report on a lexeme counts as incomplete. -/
theorem isIncomplete_rejectionOf (s : Stack) (l : Lexeme Terminal) :
    (rejectionOf s l).isIncomplete = true ↔
      l.kind = .endOfInput ∨ l.kind = .indent ∧ s.reported ≠ [.endOfInput] ∨
        s.reported = [.indent] := by
  have hnames : (if (s.accepted.map Terminal.name).isEmpty
      then (candidates s.state).toList.map Terminal.name
      else s.accepted.map Terminal.name).eraseDups = s.reported.map Terminal.name := by
    have hif : (if (s.accepted.map Terminal.name).isEmpty
        then (candidates s.state).toList.map Terminal.name
        else s.accepted.map Terminal.name) = s.reported.map Terminal.name := by
      rw [Stack.reported, List.isEmpty_map, apply_ite (List.map Terminal.name)]
    rw [hif]
    exact eraseDups_of_nodup (s.nodup_reported.map fun _ _ => Terminal.name_inj)
  have hend (ts : List Terminal) :
      ts.map Terminal.name = [Terminal.name .endOfInput] ↔ ts = [.endOfInput] := by
    rw [← List.map_singleton, List.map_inj_right fun _ _ => Terminal.name_inj]
  unfold rejectionOf Rejection.isIncomplete Rejection.toFailure
  simp only [hnames, hend, Lexeme.mapKind]
  by_cases hkind : l.kind = .endOfInput
  · rw [if_pos (congrArg Terminal.name hkind)]
    exact iff_of_true rfl (.inl hkind)
  · rw [if_neg fun h => hkind (Terminal.name_inj h)]
    by_cases hreported : s.reported = [.endOfInput]
    · rw [if_pos hreported]
      simp [hkind, hreported, Failure.toParseError, ParseReason.isIncomplete,
        ParseReason.isIndentation]
    · rw [if_neg hreported]
      simp only [Failure.toParseError, ParseReason.isIncomplete, ParseReason.isIndentation,
        SpannedToken.token_ofLexeme, Bool.or_eq_true, decide_eq_true_iff,
        Token.ofTerminal_name_eq_indent_iff, Failure.hint_displayNames_eq_indent_iff]
      simp [hkind, hreported]

/-! ### Indentation -/

theorem mem_candidates {s : State} {t : Terminal} :
    t ∈ candidates s ↔
      s.canRead (.terminal t) = true ∨ ∃ entry ∈ Lookahead.reductions s, t ∈ entry.2 := by
  suffices ∀ (entries : List (Production × TerminalSet)) (found : TerminalSet),
      t ∈ entries.foldl (· ∪ ·.2) found ↔ t ∈ found ∨ ∃ entry ∈ entries, t ∈ entry.2 by
    rw [candidates, this, State.mem_shiftable]
  intro entries
  induction entries with
  | nil => simp
  | cons entry entries ih =>
      intro found
      rw [List.foldl_cons, ih, BitSet.mem_union]
      simp [or_assoc]

/-- A state that has any use for an indentation reads it. -/
theorem canRead_of_indent_mem_candidates {s : State} (h : Terminal.indent ∈ candidates s) :
    s.canRead (.terminal .indent) = true := by
  refine (mem_candidates.mp h).resolve_right ?_
  rintro ⟨entry, hentry, hmem⟩
  obtain ⟨i, -, -, place, rfl⟩ := Lookahead.exists_of_mem_reductions hentry
  exact Lookahead.indent_not_mem_sets place hmem

namespace Stack

def top? (s : Stack) : Option Symbol := s.frames.head?.map Frame.symbol

/-- What an item has read last lies on top. -/
theorem Built.exists_hasRead {s : Stack} {i : Item} (h : s.Built) (hi : i ∈ s.state.items) :
    ∃ before, i.HasRead before ∧ ∀ x, before.getLast? = some x → s.top? = some x := by
  obtain ⟨read, below, hframes, hitem⟩ := IsPath.hasRead h hi
  refine ⟨_, hitem, fun x hlast => ?_⟩
  rw [List.map_reverse, List.getLast?_reverse, List.head?_map] at hlast
  obtain ⟨f, hf, htop⟩ := Option.map_eq_some_iff.mp hlast
  rw [top?, hframes, List.head?_append, hf, Option.some_or, Option.map_some, htop]

/-- An indentation is read behind the end of a line. -/
theorem Built.top?_of_canRead_indent {s : Stack} (h : s.Built)
    (hread : s.state.canRead (.terminal .indent) = true) :
    s.top? = some (.terminal .newline) := by
  obtain ⟨i, hi, rest, hrest⟩ := State.canRead_iff.mp hread
  obtain ⟨before, hitem, htop⟩ := h.exists_hasRead hi
  have hsymbols := hitem.symbols
  rw [hrest] at hsymbols
  exact htop _ (getLast?_before_indent hitem.mem_productionsOf hsymbols)

/-- Reductions leave a nonterminal on top. -/
theorem settle_eq_or_top? {s : Stack} (hs : s.Built) (t : Terminal) :
    s.settle t = s ∨ ∃ n, (s.settle t).top? = some (.nonterminal n) := by
  refine (settle_induction (P := fun s' => s' = s ∨ ∃ n, s'.top? = some (.nonterminal n))
    ?_ t hs (.inl rfl)).2
  intro s' p read below _ hcompletes _
  right
  rw [hcompletes.reduce]
  exact ⟨p.head, rfl⟩

/-- Where nothing but an indentation is expected, nothing has been reduced. -/
theorem settle_eq_of_reported {s : Stack} {t : Terminal} (hs : s.Built)
    (h : (s.settle t).reported = [.indent]) : s.settle t = s := by
  have hmem : Terminal.indent ∈ candidates (s.settle t).state :=
    mem_candidates_of_mem_reported (by rw [h]; exact List.mem_singleton_self _)
  have htop := (hs.settle t).1.top?_of_canRead_indent (canRead_of_indent_mem_candidates hmem)
  rcases settle_eq_or_top? hs t with heq | ⟨n, hn⟩
  · exact heq
  · rw [htop] at hn
    cases Option.some.inj hn

theorem isOk_feed (s : Stack) (l : Lexeme Terminal) :
    (s.feed l).isOk = (s.settle l.kind).state.canRead (.terminal l.kind) := by
  unfold feed
  simp only
  split
  · rename_i h
    rw [h]
    rfl
  · rename_i h
    rw [Bool.not_eq_true] at h
    rw [h]
    rfl

theorem mem_accepted {s s' : Stack} {l : Lexeme Terminal} (hmem : l.kind ∈ candidates s.state)
    (hkind : l.kind ≠ .endOfInput) (hfeed : s.feed l = .ok s') : l.kind ∈ s.accepted := by
  refine List.mem_filter.mpr ⟨BitSet.mem_toList.mpr hmem, ?_⟩
  rw [accepts, if_neg hkind, isOk_feed]
  exact (feed_eq_ok_iff.mp hfeed).1

/-- Where some other lexeme can be read, an indentation is not all that is expected, in front of
whatever terminal. -/
theorem reported_settle_ne {s s' : Stack} {l : Lexeme Terminal} (hs : s.Built)
    (hmem : l.kind ∈ candidates s.state) (hend : l.kind ≠ .endOfInput) (hindent : l.kind ≠ .indent)
    (hfeed : s.feed l = .ok s') (t : Terminal) :
    s.reported ≠ [.indent] ∧ (s.settle t).reported ≠ [.indent] := by
  have haccepted := mem_accepted hmem hend hfeed
  have hreported : s.reported ≠ [.indent] := by
    intro h
    rw [reported, if_neg (by simp [List.ne_nil_of_mem haccepted])] at h
    rw [h, List.mem_singleton] at haccepted
    exact hindent haccepted
  refine ⟨hreported, fun h => hreported ?_⟩
  rwa [settle_eq_of_reported hs h] at h

end Stack

end Parser

end SyntaxTriage
