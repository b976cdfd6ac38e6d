import SyntaxTriage.Proofs.Grammar.Lines
import SyntaxTriage.Proofs.Layout.Levels
import SyntaxTriage.Proofs.Parser.Completion
import SyntaxTriage.Proofs.Parser.Indent

/-!
Lines and blocks on the stack. Lines end, and blocks begin and end, only where no bracket is open,
because whatever holds the end of a line stands outside the brackets of its production. The open
levels of indentation are the blocks that have begun on the stack and not ended.
-/

namespace SyntaxTriage

open Grammar

-- the tables are large, and nothing here should compute them
attribute [local irreducible] Lookahead.states Lookahead.sets Parser.Stack.settle

namespace Parser.Stack

variable {s s' : Stack} {l : Lexeme Terminal} {t : Terminal}

theorem symbols_mk_append (entry : Nonterminal) (read below : List Frame) :
    (Stack.mk entry (read ++ below)).symbols =
      (Stack.mk entry below).symbols ++ read.reverse.map Frame.symbol := by
  rw [symbols, List.reverse_append, List.map_append]
  rfl

/-! ### Lines -/

/-- What holds the end of a line is called for outside brackets only. -/
theorem Live.openBrackets_of_calls {n : Nonterminal} (h : s.Live) (hn : s.Calls n)
    (hline : holdsLine (.nonterminal n) = true) : Grammar.openBrackets 0 s.symbols = some 0 := by
  obtain ⟨entry, frames⟩ := s
  induction hlength : frames.length using Nat.strong_induction_on generalizing frames n with
  | _ length ih =>
      rcases hn with hcalls | ⟨hnil, -⟩
      · induction hcalls with
        | @kernel i n rest mem hrest =>
            obtain ⟨read, below, hframes, hread, hcalls, hkernel⟩ :=
              IsPath.exists_calls h.built (List.mem_append_left _ mem)
            obtain rfl : frames = read ++ below := hframes
            cases read with
            | nil =>
                obtain rfl : below = [] := (hkernel mem rfl).1
                rfl
            | cons f read =>
                have hsymbols := hread.symbols
                rw [hrest] at hsymbols
                obtain ⟨hhead, hopen⟩ :=
                  openBrackets_of_holdsLine hread.mem_productionsOf hsymbols hline
                have hbelow := ih below.length (by
                  rw [← hlength, List.length_append, List.length_cons]
                  omega) hhead below (h.below rfl) hcalls rfl
                rw [symbols_mk_append, openBrackets_append, hbelow]
                exact hopen
        | @opened m n p rest outer mem hsymbols ihouter =>
            exact ihouter (@openBrackets_of_holdsLine _ _ [] _ _ mem hsymbols hline).1
      · obtain rfl : frames = [] := hnil
        rfl

/-- What holds the end of a line is read outside brackets only. -/
theorem Live.openBrackets_of_canRead {x : Symbol} (h : s.Live) (hx : s.state.canRead x = true)
    (hline : holdsLine x = true) : Grammar.openBrackets 0 s.symbols = some 0 := by
  obtain ⟨i, hi, rest, hrest⟩ := State.canRead_iff.mp hx
  obtain ⟨read, below, hframes, hread, hcalls, -⟩ := IsPath.exists_calls h.built hi
  have hsymbols := hread.symbols
  rw [hrest] at hsymbols
  obtain ⟨hhead, hopen⟩ := openBrackets_of_holdsLine hread.mem_productionsOf hsymbols hline
  have hbelow := (h.below hframes).openBrackets_of_calls hcalls hhead
  obtain ⟨entry, frames⟩ := s
  obtain rfl : frames = read ++ below := hframes
  rw [symbols_mk_append, openBrackets_append, hbelow]
  exact hopen

/-- Ends of lines and changes of indentation are read outside brackets only. -/
theorem Live.openBrackets_of_feed (h : s.Live) (hfeed : s.feed l = .ok s')
    (hl : isLayout l.kind = true) : Grammar.openBrackets 0 s.symbols = some 0 := by
  obtain ⟨hread, -⟩ := feed_eq_ok_iff.mp hfeed
  rw [← (h.built.settle l.kind).2]
  exact (h.settle_of_canRead hread).openBrackets_of_canRead hread hl

/-! ### Ends of blocks -/

/-- A state that has any use for a terminal reads it, or reduces what the terminal may follow. -/
theorem canRead_or_mem_follow {s : State} (h : t ∈ candidates s) :
    s.canRead (.terminal t) = true ∨ ∃ i ∈ s.items, i.rest = [] ∧ t ∈ Grammar.follow i.head := by
  refine (mem_candidates.mp h).imp_right ?_
  rintro ⟨entry, hentry, ht⟩
  rcases List.mem_append.mp hentry with hentry | hentry
  all_goals
    obtain ⟨i, hi, rfl⟩ := List.mem_map.mp hentry
    obtain ⟨hi, hrest⟩ := List.mem_filter.mp hi
  · exact ⟨i, List.mem_append_left _ hi, List.isEmpty_iff.mp hrest,
      Lookahead.mem_follow_of_mem_sets ht (Lookahead.getElem?_place (mem_placed_kernel hi)).2⟩
  · exact ⟨i, List.mem_append_right _ hi, List.isEmpty_iff.mp hrest,
      Lookahead.mem_follow_of_mem_sets ht (Lookahead.getElem?_place (mem_placed_opened hi)).2⟩

/-- Branches that may follow a block are called for behind one. -/
theorem Live.top?_of_calls_elifs (h : s.Live) (hn : s.Calls .elifs) :
    s.top? = some (.nonterminal .suite) := by
  rcases hn with hn | ⟨-, hentry⟩
  · cases hn with
    | @kernel i _ rest mem hrest =>
        obtain ⟨before, hread, htop⟩ := h.built.exists_hasRead (List.mem_append_left _ mem)
        have hsymbols := hread.symbols
        rw [hrest] at hsymbols
        exact htop _ ((getLast?_before hread.mem_productionsOf hsymbols).2 rfl)
    | opened _ mem symbols =>
        -- nothing stands in front
        cases (@getLast?_before _ _ [] _ _ mem symbols).2 rfl
  · exact absurd (hentry ▸ h.entry) (by decide)

/-- A block ends behind the end of a line or of another block. -/
theorem Live.isLayout_of_feed_dedent (h : s.Live) (hfeed : s.feed l = .ok s')
    (hl : l.kind = .dedent) (htop : s.top? = some (.terminal t)) : isLayout t = true := by
  have hends {before : List Symbol} (hlast : before.getLast?.any mayEndBlock = true)
      (hbefore : ∀ x, before.getLast? = some x → s.top? = some x) : isLayout t = true := by
    cases hx : before.getLast? with
    | none =>
        rw [hx] at hlast
        contradiction
    | some x =>
        rw [hx] at hlast
        cases (hbefore x hx).symm.trans htop
        exact hlast
  have hmem := mem_candidates_of_feed hfeed
  rw [hl] at hmem
  rcases canRead_or_mem_follow hmem with hread | ⟨i, hi, hrest, hfollow⟩
  · obtain ⟨i, hi, rest, hrest⟩ := State.canRead_iff.mp hread
    obtain ⟨before, hread, hbefore⟩ := h.built.exists_hasRead hi
    have hsymbols := hread.symbols
    rw [hrest] at hsymbols
    exact hends ((getLast?_before hread.mem_productionsOf hsymbols).1 rfl) hbefore
  · obtain ⟨read, below, hframes, hread, hcalls, -⟩ := IsPath.exists_calls h.built hi
    have hsymbols := hread.symbols
    rw [hrest, List.append_nil] at hsymbols
    obtain ⟨before, hitem, hbefore⟩ := h.built.exists_hasRead hi
    have hsame := hitem.symbols
    rw [hrest, List.append_nil] at hsame
    rcases getLast?_of_dedent hread.mem_productionsOf hfollow with hlast | ⟨hnil, hhead⟩
    · exact hends (hsame ▸ hlast) hbefore
    · -- nothing has been read for the branches that are left out
      rw [hnil] at hsymbols
      obtain rfl : read = [] := by simpa using hsymbols.symm
      have hcalls : s.Calls i.head := by
        rw [List.nil_append] at hframes
        rwa [← hframes] at hcalls
      cases (h.top?_of_calls_elifs (hhead ▸ hcalls)).symm.trans htop

/-! ### Blocks -/

/-- On a live stack no block ends that has not begun. -/
theorem Live.openBlocks_nonneg (h : s.Live) : 0 ≤ openBlocks s.symbols := by
  obtain ⟨entry, frames⟩ := s
  induction hlength : frames.length using Nat.strong_induction_on generalizing frames with
  | _ length ih =>
      cases frames with
      | nil => exact Int.le_refl 0
      | cons f frames =>
          have hbelow : (Stack.mk entry frames).Live := @Live.below ⟨entry, f :: frames⟩ [f] _ h rfl
          obtain ⟨i, hi, rest, hrest⟩ := State.canRead_iff.mp (h.read f frames List.suffix_rfl)
          obtain ⟨read, base, rfl, hread, -⟩ := IsPath.exists_calls hbelow.built hi
          -- the symbols on top begin a production
          have hsymbols := hread.symbols
          rw [hrest, List.append_cons] at hsymbols
          have hnonneg := (Grammar.openBlocks_nonneg hread.mem_productionsOf hsymbols).1
          have hbase := ih base.length (by
            rw [← hlength, List.length_cons, List.length_append]
            omega) base (hbelow.below rfl) rfl
          rw [← List.cons_append, symbols_mk_append, List.reverse_cons, List.map_append,
            openBlocks_append]
          exact Int.add_nonneg hbase hnonneg

theorem Built.openBlocks_settle (h : s.Built) (t : Terminal) :
    openBlocks (s.settle t).symbols = openBlocks s.symbols := by
  refine (settle_induction (P := fun s' => openBlocks s'.symbols = openBlocks s.symbols)
    (fun s' p read below _ hcompletes hs' => ?_) t h rfl).2
  rw [← hs', hcompletes.symbols_reduce, hcompletes.symbols_eq, openBlocks_append,
    openBlocks_append, openBlocks_symbols hcompletes.grammatical]
  rfl

theorem Built.openBlocks_feed (h : s.Built) (hfeed : s.feed l = .ok s') :
    openBlocks s'.symbols = openBlocks s.symbols + blockChange (.terminal l.kind) := by
  obtain ⟨-, rfl⟩ := feed_eq_ok_iff.mp hfeed
  rw [symbols_push, openBlocks_append, h.openBlocks_settle, openBlocks_cons, openBlocks_nil,
    Int.add_zero]

/-- An input ends where all its blocks have ended. -/
theorem Built.openBlocks_of_finish {tree : Tree} (h : s.Built) (hfinish : s.finish = .ok tree) :
    openBlocks s.symbols = 0 := by
  obtain ⟨state, hframes⟩ := finish_eq_ok_iff.mp hfinish
  rw [← h.openBlocks_settle .endOfInput, symbols, hframes]
  rfl

theorem Built.openBlocks_feedAll {ls : List (Lexeme Terminal)} (h : s.Built)
    (hfeed : Parser.feedAll s ls = .ok s') :
    openBlocks s'.symbols = openBlocks s.symbols + openBlocks (ls.map fun l => .terminal l.kind) := by
  induction ls generalizing s with
  | nil =>
      cases hfeed
      exact (Int.add_zero _).symm
  | cons l ls ih =>
      obtain ⟨t, ht, hfeed⟩ := feedAll_cons_eq_ok hfeed
      rw [ih (h.feed ht) hfeed, h.openBlocks_feed ht, List.map_cons, openBlocks_cons, Int.add_assoc]

end Parser.Stack

end SyntaxTriage
