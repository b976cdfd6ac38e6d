import SyntaxTriage.Proofs.Parser.Path
import SyntaxTriage.Source

/-!
What a stack keeps while it is reduced: the number of brackets that its symbols leave open, and the
string literals in its trees. So a closing bracket can be read only where a bracket is open, and a
finished tree has the string literals that were read, in their order.
-/

namespace SyntaxTriage

open Grammar

namespace Tree

theorem leavesOfAll_append (ts us : List Tree) :
    leavesOfAll (ts ++ us) = leavesOfAll ts ++ leavesOfAll us := by
  induction ts with
  | nil => rfl
  | cons t ts ih => rw [List.cons_append, leavesOfAll, ih, leavesOfAll, List.append_assoc]

def stringsOf (ts : List Tree) : List (Lexeme Terminal) := (leavesOfAll ts).filter Source.isString

theorem stringsOf_append (ts us : List Tree) :
    stringsOf (ts ++ us) = stringsOf ts ++ stringsOf us := by
  rw [stringsOf, leavesOfAll_append, List.filter_append]
  rfl

end Tree

open SyntaxTriage.Tree

theorem Shape.leavesOfAll_apply (shape : Shape) (children : List Tree) :
    leavesOfAll (shape.apply children) = leavesOfAll children := by
  have hnode (label : String) : leavesOfAll [.node label children] = leavesOfAll children := by
    simp [leavesOfAll, leaves]
  unfold Shape.apply
  split
  · exact hnode _
  · rfl
  · exact hnode _
  · rfl

namespace Parser.Stack

/-! ### Brackets -/

theorem Completes.openBrackets {s : Stack} {p : Production} {read below : List Frame}
    (h : s.Completes p read below) :
    openBrackets 0 (s.reduce p).symbols = openBrackets 0 s.symbols := by
  rw [h.symbols_reduce, h.symbols_eq, openBrackets_append, openBrackets_append]
  congr 1
  funext depth
  rw [openBrackets_production h.grammatical]
  rfl

theorem Built.settle {s : Stack} (h : s.Built) (t : Terminal) :
    (s.settle t).Built ∧ openBrackets 0 (s.settle t).symbols = openBrackets 0 s.symbols :=
  settle_induction (P := fun s' => openBrackets 0 s'.symbols = openBrackets 0 s.symbols)
    (fun _ _ _ _ _ hcompletes hs => hcompletes.openBrackets.trans hs) t h rfl

theorem Built.feed {s s' : Stack} {l : Lexeme Terminal} (h : s.Built) (hfeed : s.feed l = .ok s') :
    s'.Built := by
  obtain ⟨-, rfl⟩ := feed_eq_ok_iff.mp hfeed
  exact (h.settle l.kind).1.push_leaf l

/-- A terminal that can be read has a bracket to close if it closes one: the items that call for it
stand in productions that have opened the bracket before. -/
theorem Built.exists_countBracket {s : Stack} (h : s.Built) {t : Terminal} {depth : Nat}
    (hdepth : Grammar.openBrackets 0 s.symbols = some depth)
    (hread : s.state.canRead (.terminal t) = true) :
    ∃ next, countBracket depth (.terminal t) = some next := by
  obtain ⟨i, hi, rest, hrest⟩ := State.canRead_iff.mp hread
  obtain ⟨read, below, hframes, hitem⟩ := IsPath.hasRead h hi
  -- inside the production: the brackets open where its dot stands
  have hproduction := openBrackets_symbols hitem.mem_productionsOf
  rw [hitem.symbols, hrest, openBrackets_append] at hproduction
  obtain ⟨inner, hinner, hbehind⟩ := Option.bind_eq_some_iff.mp hproduction
  rw [openBrackets_cons] at hbehind
  obtain ⟨next, hnext, -⟩ := Option.bind_eq_some_iff.mp hbehind
  -- on the stack: the brackets open below the production come on top
  rw [symbols, hframes, List.reverse_append, List.map_append, openBrackets_append] at hdepth
  obtain ⟨outer, -, hdepth⟩ := Option.bind_eq_some_iff.mp hdepth
  have hall := openBrackets_add hinner outer
  rw [Nat.zero_add, hdepth] at hall
  cases hall
  exact ⟨next + outer, countBracket_add hnext outer⟩

theorem Built.openBrackets_feed {s s' : Stack} (h : s.Built) {l : Lexeme Terminal} {depth : Nat}
    (hdepth : Grammar.openBrackets 0 s.symbols = some depth) (hfeed : s.feed l = .ok s') :
    ∃ next, countBracket depth (.terminal l.kind) = some next ∧
      Grammar.openBrackets 0 s'.symbols = some next := by
  obtain ⟨hread, rfl⟩ := feed_eq_ok_iff.mp hfeed
  obtain ⟨hbuilt, hsettle⟩ := h.settle l.kind
  rw [← hsettle] at hdepth
  obtain ⟨next, hnext⟩ := hbuilt.exists_countBracket hdepth hread
  refine ⟨next, hnext, ?_⟩
  rw [symbols_push, openBrackets_append, hdepth]
  change (countBracket depth _).bind _ = _
  rw [hnext]
  rfl

/-! ### Strings -/

def strings (s : Stack) : List (Lexeme Terminal) :=
  s.frames.reverse.flatMap fun f => stringsOf f.trees

@[simp] theorem strings_push (s : Stack) (x : Symbol) (trees : List Tree) :
    (s.push x trees).strings = s.strings ++ stringsOf trees := by
  simp [strings, push]

theorem stringsOf_gather {entry : Nonterminal} {parts : List Part} {read below : List Frame}
    {children : List Tree} (hpath : IsPath entry (read ++ below))
    (hsymbols : parts.filterMap Part.symbol? = read.map Frame.symbol)
    (hmarks : ∀ t, Part.mark t ∈ parts → isStringTerminal t = false) :
    stringsOf (gather parts (read ++ below) children).1 =
      (read.reverse.flatMap fun f => stringsOf f.trees) ++ stringsOf children := by
  induction parts generalizing read children with
  | nil =>
      cases read with
      | nil => rfl
      | cons f read => contradiction
  | cons part parts ih =>
      have hmarks' : ∀ t, Part.mark t ∈ parts → isStringTerminal t = false :=
        fun t ht => hmarks t (List.mem_cons_of_mem _ ht)
      -- a part that reads a symbol takes the top frame
      have hframe (x : Symbol) (hx : x :: parts.filterMap Part.symbol? = read.map Frame.symbol) :
          ∃ f rest, read = f :: rest ∧ f.symbol = x ∧ IsPath entry (rest ++ below) ∧
            parts.filterMap Part.symbol? = rest.map Frame.symbol := by
        cases read with
        | nil => contradiction
        | cons f rest =>
            obtain ⟨rfl, hrest⟩ := List.cons.inj hx
            exact ⟨f, rest, rfl, rfl, hpath.drop 1, hrest⟩
      cases part with
      | absent =>
          rw [gather, ih hpath hsymbols hmarks', show stringsOf (.absent :: children) =
            stringsOf children from rfl]
      | mark t =>
          obtain ⟨f, rest, rfl, hf, hrest, hrestSymbols⟩ := hframe _ hsymbols
          have hleaf : stringsOf f.trees = [] := by
            cases hpath with
            | cons _ leaf _ =>
                obtain ⟨l, hl, htrees⟩ := leaf t hf
                have hstring : Source.isString l = false := by
                  have hmark := hmarks t List.mem_cons_self
                  rw [← hl] at hmark
                  exact hmark
                simp [htrees, stringsOf, leavesOfAll, leaves, hstring]
          rw [gather, List.cons_append, List.tail_cons, ih hrest hrestSymbols hmarks']
          simp [hleaf]
      | token t | sub n =>
          obtain ⟨f, rest, rfl, -, hrest, hrestSymbols⟩ := hframe _ hsymbols
          change stringsOf (gather parts (rest ++ below) (f.trees ++ children)).1 = _
          rw [ih hrest hrestSymbols hmarks', stringsOf_append]
          simp

theorem Completes.strings {s : Stack} {p : Production} {read below : List Frame}
    (h : s.Completes p read below) (hs : s.Built) : (s.reduce p).strings = s.strings := by
  have hpath : IsPath s.entry (read ++ below) := h.frames ▸ hs
  have hsymbols : p.parts.reverse.filterMap Part.symbol? = read.map Frame.symbol := by
    have hreverse := congrArg List.reverse h.symbols
    rw [List.map_reverse, List.reverse_reverse] at hreverse
    rw [List.filterMap_reverse]
    exact hreverse
  have hmarks : ∀ t, Part.mark t ∈ p.parts.reverse → isStringTerminal t = false :=
    fun t ht => not_isStringTerminal_of_mark h.grammatical (List.mem_reverse.mp ht)
  have hgather := @stringsOf_gather _ _ _ _ [] hpath hsymbols hmarks
  rw [h.reduce, strings_push, stringsOf, Shape.leavesOfAll_apply, childrenOf, h.frames]
  change _ ++ stringsOf _ = _
  rw [hgather]
  simp [Stack.strings, h.frames, stringsOf, leavesOfAll]

theorem Built.strings_settle {s : Stack} (h : s.Built) (t : Terminal) :
    (s.settle t).strings = s.strings :=
  (settle_induction (P := fun s' => s'.strings = s.strings)
    (fun _ _ _ _ hbuilt hcompletes hs => (hcompletes.strings hbuilt).trans hs) t h rfl).2

theorem Built.strings_feed {s s' : Stack} {l : Lexeme Terminal} (h : s.Built)
    (hfeed : s.feed l = .ok s') :
    s'.strings = s.strings ++ if Source.isString l then [l] else [] := by
  obtain ⟨-, rfl⟩ := feed_eq_ok_iff.mp hfeed
  rw [strings_push, h.strings_settle]
  cases hl : Source.isString l <;> simp [stringsOf, leavesOfAll, leaves, hl]

/-- The input ends where reductions leave nothing but the entry. -/
theorem finish_eq_ok_iff {s : Stack} {tree : Tree} :
    s.finish = .ok tree ↔ ∃ state, (s.settle .endOfInput).frames =
      [⟨.nonterminal (s.settle .endOfInput).entry, state, [tree]⟩] := by
  unfold finish
  simp only
  generalize s.settle .endOfInput = settled
  constructor
  · intro h
    split at h
    · rename_i x state found hframes
      split at h
      · rename_i hx
        cases h
        exact ⟨state, hx ▸ hframes⟩
      · contradiction
    · contradiction
  · rintro ⟨state, hframes⟩
    rw [hframes]
    exact if_pos rfl

/-- The tree of the whole has the strings of the stack. -/
theorem Built.strings_finish {s : Stack} {tree : Tree} (h : s.Built) (hfinish : s.finish = .ok tree) :
    tree.leaves.filter Source.isString = s.strings := by
  obtain ⟨state, hframes⟩ := finish_eq_ok_iff.mp hfinish
  rw [← h.strings_settle .endOfInput, strings, hframes]
  simp [stringsOf, leavesOfAll]

end Parser.Stack

end SyntaxTriage
