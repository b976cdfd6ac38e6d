import SyntaxTriage.Proofs.Parser.Rejection
import SyntaxTriage.Proofs.Parser.Run

/-!
Reductions in front of a terminal. An expression goes through all levels of expressions, from atoms
to statements, by productions with one symbol each. Which productions these are is found by running
the automaton; that they are taken in front of the terminal follows from the rules for lookahead
sets.
-/

namespace SyntaxTriage.Parser

open Grammar Lookahead

-- the lookahead sets and the bound on reductions are large, and nothing here should compute them
attribute [local irreducible] Lookahead.sets Lookahead.states

/-! ### Productions with one symbol -/

/-- The item that reading the symbol in the state completes, if it is the only one, has read nothing
else and is called for in the state, and if the terminal cannot be read next. -/
def replaced? (s : State) (t : Terminal) (x : Symbol) : Option Item :=
  let next := s.goto x
  match next.kernel.filter (·.rest.isEmpty), next.opened.filter (·.rest.isEmpty) with
  | [i], [] =>
    if i.production.symbols = [x] ∧ next.canRead (.terminal t) = false ∧
      s.kernel.all (fun j => (j.advance? x).isNone) then some i else none
  | _, _ => none

/-- The symbol that takes the place of `x` in front of the terminal. -/
def climb (s : State) (t : Terminal) : (fuel : Nat) → Symbol → Symbol
  | 0, x => x
  | fuel + 1, x =>
    match replaced? s t x with
    | some i => climb s t fuel (.nonterminal i.head)
    | none => x

def Follows (s : State) (t : Terminal) (n : Nonterminal) : Prop :=
  t ∈ sets.getD (openedPlace s n) ∅

variable {s : State} {t : Terminal} {x : Symbol} {i : Item}

structure Replaced (s : State) (t : Terminal) (x : Symbol) (i : Item) : Prop where
  kernel : (s.goto x).kernel.filter (·.rest.isEmpty) = [i]
  opened : (s.goto x).opened.filter (·.rest.isEmpty) = []
  alone : i.production.symbols = [x]
  unread : (s.goto x).canRead (.terminal t) = false
  called : ∀ j ∈ s.kernel, j.advance? x = none

theorem replaced_of_eq_some (h : replaced? s t x = some i) : Replaced s t x i := by
  unfold replaced? at h
  simp only at h
  split at h
  · rename_i hkernel hopened
    split at h
    · rename_i hcond
      cases h
      refine ⟨hkernel, hopened, hcond.1, hcond.2.1, fun j hj => ?_⟩
      exact Option.isNone_iff_eq_none.mp (List.all_eq_true.mp hcond.2.2 j hj)
    · contradiction
  · contradiction

/-- The item with its dot before the symbol. -/
theorem Replaced.exists_unread (h : Replaced s t x i) :
    ∃ j ∈ s.opened, j.advance? x = some i ∧ j.head = i.head ∧ j.rest = [x] := by
  have hmem : i ∈ (s.goto x).kernel.filter (·.rest.isEmpty) := by
    rw [h.kernel]
    exact List.mem_singleton_self i
  obtain ⟨hi, hrest⟩ := List.mem_filter.mp hmem
  have hi : i ∈ Item.sort (s.items.filterMap (·.advance? x)) := hi
  obtain ⟨j, hj, hadvance⟩ := List.mem_filterMap.mp (Item.mem_sort.mp hi)
  obtain ⟨hjrest, heq⟩ := Item.advance?_eq_some_iff.mp hadvance
  refine ⟨j, ?_, hadvance, ?_, ?_⟩
  · rcases List.mem_append.mp hj with hj | hj
    · rw [h.called j hj] at hadvance
      contradiction
    · exact hj
  · rw [heq]
    rfl
  · rw [hjrest, List.isEmpty_iff.mp hrest]

theorem mem_placed_opened {j : Item} (h : j ∈ s.opened) : (j, openedPlace s j.head) ∈ placed s :=
  List.mem_append_right _ (List.mem_map.mpr ⟨j, h, rfl⟩)

theorem mem_kernel_goto {j : Item} (h : i ∈ s.items) (hj : i.advance? x = some j) :
    j ∈ (s.goto x).kernel :=
  Item.mem_sort.mpr (List.mem_filterMap.mpr ⟨i, h, hj⟩)

theorem mem_placed_kernel {j : Item} (h : j ∈ s.kernel) : (j, kernelPlace s j) ∈ placed s :=
  List.mem_append_left _ (List.mem_map.mpr ⟨j, h, rfl⟩)

/-- What follows the head of a production with one symbol follows the symbol. -/
theorem Replaced.follows {n : Nonterminal} (h : Replaced s t (.nonterminal n) i) (hs : s ∈ states)
    (hfollows : Follows s t i.head) : Follows s t n := by
  obtain ⟨j, hj, -, hhead, hrest⟩ := h.exists_unread
  rw [← hhead] at hfollows
  exact mem_sets_of_call hs (mem_placed_opened hj) hrest rfl hfollows

theorem reduction?_of_single {next : State}
    (hkernel : next.kernel.filter (·.rest.isEmpty) = [i])
    (hopened : next.opened.filter (·.rest.isEmpty) = [])
    (ht : t ∈ sets.getD (kernelPlace next i) ∅) : reduction? next t = some i.production := by
  have hreductions : reductions next = [(i.production, sets.getD (kernelPlace next i) ∅)] := by
    rw [reductions, hkernel, hopened]
    rfl
  rw [reduction?, hreductions, List.find?_cons_of_pos (by simpa using ht)]
  rfl

theorem mem_candidates_of_reduction? {p : Production} (h : reduction? s t = some p) :
    t ∈ candidates s := by
  obtain ⟨entry, hfound, -⟩ := Option.map_eq_some_iff.mp h
  refine mem_candidates.mpr (.inr ⟨entry, List.mem_of_find?_eq_some hfound, ?_⟩)
  simpa using List.find?_some hfound

theorem Replaced.reduction?_eq (h : Replaced s t x i) (hs : s ∈ states)
    (hfollows : Follows s t i.head) : reduction? (s.goto x) t = some i.production := by
  obtain ⟨j, hj, hadvance, hhead, -⟩ := h.exists_unread
  refine reduction?_of_single h.kernel h.opened ?_
  rw [← hhead] at hfollows
  exact mem_sets_of_move hs (mem_placed_opened hj) hadvance hfollows

theorem advance?_cons (i : Item) (x : Symbol) (xs : List Symbol) :
    ({ i with rest := x :: xs } : Item).advance? x = some { i with rest := xs } := if_pos rfl

theorem canRead_of_mem_items {xs : List Symbol} (h : { i with rest := x :: xs } ∈ s.items) :
    s.canRead x = true :=
  State.canRead_iff.mpr ⟨_, h, xs, rfl⟩

theorem mem_states_of_short {n : Nat} (hs : Within n s) (hn : n ≤ 8) : s ∈ states := by
  have hpow (k : Nat) (hk : 3 ≤ k) : 8 ≤ Nat.pow 2 k := Nat.pow_le_pow_right Nat.two_pos hk
  exact mem_states_of_within hs (hn.trans (hpow itemCount three_le_itemCount))

/-- What follows an item follows it when its dot has moved to the end. -/
theorem mem_sets_of_moves {n : Nat} {xs : List Symbol} (hs : Within n s) (hn : n + xs.length ≤ 8)
    (hi : { i with rest := xs } ∈ s.kernel)
    (ht : t ∈ sets.getD (kernelPlace s { i with rest := xs }) ∅) :
    t ∈ sets.getD (kernelPlace (xs.foldl State.goto s) { i with rest := [] }) ∅ := by
  induction xs generalizing n s with
  | nil => exact ht
  | cons x xs ih =>
      have hmem : { i with rest := x :: xs } ∈ s.items := List.mem_append_left _ hi
      rw [List.length_cons] at hn
      have hmoved := mem_sets_of_move (mem_states_of_short hs (by omega)) (mem_placed_kernel hi)
        (advance?_cons i x xs) ht
      exact ih (hs.goto (canRead_of_mem_items hmem)) (by omega)
        (mem_kernel_goto hmem (advance?_cons i x xs)) hmoved

/-- The production of an item is reduced when its symbols have been read. -/
theorem reduction?_of_kernel {n : Nat} {xs : List Symbol} (hs : Within n s)
    (hn : n + xs.length ≤ 8) (hi : { i with rest := xs } ∈ s.kernel)
    (ht : t ∈ sets.getD (kernelPlace s { i with rest := xs }) ∅)
    (hkernel : (xs.foldl State.goto s).kernel.filter (·.rest.isEmpty) = [{ i with rest := [] }])
    (hopened : (xs.foldl State.goto s).opened.filter (·.rest.isEmpty) = []) :
    reduction? (xs.foldl State.goto s) t = some i.production :=
  @reduction?_of_single t { i with rest := [] } _ hkernel hopened (mem_sets_of_moves hs hn hi ht)

/-- The same for an item that is called for, in front of what follows its head. -/
theorem reduction?_of_opened {n : Nat} {xs : List Symbol} (hs : Within n s)
    (hn : n + 1 + xs.length ≤ 8) (hi : { i with rest := x :: xs } ∈ s.opened)
    (hfollows : Follows s t i.head)
    (hkernel : (xs.foldl State.goto (s.goto x)).kernel.filter (·.rest.isEmpty) =
      [{ i with rest := [] }])
    (hopened : (xs.foldl State.goto (s.goto x)).opened.filter (·.rest.isEmpty) = []) :
    reduction? (xs.foldl State.goto (s.goto x)) t = some i.production := by
  have hmem : { i with rest := x :: xs } ∈ s.items := List.mem_append_right _ hi
  have hmoved := mem_sets_of_move (mem_states_of_short hs (by omega)) (mem_placed_opened hi)
    (advance?_cons i x xs) hfollows
  exact reduction?_of_kernel (hs.goto (canRead_of_mem_items hmem)) hn
    (mem_kernel_goto hmem (advance?_cons i x xs)) hmoved hkernel hopened

/-- Behind a symbol that ends all there is nothing left to reduce. -/
theorem reduction?_of_nil (h : s.items = []) (t : Terminal) : reduction? s t = none := by
  obtain ⟨hkernel, hopened⟩ := List.append_eq_nil_iff.mp h
  rw [reduction?, reductions, hkernel, hopened]
  rfl

/-- What follows a nonterminal follows those that climb to it. -/
theorem follows_of_climb {m n : Nonterminal} {steps : Nat} (hs : s ∈ states) (hm : Follows s t m)
    (hclimb : climb s t steps (.nonterminal n) = .nonterminal m) : Follows s t n := by
  induction steps generalizing n with
  | zero =>
      cases hclimb
      exact hm
  | succ steps ih =>
      rw [climb] at hclimb
      cases hreplaced : replaced? s t (.nonterminal n) with
      | none =>
          rw [hreplaced] at hclimb
          cases hclimb
          exact hm
      | some i =>
          rw [hreplaced] at hclimb
          exact (replaced_of_eq_some hreplaced).follows hs (ih hclimb)

/-! ### Stacks -/

namespace Stack

variable {base : Stack} {trees : List Tree} {p : Production}

theorem reduce_eq (s : Stack) (p : Production) :
    s.reduce p = push ⟨s.entry, s.frames.drop p.symbols.length⟩ (.nonterminal p.head)
      (p.shape.apply (childrenOf p s.frames)) := by
  have hframes := gather_frames p.parts.reverse s.frames []
  rw [List.filterMap_reverse, List.length_reverse] at hframes
  unfold reduce
  simp only [hframes]
  rfl

/-- A production with one symbol takes one symbol off the stack. -/
theorem reduce_push (hlength : p.symbols.length = 1) (x : Symbol) (trees : List Tree) :
    (base.push x trees).reduce p = base.push (.nonterminal p.head)
      (p.shape.apply (childrenOf p (base.push x trees).frames)) := by
  rw [reduce_eq, hlength]
  rfl

/-- A production with two symbols takes two symbols off the stack. -/
theorem reduce_push_push (hlength : p.symbols.length = 2) (x y : Symbol)
    (trees trees' : List Tree) :
    ((base.push x trees).push y trees').reduce p = base.push (.nonterminal p.head)
      (p.shape.apply (childrenOf p ((base.push x trees).push y trees').frames)) := by
  rw [reduce_eq, hlength]
  rfl

/-- A production with three symbols takes three symbols off the stack. -/
theorem reduce_push_push_push (hlength : p.symbols.length = 3) (x y z : Symbol)
    (trees trees' trees'' : List Tree) :
    (((base.push x trees).push y trees').push z trees'').reduce p =
      base.push (.nonterminal p.head) (p.shape.apply
        (childrenOf p (((base.push x trees).push y trees').push z trees'').frames)) := by
  rw [reduce_eq, hlength]
  rfl

theorem settleFrom_of_reduction {s : Stack} (fuel : Nat)
    (hread : s.state.canRead (.terminal t) = false) (hp : reduction? s.state t = some p) :
    settleFrom t (fuel + 1) s = settleFrom t fuel (s.reduce p) := by
  rw [settleFrom, hread, hp]
  rfl

theorem settleFrom_of_canRead {s : Stack} (fuel : Nat)
    (hread : s.state.canRead (.terminal t) = true) : settleFrom t fuel s = s := by
  cases fuel with
  | zero => rfl
  | succ fuel => rw [settleFrom, if_pos hread]

/-- In front of the terminal the stack is reduced to another one in as many steps. -/
def Leads (t : Terminal) (count : Nat) (s s' : Stack) : Prop :=
  ∀ fuel, settleFrom t (count + fuel) s = settleFrom t fuel s'

theorem Leads.refl (t : Terminal) (s : Stack) : Leads t 0 s s := fun fuel => by rw [Nat.zero_add]

theorem Leads.trans {s s' s'' : Stack} {m n : Nat} (h : Leads t m s s') (h' : Leads t n s' s'') :
    Leads t (m + n) s s'' := by
  intro fuel
  rw [Nat.add_assoc, h, h']

theorem Leads.of_reduction {s : Stack} (hread : s.state.canRead (.terminal t) = false)
    (hp : reduction? s.state t = some p) : Leads t 1 s (s.reduce p) := by
  intro fuel
  rw [Nat.add_comm, settleFrom_of_reduction fuel hread hp]

theorem state_empty (entry : Nonterminal) : (empty entry).state = State.start entry := rfl

theorem state_push (base : Stack) (x : Symbol) (trees : List Tree) :
    (base.push x trees).state = base.state.goto x := rfl

/-- Reductions replace the symbol on top by what it climbs to. -/
theorem exists_leads_of_climb {m : Nonterminal} {steps : Nat} (hstates : base.state ∈ states)
    (hm : Follows base.state t m) (hclimb : climb base.state t steps x = .nonterminal m)
    (trees : List Tree) :
    ∃ trees' count, count ≤ steps ∧
      Leads t count (base.push x trees) (base.push (.nonterminal m) trees') := by
  induction steps generalizing x trees with
  | zero =>
      cases hclimb
      exact ⟨trees, 0, Nat.le_refl 0, .refl t _⟩
  | succ steps ih =>
      rw [climb] at hclimb
      cases hreplaced : replaced? base.state t x with
      | none =>
          rw [hreplaced] at hclimb
          cases hclimb
          exact ⟨trees, 0, Nat.zero_le _, .refl t _⟩
      | some i =>
          rw [hreplaced] at hclimb
          have h := replaced_of_eq_some hreplaced
          have hlength : i.production.symbols.length = 1 := congrArg List.length h.alone
          have hp : reduction? (base.push x trees).state t = some i.production :=
            h.reduction?_eq hstates (follows_of_climb hstates hm hclimb)
          have hfirst : Leads t 1 (base.push x trees) _ := .of_reduction h.unread hp
          rw [reduce_push hlength] at hfirst
          obtain ⟨trees', count, hcount, hrest⟩ := ih hclimb
            (i.production.shape.apply (childrenOf i.production (base.push x trees).frames))
          exact ⟨trees', 1 + count, by omega, hfirst.trans hrest⟩

/-- The input ends when its entry is all that is left. -/
theorem finish_of_settle {s : Stack} {entry : Nonterminal} {tree : Tree}
    (h : s.settle .endOfInput = (empty entry).push (.nonterminal entry) [tree]) :
    s.finish = .ok tree := by
  refine finish_eq_ok_iff.mpr ⟨(empty entry).state.goto (.nonterminal entry), ?_⟩
  rw [h]
  rfl

theorem settleFrom_of_none {s : Stack} (fuel : Nat) (hp : reduction? s.state t = none) :
    settleFrom t fuel s = s := by
  cases fuel with
  | zero => rfl
  | succ fuel =>
      rw [settleFrom, hp]
      split <;> rfl

/-- There is room for as many reductions as there are nonterminals. -/
theorem le_reductionBound (s : Stack) : 45 ≤ s.reductionBound := by
  rw [reductionBound, Nonterminal.length_all]
  omega

/-- A few reductions do not use up the bound. -/
theorem Leads.exists_settle_eq {s s' : Stack} {count : Nat} (h : Leads t count s s')
    (hcount : count ≤ 45) : ∃ fuel, s.settle t = settleFrom t fuel s' := by
  obtain ⟨fuel, hfuel⟩ := Nat.exists_eq_add_of_le (hcount.trans s.le_reductionBound)
  exact ⟨fuel, by rw [← h, settle, hfuel]⟩

/-- Reductions go on until the terminal can be read. -/
theorem Leads.feed_eq {s s' : Stack} {l : Lexeme Terminal} {count : Nat}
    (h : Leads l.kind count s s') (hcount : count ≤ 45)
    (hread : s'.state.canRead (.terminal l.kind) = true) :
    s.feed l = .ok (s'.push (.terminal l.kind) [.leaf l]) := by
  obtain ⟨fuel, hsettle⟩ := h.exists_settle_eq hcount
  rw [settleFrom_of_canRead fuel hread] at hsettle
  rw [feed]
  simp only [hsettle]
  exact if_pos hread

/-- What can be read is read at once. -/
theorem feed_of_canRead {s : Stack} {l : Lexeme Terminal}
    (hread : s.state.canRead (.terminal l.kind) = true) :
    s.feed l = .ok (s.push (.terminal l.kind) [.leaf l]) :=
  (Leads.refl l.kind s).feed_eq (Nat.zero_le _) hread

/-- Reductions go on until nothing is left to reduce. -/
theorem Leads.settle_eq {s s' : Stack} {count : Nat} (h : Leads t count s s') (hcount : count ≤ 45)
    (hp : reduction? s'.state t = none) : s.settle t = s' := by
  obtain ⟨fuel, hsettle⟩ := h.exists_settle_eq hcount
  rw [hsettle, settleFrom_of_none fuel hp]

end Stack

/-! ### Lexemes -/

attribute [local irreducible] Stack.settle

/-- Behind the end of a line without indentation layout stays at the margin. -/
theorem read_lastLine {n : Lexeme Terminal} (hn : n.kind = .newline)
    (htext : n.text.toList = ['\n']) :
    ({} : Layout).read tabSize n = ⟨[n], .ok {}⟩ := by
  rw [Layout.read_newline (Layout.role_eq_newline_iff.mpr hn)]
  unfold Layout.readNewline
  simp only [htext]
  rfl

/-- A lexeme that brings no layout with it is read alone. -/
theorem Steps.of_feed {p : Progress} {l : Lexeme Terminal} {behind : Lexer.Cursor} {s : Stack}
    {layout : Layout} (hnext : Lexer.next (candidates p.stack.state) p.cursor = .lexeme l behind)
    (hread : p.layout.read tabSize l = ⟨[l], .ok layout⟩) (hfeed : p.stack.feed l = .ok s) :
    Steps p l ⟨behind, layout, some l, s, some l⟩ := by
  refine ⟨behind, hnext, read_eq_ok_iff.mpr ⟨s, layout, ?_, ?_, ?_⟩⟩
  · rw [hread, feedAll_cons_of_ok [] hfeed]
    rfl
  · rw [hread]
  · rw [hread]
    rfl

/-- A lexeme that layout leaves out does not come to the stack. -/
theorem Steps.of_silent {p : Progress} {l : Lexeme Terminal} {behind : Lexer.Cursor}
    {layout : Layout} (hnext : Lexer.next (candidates p.stack.state) p.cursor = .lexeme l behind)
    (hread : p.layout.read tabSize l = ⟨[], .ok layout⟩) :
    Steps p l ⟨behind, layout, some l, p.stack, p.lastFed⟩ := by
  refine ⟨behind, hnext, read_eq_ok_iff.mpr ⟨p.stack, layout, ?_, ?_, ?_⟩⟩
  · rw [hread]
    rfl
  · rw [hread]
  · rw [hread]
    rfl

/-- With no level of indentation open, the input ends as the stack does. -/
theorem finish_of_margin {p : Progress} {tree : Tree} (hlevels : p.layout.levels.dropLast = [])
    (h : p.stack.finish = .ok tree) : p.finish = .ok tree := by
  have hfeed : feedAll p.stack (p.layout.finish p.lastRead) = .ok p.stack := by
    unfold Layout.finish
    rw [hlevels]
    rfl
  rcases finish_cases p with ⟨_, hrejected, -⟩ | ⟨stack, hfed, hend⟩
  · cases hfeed.symm.trans hrejected
  · cases hfeed.symm.trans hfed
    rcases hend with ⟨_, hread, hp⟩ | ⟨_, hrejected, -⟩
    · cases h.symm.trans hread
      exact hp
    · cases h.symm.trans hrejected

/-- A run over the end of the last line, at the margin. -/
theorem Runs.of_lastLine {p : Progress} {s : Stack} {tree : Tree} (hlayout : p.layout = {})
    (hrest : p.cursor.rest = ['\n']) (hfeed : p.stack.feed (p.cursor.take .newline 1).1 = .ok s)
    (hfinish : s.finish = .ok tree) : Runs p [(p.cursor.take .newline 1).1] (.ok tree) := by
  have hfound : Lexer.first? (candidates p.stack.state ∪ Lexer.always) p.cursor.rest =
      some (.newline, 1) := by
    rw [hrest]
    exact Lexer.first?_lineEnd (Lexer.newline_mem _)
  have htext : (p.cursor.take .newline 1).1.text.toList = ['\n'] := by
    refine String.toList_ofList.trans ?_
    rw [hrest]
    rfl
  have hread : p.layout.read tabSize (p.cursor.take .newline 1).1 =
      ⟨[(p.cursor.take .newline 1).1], .ok {}⟩ := by
    rw [hlayout]
    exact read_lastLine rfl htext
  have hstep := Steps.of_feed (Lexer.next_of_first? hfound rfl) hread hfeed
  generalize hq : (⟨_, _, _, _, _⟩ : Progress) = q at hstep
  have hend : q.finish = .ok tree := by
    rw [← hq]
    exact finish_of_margin rfl hfinish
  have hdone : q.cursor.rest = [] := by
    rw [← hq]
    show p.cursor.rest.drop 1 = []
    rw [hrest]
    rfl
  have hrun := Runs.finished (Lexer.next_eq_iff.mpr (.finished hdone))
  rw [hend] at hrun
  exact .step hstep hrun

end SyntaxTriage.Parser
