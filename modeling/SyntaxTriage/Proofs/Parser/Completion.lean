import SyntaxTriage.Proofs.Grammar.Texts
import SyntaxTriage.Proofs.Parser.Live

/-!
Inputs that are completed. An item of the state stands above a stack that calls for its head, and
so on down to the entry. Behind each of them a brief text ends the production, what is reduced there
is the production itself, and what comes next is what the table of wanted terminals allows for. So
behind a terminal that can be read there is a word that is accepted to the end of the input.
-/

namespace SyntaxTriage

open Grammar

-- the tables are large, and nothing here should compute them
attribute [local irreducible] Lookahead.states Lookahead.sets wanted contexts follow
  Parser.Stack.settle

theorem Item.HasRead.next {i : Item} {before rest : List Symbol} {x : Symbol}
    (h : i.HasRead before) (hrest : i.rest = x :: rest) :
    ({ i with rest } : Item).HasRead (before ++ [x]) :=
  h.advance (advance?_eq_some_iff.mpr ⟨hrest, rfl⟩)

namespace Lookahead

/-! ### What is awaited -/

variable {s : State} {i j : Item} {t : Terminal} {x : Symbol} {before : List Symbol}

/-- The terminal may follow the head of the item, wherever the item stands in the state. -/
def Awaits (s : State) (i : Item) (t : Terminal) : Prop :=
  ∀ place, (i, place) ∈ placed s → t ∈ sets.getD place ∅

theorem exists_place (hi : i ∈ s.items) : ∃ place, (i, place) ∈ placed s := by
  rcases List.mem_append.mp hi with hi | hi
  · exact ⟨_, Parser.mem_placed_kernel hi⟩
  · exact ⟨_, Parser.mem_placed_opened hi⟩

/-- What an item awaits it awaits when its dot has moved. -/
theorem Awaits.goto (h : Awaits s j t) (hs : s ∈ states) (hj : j ∈ s.items)
    (hadvance : j.advance? x = some i) (hi : i.HasRead (before ++ [x])) :
    Awaits (s.goto x) i t := by
  obtain ⟨place, hplace⟩ := exists_place hj
  intro next hnext
  rcases List.mem_append.mp hnext with hnext | hnext
  · obtain ⟨k, -, heq⟩ := List.mem_map.mp hnext
    cases heq
    exact mem_sets_of_move hs hplace hadvance (h place hplace)
  · obtain ⟨k, hk, heq⟩ := List.mem_map.mp hnext
    cases heq
    have hsymbols := (hasRead_nil_of_mem_opening hk).symbols
    rw [hi.symbols] at hsymbols
    have hlength := congrArg List.length hsymbols
    simp only [List.length_append, List.length_cons, List.length_nil] at hlength
    omega

/-- What comes first among the items to reduce is reduced. -/
theorem reduction?_of_finishes (hs : s.Ordered) (hi : i ∈ s.items) (hrest : i.rest = [])
    (hawaits : Awaits s i t) (h : s.Finishes t i) :
    Parser.reduction? s t = some i.production := by
  obtain ⟨before, hread⟩ := hs.items i hi
  -- whatever may be reduced comes behind the item
  have hbehind {j : Item} {place : List Nat} (hj : (j, place) ∈ placed s) (hjrest : j.rest = [])
      (ht : t ∈ sets.getD place ∅) :
      i.number ≤ j.number ∧ (i.production.symbols = [] → j = i) := by
    obtain ⟨hmem, hplace⟩ := getElem?_place hj
    obtain ⟨hle, hempty⟩ := h.first j hmem hjrest (mem_follow_of_mem_sets ht hplace)
    obtain ⟨before', hjread⟩ := hs.items j hmem
    exact ⟨hle, fun hsymbols => hjread.eq_of_number hread (hempty hsymbols)⟩
  by_cases hkernel : i ∈ s.kernel
  · obtain ⟨j, hj⟩ : ∃ j, (s.kernel.filter (·.rest.isEmpty)).find?
        (fun j => t ∈ sets.getD (kernelPlace s j) ∅) = some j := by
      rw [← Option.isSome_iff_exists, List.find?_isSome]
      refine ⟨i, List.mem_filter.mpr ⟨hkernel, List.isEmpty_iff.mpr hrest⟩, ?_⟩
      exact decide_eq_true (hawaits _ (Parser.mem_placed_kernel hkernel))
    obtain rfl : j = i := by
      obtain ⟨ht, earlier, later, hsplit, hearlier⟩ := List.find?_eq_some_iff_append.mp hj
      have hjmem : j ∈ s.kernel.filter (·.rest.isEmpty) := List.mem_of_find?_eq_some hj
      obtain ⟨hjkernel, hjrest⟩ := List.mem_filter.mp hjmem
      obtain ⟨hle, -⟩ := hbehind (Parser.mem_placed_kernel hjkernel) (List.isEmpty_iff.mp hjrest)
        (of_decide_eq_true ht)
      obtain ⟨before', hjread⟩ := hs.items j (List.mem_append_left _ hjkernel)
      have himem : i ∈ s.kernel.filter (·.rest.isEmpty) :=
        List.mem_filter.mpr ⟨hkernel, List.isEmpty_iff.mpr hrest⟩
      have hsorted := hs.sorted.filter (·.rest.isEmpty)
      rw [hsplit] at himem hsorted
      rcases List.mem_append.mp himem with himem | himem
      · have hno := hearlier i himem
        rw [decide_eq_true (hawaits _ (Parser.mem_placed_kernel hkernel))] at hno
        contradiction
      · rcases List.mem_cons.mp himem with rfl | himem
        · rfl
        · have hprecedes := (List.pairwise_cons.mp (List.pairwise_append.mp hsorted).2.1).1 i himem
          have hge := hjread.number_le_of_precedes hread (List.isEmpty_iff.mp hjrest) hrest hprecedes
          exact hjread.eq_of_number hread (Nat.le_antisymm hge hle)
    have hfound : ((s.kernel.filter (·.rest.isEmpty)).map fun j =>
        (j.production, sets.getD (kernelPlace s j) ∅)).find? (t ∈ ·.2) =
          some (j.production, sets.getD (kernelPlace s j) ∅) := by
      rw [List.find?_map]
      exact congrArg (Option.map _) hj
    rw [Parser.reduction?, reductions, List.find?_append, hfound, Option.some_or, Option.map_some]
  · have hopened := (List.mem_append.mp hi).resolve_left hkernel
    have hsymbols : i.production.symbols = [] := by
      rw [hread.symbols, hrest]
      have hnil := (hs.mem_opened.mp hopened).1.symbols
      rw [hread.symbols, hrest] at hnil
      exact hnil
    cases hfound : (reductions s).find? (t ∈ ·.2) with
    | none =>
        rw [List.find?_eq_none] at hfound
        have hmem : (i.production, sets.getD (openedPlace s i.head) ∅) ∈ reductions s :=
          List.mem_append_right _ (List.mem_map.mpr
            ⟨i, List.mem_filter.mpr ⟨hopened, List.isEmpty_iff.mpr hrest⟩, rfl⟩)
        exact absurd (decide_eq_true (hawaits _ (Parser.mem_placed_opened hopened)))
          (hfound _ hmem)
    | some entry =>
        have ht : t ∈ entry.2 := by simpa using List.find?_some hfound
        have hmem := List.mem_of_find?_eq_some hfound
        rw [Parser.reduction?, hfound]
        rcases List.mem_append.mp hmem with hmem | hmem
        all_goals
          obtain ⟨j, hj, rfl⟩ := List.mem_map.mp hmem
          obtain ⟨hj, hjrest⟩ := List.mem_filter.mp hj
        · rw [(hbehind (Parser.mem_placed_kernel hj) (List.isEmpty_iff.mp hjrest) ht).2 hsymbols]
          rfl
        · rw [(hbehind (Parser.mem_placed_opened hj) (List.isEmpty_iff.mp hjrest) ht).2 hsymbols]
          rfl

end Lookahead

namespace Parser.Stack

/-! ### Standing in an item -/

/-- The stack `s` stands in the item behind the symbols `before`, above the stack `b`, which calls
for the head of the item. -/
structure Above (b : Stack) (i : Item) (before : List Symbol) (s : Stack) : Prop where
  live : s.Live
  frames : ∃ read, s = ⟨b.entry, read ++ b.frames⟩ ∧ read.reverse.map Frame.symbol = before
  calls : b.Calls i.head
  hasRead : i.HasRead before

section

variable {b s : Stack} {i : Item} {before rest : List Symbol} {x : Symbol} {t : Terminal}

theorem Above.self (h : s.Live) (hcalls : s.Calls i.head) (hi : i.HasRead []) : s.Above i [] s :=
  ⟨h, ⟨[], rfl, rfl⟩, hcalls, hi⟩

theorem Above.live_base (h : b.Above i before s) : b.Live := by
  obtain ⟨read, rfl, -⟩ := h.frames
  exact h.live.below rfl

theorem Above.mem (h : b.Above i before s) : i ∈ s.state.items := by
  obtain ⟨read, rfl, rfl⟩ := h.frames
  exact IsPath.mem_items h.live.built h.calls h.hasRead

theorem Above.state_eq (h : b.Above i before s) : s.state = before.foldl State.goto b.state := by
  obtain ⟨read, rfl, rfl⟩ := h.frames
  exact IsPath.state_eq h.live.built

/-- What an item calls for is called for where the stack stands in it. -/
theorem Above.calls_next {n : Nonterminal} (h : b.Above i before s)
    (hrest : i.rest = .nonterminal n :: rest) : s.Calls n :=
  .inl (h.live.ordered.toGrammatical.calls_of_mem h.mem hrest)

theorem Above.push (h : b.Above i before s) (hrest : i.rest = x :: rest) {trees : List Tree}
    (hbuilt : (s.push x trees).Built) :
    b.Above { i with rest } (before ++ [x]) (s.push x trees) := by
  refine ⟨h.live.push (State.canRead_of_mem h.mem hrest) hbuilt, ?_, h.calls, ?_⟩
  · obtain ⟨read, rfl, rfl⟩ := h.frames
    refine ⟨⟨x, _, trees⟩ :: read, rfl, ?_⟩
    rw [List.reverse_cons, List.map_append]
    rfl
  · exact h.hasRead.next hrest

/-- What the items with nothing read await is awaited all along. -/
theorem Above.awaits (h : b.Above i before s)
    (hbase : ∀ j : Item, j.head = i.head → j.HasRead [] → Lookahead.Awaits b.state j t) :
    Lookahead.Awaits s.state i t := by
  obtain ⟨live, ⟨read, rfl, rfl⟩, calls, hasRead⟩ := h
  induction read generalizing i with
  | nil => exact hbase i rfl hasRead
  | cons f read ih =>
      rw [List.reverse_cons, List.map_append] at hasRead
      let j : Item := { i with rest := f.symbol :: i.rest }
      have hj : j.HasRead (read.reverse.map Frame.symbol) := by
        refine ⟨hasRead.chosen, ?_⟩
        rw [hasRead.symbols, List.append_assoc]
        rfl
      have hbelow : (Stack.mk b.entry (read ++ b.frames)).Live :=
        @Live.below ⟨b.entry, f :: (read ++ b.frames)⟩ [f] _ live rfl
      have hawaits := ih (i := j) hbase calls hbelow hj
      cases (live.built : IsPath b.entry (f :: (read ++ b.frames))) with
      | cons step _ below =>
          show Lookahead.Awaits f.state i t
          rw [step]
          exact hawaits.goto hbelow.reachable.mem_states (below.mem_items (i := j) calls hj)
            (Item.advance?_eq_some_iff.mpr ⟨rfl, rfl⟩) hasRead

end

/-! ### Words that are accepted -/

/-- Whatever lexemes of these kinds come, they are read, and the input can end behind them. -/
def Accepts : Stack → List Terminal → Prop
  | s, [] => ∃ tree, s.finish = .ok tree
  | s, t :: word => ∀ l : Lexeme Terminal, l.kind = t → ∃ s', s.feed l = .ok s' ∧ Accepts s' word

/-- What is accepted after some reductions is accepted before them. -/
theorem Accepts.of_settle {s s' : Stack} {word : List Terminal} (h : s'.Accepts word)
    (hsettle : s.settle (nextOf word .endOfInput) = s'.settle (nextOf word .endOfInput)) :
    s.Accepts word := by
  cases word with
  | nil =>
      obtain ⟨tree, htree⟩ := h
      rw [nextOf_nil] at hsettle
      rw [finish_eq_ok_iff, ← hsettle, ← finish_eq_ok_iff] at htree
      exact ⟨tree, htree⟩
  | cons t word =>
      intro l hl
      obtain ⟨next, hfeed, hnext⟩ := h l hl
      rw [nextOf_cons, ← hl] at hsettle
      have hsame : s.feed l = s'.feed l := by
        unfold feed
        rw [hsettle]
      exact ⟨next, hsame.trans hfeed, hnext⟩

/-- The word is a way to go on behind the nonterminal, above a stack that calls for it: behind a
brief text of the nonterminal its productions are reduced, and then the word is accepted. -/
structure GoesOn (b : Stack) (n : Nonterminal) (word : List Terminal) : Prop where
  next : nextOf word .endOfInput ∈ wantedBehind n
  covered : b.state.IsIn (contextOf n)
  awaits : ∀ j : Item, j.head = n → j.HasRead [] →
    Lookahead.Awaits b.state j (nextOf word .endOfInput)
  finishes : ∀ j : Item, j.head = n → j.HasRead j.production.symbols →
    (j.production.symbols.foldl State.goto b.state).Finishes (nextOf word .endOfInput) j
  accepts : ∀ trees : List Tree, (n ∈ Lookahead.entries → trees.length = 1) →
    (b.push (.nonterminal n) trees).Accepts word

/-- A whole input is one tree. -/
theorem length_apply {n : Nonterminal} {p : Production} (hp : p ∈ productionsOf n)
    (hn : n ∈ Lookahead.entries) (children : List Tree) :
    (p.shape.apply children).length = 1 := by
  have hshape := shape_ne_splice hp hn
  unfold Shape.apply
  split
  · rfl
  · rfl
  · rfl
  · contradiction

section

variable {b s : Stack} {i : Item} {before rest : List Symbol} {word more : List Terminal}
  {m : Nonterminal}

/-- At the end of an item its production is reduced. -/
theorem GoesOn.accepts_of_rest_eq_nil (h : b.GoesOn i.head word) (hs : b.Above i before s)
    (hrest : i.rest = []) : s.Accepts word := by
  have hsymbols : before = i.production.symbols := by
    rw [hs.hasRead.symbols, hrest, List.append_nil]
  subst hsymbols
  have hfinishes := h.finishes i rfl hs.hasRead
  rw [← hs.state_eq] at hfinishes
  have hreduction := Lookahead.reduction?_of_finishes hs.live.ordered hs.mem hrest
    (hs.awaits h.awaits) hfinishes
  have hsettle := settle_of_reduction hs.live.built hfinishes.unread hreduction
  obtain ⟨read, rfl, hread⟩ := hs.frames
  have hcompletes : (Stack.mk b.entry (read ++ b.frames)).Completes i.production read b.frames :=
    ⟨hs.hasRead.mem_productionsOf, rfl, hread.symm⟩
  rw [hcompletes.reduce] at hsettle
  exact (h.accepts _ fun hentry =>
    length_apply hs.hasRead.mem_productionsOf hentry _).of_settle hsettle

/-- How to go on behind what an item calls for: with a brief text of the rest of the item. -/
theorem GoesOn.called (h : b.GoesOn i.head word) (hs : b.Above i before s)
    (hrest : i.rest = .nonterminal m :: rest)
    (hbrief : isBrief i.production (before.length + 1) = true) (hrec : ¬(before = [] ∧ m = i.head))
    (hmore : Expands rest more)
    (haccepts : ∀ trees, (s.push (.nonterminal m) trees).Accepts (more ++ word)) :
    s.GoesOn m (more ++ word) := by
  have hnext : nextOf (more ++ word) .endOfInput = nextOf more (nextOf word .endOfInput) := by
    cases more <;> rfl
  obtain ⟨hcovered, hcalled⟩ :=
    h.covered.called hs.live_base.ordered.toGrammatical hs.hasRead hrest
  obtain ⟨hwanted, hfinishes⟩ := hcalled hbrief hrec _ (hmore.nextOf_mem h.next)
  rw [← hnext] at hwanted hfinishes
  rw [← hs.state_eq] at hcovered hfinishes
  refine ⟨hwanted, hcovered, fun j hj hjread place hplace => ?_, hfinishes,
    fun trees _ => haccepts trees⟩
  have hgrammatical := hs.live.ordered.toGrammatical
  have hcalls := hgrammatical.calls_of_mem hs.mem hrest
  have hmem := hs.live.reachable.mem_states
  -- an item with nothing read stands among the opened ones
  obtain rfl : place = Lookahead.openedPlace s.state m := by
    rcases List.mem_append.mp hplace with hplace | hplace
    · obtain ⟨k, hk, heq⟩ := List.mem_map.mp hplace
      cases heq
      obtain ⟨read, below, hframes, hread, -, hkernel⟩ := IsPath.exists_calls hs.live.built
        (List.mem_append_left _ hk)
      have hnil : read = [] := by
        have hsymbols := hread.symbols
        rw [hjread.symbols] at hsymbols
        have hlength := congrArg List.length hsymbols
        simp only [List.length_append, List.length_map, List.length_reverse,
          List.length_nil] at hlength
        exact List.eq_nil_of_length_eq_zero (by omega)
      have hhead := (hkernel hk hnil).2
      rw [hj] at hhead
      exact absurd hhead (hcalls.ne_entry hgrammatical hs.live.entry)
    · obtain ⟨k, -, heq⟩ := List.mem_map.mp hplace
      cases heq
      rw [hj]
  rw [hnext]
  cases more with
  | cons t more => exact Lookahead.mem_sets_of_first hmem hs.mem hrest hmore.mem_firstOf
  | nil =>
      obtain ⟨place, hplace⟩ := Lookahead.exists_place hs.mem
      exact Lookahead.mem_sets_of_call hmem hplace hrest hmore.all_isNullable
        (hs.awaits h.awaits place hplace)

/-- A brief text of the rest of an item is accepted, with what comes behind the item. -/
theorem accepts_of_expands (hmore : Expands rest more) (h : b.GoesOn i.head word)
    (hs : b.Above i before s) (hrest : i.rest = rest)
    (hbrief : isBrief i.production before.length = true)
    (hrec : before = [] → i.rest.head? ≠ some (.nonterminal i.head)) :
    s.Accepts (more ++ word) := by
  induction hmore generalizing b s i before word with
  | nil => exact h.accepts_of_rest_eq_nil hs hrest
  | @terminal t rest more _ _ ih =>
      intro l hl
      have hread := State.canRead_of_mem hs.mem hrest
      rw [← hl] at hread hrest
      refine ⟨_, feed_of_canRead hread, ?_⟩
      refine ih (i := { i with rest }) h (hs.push hrest (hs.live.built.push_leaf l)) rfl ?_ ?_
      · rw [List.length_append]
        exact isBrief_mono hbrief (Nat.le_add_right _ _)
      · simp
  | @nonterminal n p rest parts more mem brief hparts hbehind ihparts ih =>
      have hlonger : isBrief i.production (before.length + 1) = true :=
        isBrief_mono hbrief (Nat.le_add_right _ _)
      have haccepts (trees : List Tree) :
          (s.push (.nonterminal n) trees).Accepts (more ++ word) := by
        refine ih (i := { i with rest }) h
          (hs.push hrest (hs.live.built.push_nonterminal n trees)) rfl ?_ ?_
        · rwa [List.length_append]
        · simp
      have hgoes := h.called hs hrest hlonger
        (fun ⟨hnil, hn⟩ => hrec hnil (by rw [hrest, hn]; rfl)) hbehind haccepts
      obtain ⟨j, hj, rfl, rfl, hjrest⟩ := exists_hasRead mem (List.nil_append p.symbols).symm
      rw [List.append_assoc]
      refine ihparts hgoes (.self hs.live (hs.calls_next hrest) hj) hjrest brief fun _ => ?_
      rw [hjrest]
      exact head?_ne_of_isBrief mem brief

end

/-- What has been read of a production can go on with a text that can be laid out. -/
theorem exists_brief {i : Item} {before : List Symbol} {x : Symbol} (hi : i.HasRead (before ++ [x]))
    (hrec : ¬(before = [] ∧ x = .nonterminal i.head)) :
    ∃ j : Item, j.head = i.head ∧ j.HasRead (before ++ [x]) ∧
      isBrief j.production (before.length + 1) = true ∧
        ∃ word, Expands j.rest word ∧ isLaidOut (wantedBehind i.head) x word = true := by
  have hlength : (before ++ [x]).length = before.length + 1 := List.length_append
  obtain ⟨q, hq, htake, hbrief⟩ := @exists_isBrief _ _ (before ++ [x]).length hi.mem_productionsOf
    (by rw [hi.symbols, @List.length_append _ (before ++ [x])]; exact Nat.le_add_right _ _)
  rw [hi.symbols, List.take_left] at htake
  have hsymbols : q.symbols = before ++ [x] ++ q.symbols.drop (before ++ [x]).length := by
    conv_lhs => rw [← List.take_append_drop (before ++ [x]).length q.symbols, htake]
  obtain ⟨j, hj, rfl, hhead, -⟩ := exists_hasRead hq hsymbols
  rw [hlength] at hbrief
  rw [← hhead] at hrec ⊢
  exact ⟨j, rfl, hj, hbrief, hj.exists_text hbrief hrec⟩

/-- How to go on behind the whole input. -/
theorem goesOn_entry {b : Stack} (hb : b.Live) (hframes : b.frames = []) :
    b.GoesOn b.entry [] := by
  obtain ⟨entry, frames⟩ := b
  obtain rfl : frames = [] := hframes
  have hentry : entry ∈ Lookahead.entries := hb.entry
  refine ⟨State.endOfInput_mem_wantedBehind hentry, State.isIn_contextOf_start hentry,
    fun j hj hread place hplace => ?_, fun j hj hread => State.finishes_start hentry hj hread,
    fun trees htrees => ?_⟩
  · rcases List.mem_append.mp hplace with hplace | hplace
    · obtain ⟨k, hk, heq⟩ := List.mem_map.mp hplace
      cases heq
      exact Lookahead.endOfInput_mem_sets hentry hk
    · obtain ⟨k, hk, heq⟩ := List.mem_map.mp hplace
      cases heq
      have hgrammatical := State.grammatical_start entry
      exact absurd hj ((hgrammatical.mem_opened.mp hk).2.ne_entry hgrammatical hentry)
  · obtain ⟨tree, rfl⟩ := List.length_eq_one_iff.mp (htrees hentry)
    have hnone : reduction? (push ⟨entry, []⟩ (.nonterminal entry) [tree]).state .endOfInput =
        none := by
      rw [state_push]
      exact reduction?_of_items_eq_nil
        (State.items_goto_entry (State.grammatical_start entry) hentry) _
    refine ⟨tree, finish_eq_ok_iff.mpr
      ⟨(Stack.mk entry []).state.goto (.nonterminal entry), ?_⟩⟩
    rw [settle_of_none hnone]
    rfl

section

variable {b s : Stack} {i : Item} {before rest : List Symbol} {word : List Terminal}
  {m : Nonterminal}

/-- A way to go on behind what an item calls for. -/
theorem GoesOn.exists_called (h : b.GoesOn i.head word) (hspelled : ∀ t ∈ word, isSpelled t = true)
    (hlays : LaysOut word) (hs : b.Above i before s) (hrest : i.rest = .nonterminal m :: rest)
    (hrec : ¬(before = [] ∧ m = i.head)) :
    ∃ word, s.GoesOn m word ∧ (∀ t ∈ word, isSpelled t = true) ∧ LaysOut word := by
  obtain ⟨j, hhead, hj, hbrief, more, hmore, hlaid⟩ :=
    exists_brief (hs.hasRead.next hrest) fun ⟨hnil, hm⟩ => hrec ⟨hnil, Symbol.nonterminal.inj hm⟩
  have hhead : j.head = i.head := hhead
  have hlaid : isLaidOut (wantedBehind i.head) (.nonterminal m) more = true := hlaid
  -- the brief item stands beside the given one
  have habove : b.Above { j with rest := .nonterminal m :: j.rest } before s := by
    refine ⟨hs.live, hs.frames, ?_, hj.chosen, ?_⟩
    · have hcalls := hs.calls
      rwa [← hhead] at hcalls
    · rw [hj.symbols, List.append_assoc]
      rfl
  have hgoes : b.GoesOn j.head word := by rwa [hhead]
  refine ⟨more ++ word, GoesOn.called (i := { j with rest := .nonterminal m :: j.rest }) hgoes
    habove rfl hbrief (by rwa [← hhead] at hrec) hmore
    fun trees => ?_, ?_, (laysOut_of_isLaidOut hlaid hlays h.next).1⟩
  · refine accepts_of_expands hmore hgoes
      (habove.push rfl (habove.live.built.push_nonterminal m trees)) rfl ?_ ?_
    · rwa [List.length_append]
    · simp
  · intro t ht
    exact (List.mem_append.mp ht).elim (hmore.isSpelled t) (hspelled t)

/-- Behind everything that is called for there is a way to go on. -/
theorem exists_goesOn {n : Nonterminal} (hb : b.Live) (hn : b.Calls n) :
    ∃ word, b.GoesOn n word ∧ (∀ t ∈ word, isSpelled t = true) ∧ LaysOut word := by
  have hwhole {b : Stack} (hb : b.Live) (hframes : b.frames = []) :
      ∃ word, b.GoesOn b.entry word ∧ (∀ t ∈ word, isSpelled t = true) ∧ LaysOut word :=
    ⟨[], goesOn_entry hb hframes, (fun _ ht => by cases ht), List.IsChain.singleton _⟩
  induction hlength : b.frames.length using Nat.strong_induction_on generalizing b n with
  | _ length ih =>
      rcases hn with hcalls | ⟨hframes, rfl⟩
      · induction hcalls with
        | @kernel i n rest mem hrest =>
            obtain ⟨read, below, hframes, hread, hcalls, hkernel⟩ :=
              IsPath.exists_calls hb.built (List.mem_append_left _ mem)
            have hbelow := hb.below hframes
            obtain ⟨word, hgoes, hspelled, hlays⟩ : ∃ word,
                (Stack.mk b.entry below).GoesOn i.head word ∧ (∀ t ∈ word, isSpelled t = true) ∧
                  LaysOut word := by
              cases read with
              | nil =>
                  obtain ⟨hnil, hhead⟩ := hkernel mem rfl
                  rw [hhead]
                  exact hwhole hbelow (hframes.symm.trans hnil)
              | cons f read =>
                  refine ih below.length ?_ hbelow hcalls rfl
                  rw [← hlength, hframes, List.length_append, List.length_cons]
                  omega
            refine hgoes.exists_called hspelled hlays
              ⟨hb, ⟨read, by rw [← hframes], rfl⟩, hcalls, hread⟩ hrest ?_
            -- in the kernel nothing has been read only of the whole input
            rintro ⟨hnil, rfl⟩
            have hnil : read = [] := by simpa using hnil
            have hgrammatical := hb.ordered.toGrammatical
            exact (hgrammatical.calls_of_mem (List.mem_append_left _ mem) hrest).ne_entry
              hgrammatical hb.entry (hkernel mem hnil).2
        | @opened m n p rest outer mem hsymbols ihouter =>
            obtain ⟨word, hgoes, hspelled, hlays⟩ := ihouter
            by_cases hm : n = m
            · rw [hm]
              exact ⟨word, hgoes, hspelled, hlays⟩
            · obtain ⟨j, hj, rfl, rfl, hjrest⟩ :=
                exists_hasRead mem (List.nil_append p.symbols).symm
              exact hgoes.exists_called hspelled hlays (.self hb (.inl outer) hj)
                (hjrest.trans hsymbols) fun ⟨_, hn⟩ => hm hn
      · exact hwhole hb hframes

end

/-- Behind a terminal that can be read every input can be completed, whatever lexeme it is. -/
theorem exists_accepts {s : Stack} {t : Terminal} (hs : s.Live)
    (hread : s.state.canRead (.terminal t) = true) :
    ∃ word, (∀ l : Lexeme Terminal, l.kind = t → (s.push (.terminal t) [.leaf l]).Accepts word) ∧
      (∀ t ∈ word, isSpelled t = true) ∧ LaysOut (t :: word) := by
  obtain ⟨i, hi, rest, hrest⟩ := State.canRead_iff.mp hread
  obtain ⟨read, base, hframes, hiread, hcalls, -⟩ := IsPath.exists_calls hs.built hi
  obtain ⟨j, hhead, hj, hbrief, more, hmore, hlaid⟩ :=
    exists_brief (hiread.next hrest) fun h => by cases h.2
  have hhead : j.head = i.head := hhead
  have hlaid : isLaidOut (wantedBehind i.head) (.terminal t) more = true := hlaid
  rw [← hhead] at hlaid hcalls
  have hbase := hs.below hframes
  obtain ⟨word, hgoes, hspelled, hlays⟩ := exists_goesOn hbase hcalls
  obtain ⟨hmoreLays, ht⟩ := laysOut_of_isLaidOut hlaid hlays hgoes.next
  refine ⟨more ++ word, fun l hl => ?_, fun u hu => ?_, hmoreLays.cons (ht t rfl)⟩
  · subst hl
    have habove : (Stack.mk s.entry base).Above j
        (read.reverse.map Frame.symbol ++ [.terminal l.kind])
        (s.push (.terminal l.kind) [.leaf l]) := by
      let top : Frame := ⟨.terminal l.kind, s.state.goto (.terminal l.kind), [.leaf l]⟩
      refine ⟨hs.push hread (hs.built.push_leaf l), ⟨top :: read, ?_, ?_⟩, hcalls, hj⟩
      · rw [push, hframes]
        rfl
      · rw [List.reverse_cons, List.map_append]
        rfl
    refine accepts_of_expands hmore hgoes habove rfl ?_ ?_
    · rwa [List.length_append]
    · simp
  · exact (List.mem_append.mp hu).elim (hmore.isSpelled u) (hspelled u)

end Parser.Stack

end SyntaxTriage
