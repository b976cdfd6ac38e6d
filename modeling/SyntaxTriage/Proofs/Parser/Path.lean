import SyntaxTriage.Parser.Stack
import SyntaxTriage.Proofs.Grammar.Lookahead

/-!
The stack as a path through the automaton. On a path the symbols on top of the stack are what the
items of its state have read, so a reduction takes off exactly the right-hand side that it names.
`Stack.settle_induction` packs that up: what every reduction of a whole right-hand side keeps is
kept in front of every terminal.
-/

namespace SyntaxTriage.Parser

open Grammar

-- the lookahead sets are large, and nothing here should compute them
attribute [local irreducible] Lookahead.sets

/-- The frames of a stack are made one after another by steps of the automaton, and the frame of a
terminal holds a lexeme of that kind. -/
inductive IsPath (entry : Nonterminal) : List Frame → Prop
  | nil : IsPath entry []
  | cons {f : Frame} {frames : List Frame}
      (step : f.state = (Stack.mk entry frames).state.goto f.symbol)
      (leaf : ∀ t, f.symbol = .terminal t → ∃ l : Lexeme Terminal, l.kind = t ∧ f.trees = [.leaf l])
      (below : IsPath entry frames) : IsPath entry (f :: frames)

theorem IsPath.drop {entry : Nonterminal} {frames : List Frame} (h : IsPath entry frames)
    (count : Nat) : IsPath entry (frames.drop count) := by
  induction count generalizing frames with
  | zero => exact h
  | succ count ih =>
      cases h with
      | nil => exact .nil
      | cons _ _ below => exact ih below

/-- What an item of the state has read are the symbols on top of the stack. -/
theorem IsPath.hasRead {entry : Nonterminal} {frames : List Frame} (h : IsPath entry frames)
    {i : Item} (hi : i ∈ (Stack.mk entry frames).state.items) :
    ∃ read below, frames = read ++ below ∧ i.HasRead (read.reverse.map Frame.symbol) := by
  induction h generalizing i with
  | nil => exact ⟨[], [], rfl, State.hasRead_nil_of_mem_start hi⟩
  | @cons f frames step _ _ ih =>
      have hi : i ∈ f.state.items := hi
      rw [step] at hi
      rcases State.mem_goto hi with hnil | ⟨j, hj, hadvance⟩
      · exact ⟨[], f :: frames, rfl, hnil⟩
      · obtain ⟨read, below, rfl, hread⟩ := ih hj
        refine ⟨f :: read, below, rfl, ?_⟩
        rw [List.reverse_cons, List.map_append]
        exact hread.advance hadvance

namespace Stack

def Built (s : Stack) : Prop := IsPath s.entry s.frames

def symbols (s : Stack) : List Symbol := s.frames.reverse.map Frame.symbol

@[simp] theorem push_entry (s : Stack) (x : Symbol) (trees : List Tree) :
    (s.push x trees).entry = s.entry := rfl

@[simp] theorem symbols_push (s : Stack) (x : Symbol) (trees : List Tree) :
    (s.push x trees).symbols = s.symbols ++ [x] := by
  simp [symbols, push]

theorem Built.push_nonterminal {s : Stack} (h : s.Built) (n : Nonterminal) (trees : List Tree) :
    (s.push (.nonterminal n) trees).Built :=
  .cons rfl (fun _ ht => by cases ht) h

theorem Built.push_leaf {s : Stack} (h : s.Built) (l : Lexeme Terminal) :
    (s.push (.terminal l.kind) [.leaf l]).Built :=
  .cons rfl (fun _ ht => ⟨l, Symbol.terminal.inj ht, rfl⟩) h

/-- The right-hand side `p` lies on top of the stack, in the frames `read`. -/
structure Completes (s : Stack) (p : Production) (read below : List Frame) : Prop where
  grammatical : p ∈ productionsOf p.head
  frames : s.frames = read ++ below
  symbols : p.symbols = read.reverse.map Frame.symbol

/-- A reduction is asked for only where its right-hand side has been read. -/
theorem Built.completes {s : Stack} (h : s.Built) {t : Terminal} {p : Production}
    (hp : reduction? s.state t = some p) : ∃ read below, s.Completes p read below := by
  obtain ⟨entry, hentry, rfl⟩ := Option.map_eq_some_iff.mp hp
  obtain ⟨i, hi, hrest, place, rfl⟩ :=
    Lookahead.exists_of_mem_reductions (List.mem_of_find?_eq_some hentry)
  obtain ⟨read, below, hframes, hread⟩ := IsPath.hasRead h hi
  refine ⟨read, below, ?_, hframes, ?_⟩
  · exact hread.mem_productionsOf
  · rw [hread.symbols, hrest, List.append_nil]

theorem gather_frames (parts : List Part) (frames : List Frame) (children : List Tree) :
    (gather parts frames children).2 = frames.drop (parts.filterMap Part.symbol?).length := by
  induction parts generalizing frames children with
  | nil => rfl
  | cons part parts ih =>
      cases part with
      | absent => exact ih frames _
      | token t | mark t | sub n =>
          exact (ih frames.tail _).trans List.drop_tail

/-- What a production leaves in the tree, made of the frames that hold its right-hand side. -/
def childrenOf (p : Production) (frames : List Frame) : List Tree :=
  (gather p.parts.reverse frames []).1

theorem Completes.reduce {s : Stack} {p : Production} {read below : List Frame}
    (h : s.Completes p read below) :
    s.reduce p = push ⟨s.entry, below⟩ (.nonterminal p.head)
      (p.shape.apply (childrenOf p s.frames)) := by
  have hlength : (p.parts.reverse.filterMap Part.symbol?).length = read.length := by
    rw [List.filterMap_reverse, List.length_reverse]
    show p.symbols.length = _
    rw [h.symbols, List.length_map, List.length_reverse]
  have hbelow : (gather p.parts.reverse s.frames []).2 = below := by
    rw [gather_frames, hlength, h.frames, List.drop_left]
  rw [← hbelow]
  rfl

theorem Completes.symbols_eq {s : Stack} {p : Production} {read below : List Frame}
    (h : s.Completes p read below) :
    s.symbols = (Stack.mk s.entry below).symbols ++ p.symbols := by
  rw [Stack.symbols, h.frames, h.symbols, List.reverse_append, List.map_append]
  rfl

theorem Completes.symbols_reduce {s : Stack} {p : Production} {read below : List Frame}
    (h : s.Completes p read below) :
    (s.reduce p).symbols = (Stack.mk s.entry below).symbols ++ [.nonterminal p.head] := by
  rw [h.reduce, symbols_push]

theorem Completes.built {s : Stack} {p : Production} {read below : List Frame}
    (h : s.Completes p read below) (hs : s.Built) : (s.reduce p).Built := by
  rw [h.reduce]
  refine Built.push_nonterminal ?_ _ _
  have hdrop := IsPath.drop hs read.length
  rw [h.frames, List.drop_left] at hdrop
  exact hdrop

/-- What a reduction keeps is kept by all reductions in front of a terminal. -/
theorem settle_induction {P : Stack → Prop}
    (step : ∀ (s : Stack) (p : Production) (read below : List Frame), s.Built →
      s.Completes p read below → P s → P (s.reduce p))
    (t : Terminal) {s : Stack} (hs : s.Built) (h : P s) :
    (s.settle t).Built ∧ P (s.settle t) := by
  suffices ∀ fuel (s : Stack), s.Built → P s →
      (settleFrom t fuel s).Built ∧ P (settleFrom t fuel s) from this _ s hs h
  intro fuel
  induction fuel with
  | zero => exact fun s hs h => ⟨hs, h⟩
  | succ fuel ih =>
      intro s hs h
      unfold settleFrom
      split
      · exact ⟨hs, h⟩
      · split
        · rename_i p hp
          obtain ⟨read, below, hcompletes⟩ := hs.completes hp
          exact ih _ (hcompletes.built hs) (step s p read below hs hcompletes h)
        · exact ⟨hs, h⟩

/-- What reading a lexeme comes to, if it succeeds. -/
theorem feed_eq_ok_iff {s s' : Stack} {l : Lexeme Terminal} :
    s.feed l = .ok s' ↔ (s.settle l.kind).state.canRead (.terminal l.kind) = true ∧
      s' = (s.settle l.kind).push (.terminal l.kind) [.leaf l] := by
  unfold feed
  simp only
  split
  · rename_i h
    simp [h, eq_comm]
  · rename_i h
    simp [h]

end Stack

end SyntaxTriage.Parser
