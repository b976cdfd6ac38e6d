import SyntaxTriage.Proofs.Parser.Literal
import SyntaxTriage.Proofs.Parser.Prefix

/-!
Indentations that nothing calls for. No production is reduced in front of an indentation, so where
it cannot be read at once it is refused, and stays refused whatever follows.
-/

namespace SyntaxTriage.Parser

open Grammar Lookahead

-- the lookahead sets and the bound on reductions are large, and nothing here should compute them
attribute [local irreducible] Lookahead.sets Lookahead.states Stack.settle

/-! ### Stacks -/

namespace Stack

/-- No production is reduced in front of an indentation. -/
theorem settle_indent (s : Stack) : s.settle .indent = s := by
  have hnone : reduction? s.state .indent = none := by
    rw [reduction?, Option.map_eq_none_iff, List.find?_eq_none]
    intro entry hentry
    obtain ⟨i, -, -, place, rfl⟩ := exists_of_mem_reductions hentry
    simpa using indent_not_mem_sets place
  rw [settle, settleFrom_of_none _ hnone]

theorem feed_indent {s : Stack} {l : Lexeme Terminal} (hl : l.kind = .indent)
    (hread : s.state.canRead (.terminal .indent) = false) : s.feed l = .error s := by
  have hok := isOk_feed s l
  rw [hl, settle_indent, hread] at hok
  cases hfeed : s.feed l with
  | ok t =>
      rw [hfeed] at hok
      cases hok
  | error t => rw [feed_eq_error hfeed, hl, settle_indent]

theorem mem_candidates_of_feed {s s' : Stack} {l : Lexeme Terminal} (h : s.feed l = .ok s') :
    l.kind ∈ candidates s.state := by
  cases hp : reduction? s.state l.kind with
  | some p => exact mem_candidates_of_reduction? hp
  | none =>
      have hread := (feed_eq_ok_iff.mp h).1
      rw [settle, settleFrom_of_none _ hp] at hread
      exact mem_candidates.mpr (.inl hread)

end Stack

end SyntaxTriage.Parser
