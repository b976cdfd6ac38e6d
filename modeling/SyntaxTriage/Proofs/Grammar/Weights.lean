import Mathlib.Algebra.GroupWithZero.Nat
import SyntaxTriage.Proofs.Grammar.Follow

/-!
Weights of symbols. Whatever a production is reduced to weighs less than the symbols that it is
reduced from, except where it is reduced from nothing; and what may be empty weighs nothing and
never comes in front of a nonterminal.
-/

namespace SyntaxTriage.Grammar

/-- How far down productions with one symbol lead, besides those that may be empty. -/
def depthIn (table : Nat) : Symbol → Nat
  | .terminal _ => 0
  | .nonterminal n => slot 8 table (Numbered.index n)

def depthsFrom (table : Nat) (n : Nonterminal) : Nat :=
  foldNat (fun table p =>
    match p.symbols.filter (!isNullable ·) with
    | [x] =>
      force (depthIn table x + 1 - depthIn table (.nonterminal n)) fun missing =>
        table + missing <<< (8 * Numbered.index n)
    | _ => table) table (productionsOf n)

/-- For each nonterminal how far down productions with one symbol lead. -/
def depths : Nat := rounds (fun table => foldNat depthsFrom table Nonterminal.all.reverse) 178 0

/-- A symbol weighs nothing if it may be empty, and otherwise the less, the further down the last
of its parts may be. -/
def weight (x : Symbol) : Nat := if isNullable x then 0 else 100 - depthIn depths x

def weightOf (symbols : List Symbol) : Nat := (symbols.map weight).sum

theorem weight_le (x : Symbol) : weight x ≤ 100 := by
  unfold weight
  split
  · exact Nat.zero_le _
  · exact Nat.sub_le _ _

theorem weight_of_isNullable {x : Symbol} (h : isNullable x = true) : weight x = 0 := if_pos h

/-- What a production is reduced to weighs less than its right-hand side. -/
theorem weight_head_lt {n : Nonterminal} {p : Production} (hp : p ∈ productionsOf n)
    (hsymbols : p.symbols ≠ []) : weight (.nonterminal n) < weightOf p.symbols := by
  have h : (Nonterminal.all.all fun n => (productionsOf n).all fun p =>
      p.symbols.isEmpty || decide (weight (.nonterminal p.head) < weightOf p.symbols)) = true := by
    decide +kernel
  have hcheck := forall_productions h hp
  rw [head_of_mem_productionsOf hp] at hcheck
  simpa [hsymbols] using hcheck

/-- Whether the first symbol may not be empty if a nonterminal comes behind it. -/
def beginsFull : List Symbol → Bool
  | x :: .nonterminal _ :: _ => !isNullable x
  | _ => true

/-- No nonterminal stands behind a symbol that may be empty. -/
theorem not_isNullable_before {n m : Nonterminal} {p : Production} {x : Symbol}
    {before after : List Symbol} (hp : p ∈ productionsOf n)
    (hsymbols : p.symbols = before ++ x :: .nonterminal m :: after) : isNullable x = false := by
  have h : (Nonterminal.all.all fun n => (productionsOf n).all fun p =>
      (cuts p.symbols).all fun cut => beginsFull cut.2) = true := by decide +kernel
  have hcut : beginsFull (x :: .nonterminal m :: after) = true :=
    List.all_eq_true.mp (forall_productions h hp) _ (hsymbols ▸ mem_cuts before _)
  simpa [beginsFull] using hcut

end SyntaxTriage.Grammar
