import Mathlib.Algebra.Ring.Int.Defs
import SyntaxTriage.Proofs.Grammar.Masks

/-!
Lines and blocks in the productions. Whatever may hold the end of a line stands outside the brackets
of its production, and a production ends the blocks of lines that it begins, and no others.
-/

namespace SyntaxTriage.Grammar

variable {n : Nonterminal} {p : Production} {before after : List Symbol} {x : Symbol}

/-! ### Lines -/

def isLayout (t : Terminal) : Bool := t = .newline || t = .indent || t = .dedent

/-- Whether a text of the symbol may hold the end of a line, by a table for the nonterminals. -/
def holdsLineIn (table : Nat) : Symbol → Bool
  | .terminal t => isLayout t
  | .nonterminal n => table.testBit (Numbered.index n)

/-- The nonterminals whose texts may hold the end of a line. -/
def lineHolders : Nat :=
  rounds (fun table => foldNat (fun table p =>
    if p.symbols.any (holdsLineIn table) then setBit table (Numbered.index p.head) else table)
      table allProductions) 178 0

def holdsLine (x : Symbol) : Bool := holdsLineIn lineHolders x

/-- Outside the brackets of a production stands whatever may hold the end of a line. -/
theorem openBrackets_of_holdsLine (hp : p ∈ productionsOf n)
    (hsymbols : p.symbols = before ++ x :: after) (hx : holdsLine x = true) :
    holdsLine (.nonterminal n) = true ∧ openBrackets 0 before = some 0 := by
  have h : (Nonterminal.all.all fun n => (productionsOf n).all fun p => (cuts p.symbols).all
      fun cut => !cut.2.head?.any holdsLine ||
        holdsLine (.nonterminal p.head) && decide (openBrackets 0 cut.1 = some 0)) = true := by
    decide +kernel
  have hcut := List.all_eq_true.mp (forall_productions h hp) _ (hsymbols ▸ mem_cuts before _)
  rw [head_of_mem_productionsOf hp] at hcut
  simpa [hx] using hcut

/-- Whether a block may end right behind the symbol: a terminal has to end a line or a block. -/
def mayEndBlock : Symbol → Bool
  | .terminal t => isLayout t
  | .nonterminal _ => true

/-- What stands in front of the end of a block, and of branches that may follow one. -/
theorem getLast?_before (hp : p ∈ productionsOf n) (hsymbols : p.symbols = before ++ x :: after) :
    (x = .terminal .dedent → before.getLast?.any mayEndBlock = true) ∧
      (x = .nonterminal .elifs → before.getLast? = some (.nonterminal .suite)) := by
  have hall : (Nonterminal.all.all fun n => (productionsOf n).all fun p => (cuts p.symbols).all
      fun cut => decide ((cut.2.head? = some (.terminal .dedent) →
          cut.1.getLast?.any mayEndBlock = true) ∧
        (cut.2.head? = some (.nonterminal .elifs) →
          cut.1.getLast? = some (.nonterminal .suite)))) = true := by decide +kernel
  have hcut := of_decide_eq_true
    (List.all_eq_true.mp (forall_productions hall hp) _ (hsymbols ▸ mem_cuts before _))
  exact ⟨fun hx => hcut.1 (congrArg some hx), fun hx => hcut.2 (congrArg some hx)⟩

/-- Whether the end of a block may follow the nonterminal. -/
def precedesDedent (n : Nonterminal) : Bool :=
  hasBit (follow n).bits (Numbered.index Terminal.dedent)

/-- Where the end of a block may follow, a line or a block ends. Only in the place of branches there
may be nothing. -/
theorem getLast?_of_dedent (hp : p ∈ productionsOf n) (h : Terminal.dedent ∈ follow n) :
    p.symbols.getLast?.any mayEndBlock = true ∨ p.symbols = [] ∧ n = .elifs := by
  have hall : (Nonterminal.all.all fun n => !precedesDedent n || (productionsOf n).all fun p =>
      p.symbols.getLast?.any mayEndBlock || decide (p.symbols = [] ∧ n = .elifs)) = true := by
    decide +kernel
  have hn := List.all_eq_true.mp hall n (LawfulNumbered.mem_all n)
  have hprecedes : precedesDedent n = true := by
    rw [precedesDedent, hasBit_eq]
    exact h
  rw [hprecedes, Bool.not_true, Bool.false_or] at hn
  exact (Bool.or_eq_true_iff.mp (List.all_eq_true.mp hn p hp)).imp_right of_decide_eq_true

/-! ### Blocks -/

/-- How a symbol changes the number of open blocks. -/
def blockChange : Symbol → Int
  | .terminal .indent => 1
  | .terminal .dedent => -1
  | _ => 0

def openBlocks (symbols : List Symbol) : Int := (symbols.map blockChange).sum

@[simp] theorem openBlocks_nil : openBlocks [] = 0 := rfl

@[simp] theorem openBlocks_cons (x : Symbol) (symbols : List Symbol) :
    openBlocks (x :: symbols) = blockChange x + openBlocks symbols := List.sum_cons

@[simp] theorem openBlocks_append (before after : List Symbol) :
    openBlocks (before ++ after) = openBlocks before + openBlocks after := by
  rw [openBlocks, List.map_append, List.sum_append]
  rfl

/-- No production ends a block that it has not begun, and every one ends those that it has. -/
theorem openBlocks_nonneg (hp : p ∈ productionsOf n) (hsymbols : p.symbols = before ++ after) :
    0 ≤ openBlocks before ∧ (after = [] → openBlocks before = 0) := by
  have h : (Nonterminal.all.all fun n => (productionsOf n).all fun p => (cuts p.symbols).all
      fun cut => decide (0 ≤ openBlocks cut.1 ∧ (cut.2 = [] → openBlocks cut.1 = 0))) = true := by
    decide +kernel
  exact of_decide_eq_true
    (List.all_eq_true.mp (forall_productions h hp) _ (hsymbols ▸ mem_cuts before after))

theorem openBlocks_symbols (hp : p ∈ productionsOf n) : openBlocks p.symbols = 0 :=
  (openBlocks_nonneg hp (List.append_nil _).symm).2 rfl

end SyntaxTriage.Grammar
