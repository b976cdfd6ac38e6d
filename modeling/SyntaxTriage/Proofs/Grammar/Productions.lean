import SyntaxTriage.Lexeme
import SyntaxTriage.Proofs.Grammar.Items

/-!
Facts about all productions of the grammar. Each is a check that is made once, over the list of the
nonterminals; everything that is said later about stacks and texts rests on these few checks.

Brackets are counted over symbols as layout counts them over lexemes: a closing bracket without an
open one has no count.
-/

namespace SyntaxTriage.Grammar

theorem forall_productions {check : Production → Bool}
    (h : (Nonterminal.all.all fun n => (productionsOf n).all check) = true)
    {n : Nonterminal} {p : Production} (hp : p ∈ productionsOf n) : check p = true :=
  List.all_eq_true.mp (List.all_eq_true.mp h n (LawfulNumbered.mem_all n)) p hp

/-! ### Brackets -/

def countBracket (depth : Nat) : Symbol → Option Nat
  | .nonterminal _ => some depth
  | .terminal t =>
    match LayoutKind.role t with
    | .opening => some (depth + 1)
    | .closing => if depth = 0 then none else some (depth - 1)
    | .newline | .other => some depth

/-- The number of open brackets behind the symbols, if `depth` are open before them. -/
def openBrackets (depth : Nat) (symbols : List Symbol) : Option Nat :=
  symbols.foldlM countBracket depth

theorem openBrackets_cons (depth : Nat) (x : Symbol) (symbols : List Symbol) :
    openBrackets depth (x :: symbols) =
      (countBracket depth x).bind fun depth => openBrackets depth symbols := rfl

theorem openBrackets_append (depth : Nat) (before after : List Symbol) :
    openBrackets depth (before ++ after) =
      (openBrackets depth before).bind fun depth => openBrackets depth after := by
  simp [openBrackets, List.foldlM_append]

theorem countBracket_add {depth found : Nat} {x : Symbol} (h : countBracket depth x = some found)
    (more : Nat) : countBracket (depth + more) x = some (found + more) := by
  unfold countBracket at h ⊢
  split at h
  · cases h
    rfl
  · split at h
    · cases h
      rw [Nat.add_right_comm]
    · split at h
      · contradiction
      · cases h
        rw [if_neg (by omega)]
        congr 1
        omega
    · cases h
      rfl
    · cases h
      rfl

/-- Brackets that are open around the symbols stay open. -/
theorem openBrackets_add {depth found : Nat} {symbols : List Symbol}
    (h : openBrackets depth symbols = some found) (more : Nat) :
    openBrackets (depth + more) symbols = some (found + more) := by
  induction symbols generalizing depth with
  | nil =>
      cases h
      rfl
  | cons x symbols ih =>
      rw [openBrackets_cons] at h ⊢
      obtain ⟨next, hnext, h⟩ := Option.bind_eq_some_iff.mp h
      rw [countBracket_add hnext more]
      exact ih h

/-- Every production closes the brackets that it opens, and no others. -/
theorem openBrackets_symbols {n : Nonterminal} {p : Production} (hp : p ∈ productionsOf n) :
    openBrackets 0 p.symbols = some 0 := by
  have h : (Nonterminal.all.all fun n => (productionsOf n).all fun p =>
      decide (openBrackets 0 p.symbols = some 0)) = true := by decide +kernel
  exact of_decide_eq_true (forall_productions h hp)

/-- Reading a production leaves the number of open brackets as it is. -/
theorem openBrackets_production {n : Nonterminal} {p : Production} (hp : p ∈ productionsOf n)
    (depth : Nat) : openBrackets depth p.symbols = some depth := by
  simpa using openBrackets_add (openBrackets_symbols hp) depth

/-! ### Strings -/

def isStringTerminal (t : Terminal) : Bool := t = .shortString || t = .longString

/-- String literals always stay in the tree. -/
theorem not_isStringTerminal_of_mark {n : Nonterminal} {p : Production} {t : Terminal}
    (hp : p ∈ productionsOf n) (ht : Part.mark t ∈ p.parts) : isStringTerminal t = false := by
  have h : (Nonterminal.all.all fun n => (productionsOf n).all fun p => p.parts.all fun
      | .mark t => !isStringTerminal t
      | _ => true) = true := by decide +kernel
  simpa using List.all_eq_true.mp (forall_productions h hp) _ ht

/-! ### Indentation -/

def cuts {α : Type} (xs : List α) : List (List α × List α) :=
  (List.range (xs.length + 1)).map fun k => (xs.take k, xs.drop k)

theorem mem_cuts {α : Type} (before after : List α) : (before, after) ∈ cuts (before ++ after) := by
  refine List.mem_map.mpr ⟨before.length, ?_, ?_⟩
  · rw [List.mem_range, List.length_append]
    omega
  · rw [List.take_left, List.drop_left]

/-- An indented block always begins behind the end of a line. -/
theorem getLast?_before_indent {n : Nonterminal} {p : Production} {before after : List Symbol}
    (hp : p ∈ productionsOf n) (hsymbols : p.symbols = before ++ .terminal .indent :: after) :
    before.getLast? = some (.terminal .newline) := by
  have h : (Nonterminal.all.all fun n => (productionsOf n).all fun p => (cuts p.symbols).all
      fun cut => cut.2.head? ≠ some (.terminal .indent) ||
        cut.1.getLast? = some (.terminal .newline)) = true := by decide +kernel
  have hcut := List.all_eq_true.mp (forall_productions h hp) _ (hsymbols ▸ mem_cuts before _)
  simpa using hcut

/-- A terminal that a text of the symbols may begin with is exposed in the symbols, or in some
nonterminal. -/
theorem exposed_of_mem_firstOf {symbols : List Symbol} {t : Terminal} (h : t ∈ firstOf symbols) :
    Symbol.terminal t ∈ exposed symbols ∨ ∃ n, Symbol.terminal t ∈ exposedIn n := by
  obtain ⟨ts, hts, ht⟩ := BitSet.mem_union_list.mp h
  obtain ⟨x, hx, rfl⟩ := List.mem_map.mp hts
  cases x with
  | terminal u =>
      rw [first, BitSet.mem_singleton] at ht
      exact .inl (LawfulNumbered.index_inj ht ▸ hx)
  | nonterminal n =>
      rw [first, firstTable, List.getElem?_toArray, List.getElem?_map] at ht
      cases hn : Nonterminal.all[Numbered.index n]? with
      | none => simp [hn] at ht
      | some m =>
          simp only [hn, Option.map_some, Option.getD_some, BitSet.mem_ofList,
            List.mem_flatMap] at ht
          obtain ⟨k, -, hk⟩ := ht
          obtain ⟨y, hy, hyt⟩ := List.mem_filterMap.mp hk
          cases y with
          | terminal u => exact .inr ⟨k, Option.some.inj hyt ▸ hy⟩
          | nonterminal _ => contradiction

theorem mem_firstOf_terminal (t : Terminal) (rest : List Symbol) :
    t ∈ firstOf (.terminal t :: rest) :=
  BitSet.mem_union_list.mpr ⟨{t}, List.mem_singleton_self _, BitSet.mem_singleton.mpr rfl⟩

/-- Whether no indented block is exposed behind the first symbol, if that is a nonterminal. -/
def beginsPlain : List Symbol → Bool
  | .nonterminal _ :: after => decide (Symbol.terminal .indent ∉ exposed after)
  | _ => true

/-- What may follow a nonterminal never begins with an indented block. -/
theorem indent_not_mem_firstOf {n m : Nonterminal} {p : Production} {before after : List Symbol}
    (hp : p ∈ productionsOf n) (hsymbols : p.symbols = before ++ .nonterminal m :: after) :
    Terminal.indent ∉ firstOf after := by
  have h : (Nonterminal.all.all fun n => decide (Symbol.terminal .indent ∉ exposedIn n) &&
      (productionsOf n).all fun p => (cuts p.symbols).all fun cut => beginsPlain cut.2) = true := by
    decide +kernel
  have hall (k : Nonterminal) := Bool.and_eq_true_iff.mp
    (List.all_eq_true.mp h k (LawfulNumbered.mem_all k))
  intro hindent
  rcases exposed_of_mem_firstOf hindent with hexposed | ⟨k, hk⟩
  · have hcuts := List.all_eq_true.mp (hall n).2 p hp
    have hplain : beginsPlain (.nonterminal m :: after) = true :=
      List.all_eq_true.mp hcuts _ (hsymbols ▸ mem_cuts before _)
    exact of_decide_eq_true hplain hexposed
  · exact of_decide_eq_true (hall k).1 hk

end SyntaxTriage.Grammar
