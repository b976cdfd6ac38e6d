import SyntaxTriage.Proofs.Grammar.Masks

/-!
Where nonterminals are called for, and what brief texts have behind them. For each nonterminal one
set of items covers all states that call for it, and one set of terminals holds what comes next when
a text behind it is brief. In front of these terminals each of its productions is finished: nothing
else can be read or reduced, or comes first in the order of items. This is a check over all calls.
-/

namespace SyntaxTriage

namespace Grammar

/-! ### What comes next -/

/-- The end of the input, as a set of terminals. -/
def endBit : Nat := 1 <<< Numbered.index Terminal.endOfInput

/-- What the brief texts of a symbol may begin with. The end of the input stands for nothing. -/
def headsOf (table : Nat) : Symbol → Nat
  | .terminal t => if isSpelled t then 1 <<< Numbered.index t else 0
  | .nonterminal n => slot 128 table (Numbered.index n)

/-- What comes next in front of brief texts of the symbols and one of the terminals `ends`. -/
def headsIn (table ends : Nat) : List Symbol → Nat
  | [] => ends
  | x :: rest =>
    force (headsOf table x) fun found =>
    if found.testBit (Numbered.index Terminal.endOfInput) then
      force (headsIn table ends rest) fun more => (found ^^^ endBit) ||| more
    else found

/-- The items whose beginning goes on in a brief way. -/
def briefs : Nat :=
  foldNumbered (fun set number p =>
    foldNat (fun set count => if isBrief p count then setBit set (number + count) else set) set
      (List.range (p.symbols.length + 1))) 0 0 allProductions

/-- What the brief texts of each nonterminal may begin with. -/
def heads : Nat :=
  rounds (fun table =>
    foldNat (fun table n =>
      foldNumbered (fun table number p =>
        if briefs.testBit number then
          force (headsIn table endBit p.symbols) fun new =>
            table ||| new <<< (128 * Numbered.index n)
        else table) table (slot 16 offsets (Numbered.index n)) (productionsOf n))
      table Nonterminal.all.reverse) 178 0

def wantedIn (p : Production) : (table number count : Nat) → List Symbol → Nat
  | table, _, _, [] => table
  | table, number, count, .terminal _ :: rest => wantedIn p table number (count + 1) rest
  | table, number, count, .nonterminal m :: rest =>
    force (if briefs.testBit (number + (count + 1)) && !decide (count = 0 ∧ m = p.head) then
        force (headsIn heads (slot 128 table (Numbered.index p.head)) rest) fun new =>
          table ||| new <<< (128 * Numbered.index m)
      else table) fun table => wantedIn p table number (count + 1) rest

/-- What comes next behind each nonterminal if the text there is brief. -/
def wanted : Nat :=
  rounds (fun table => foldNumbered (fun table number p => wantedIn p table number 0 p.symbols)
      table 0 allProductions) 178
    (foldNat (fun table n => table ||| endBit <<< (128 * Numbered.index n)) 0 Lookahead.entries)

/-! ### Contexts -/

/-- Where a table of contexts notes that one of them has grown: above all contexts. -/
def grown (n : Nonterminal) : Nat := 2048 * 178 + Numbered.index n

/-- Adds a set to the context of a nonterminal. -/
def addContext (table set : Nat) (n : Nonterminal) : Nat :=
  force (slot 2048 table (Numbered.index n)) fun old =>
    bif isSubset set old then table
    else setBit (table.lor (set.shiftLeft (2048 * Numbered.index n))) (grown n)

def contextsIn : (table set : Nat) → List Symbol → Nat
  | table, _, [] => table
  | table, set, .terminal t :: rest =>
    force set fun set => contextsIn table (gotoSet set (.terminal t)) rest
  | table, set, .nonterminal m :: rest =>
    force set fun set =>
    force (addContext table set m) fun table =>
    contextsIn table (gotoSet set (.nonterminal m)) rest

/-- Goes through the productions of a nonterminal if its context has grown. -/
def contextsFrom (table : Nat) (n : Nonterminal) : Nat :=
  bif hasBit table (grown n) then
    force (slot 2048 table (Numbered.index n)) fun set =>
      foldNat (fun table p => contextsIn table set p.symbols) (table ^^^ 1 <<< grown n)
        (productionsOf n)
  else table

/-- For each nonterminal the items of all states that call for it. -/
def contexts : Nat :=
  rounds (fun table => foldNat contextsFrom table Nonterminal.all) 178
    (foldNat (fun table n => addContext table (slot 2048 opened (Symbol.nonterminal n).index) n) 0
      Lookahead.entries)

/-! ### Finished productions -/

/-- The items with one of the terminals next. -/
def readingAny (ends : Nat) : Nat :=
  foldNat (fun found t =>
    bif hasBit ends (Numbered.index t) then found.lor (slot 2048 reading (Symbol.terminal t).index)
    else found) 0 Terminal.all

/-- The items that have been read and that one of the terminals may follow. -/
def finishedAny (ends : Nat) : Nat :=
  foldNat (fun found n =>
    bif ((slot 128 followers (Numbered.index n)).land ends).beq 0 then found
    else found.lor (slot 2048 finished (Numbered.index n))) 0 Nonterminal.all

/-- Whether nothing in a set comes in front of the item with the number `own`, for which nothing has
been read if `empty`. -/
def isFirst (own : Nat) (empty : Bool) (set : Nat) : Bool :=
  if empty then isSubset set (1 <<< own) else decide (set % 2 ^ own = 0)

/-- Whether the productions are finished in front of the terminals. -/
def finishes (set ends unread : Nat) : (number : Nat) → List Production → Bool
  | _, [] => true
  | number, p :: ps =>
    force (gotoAll set p.symbols) fun set' =>
    force (number + p.symbols.length) fun own =>
      decide (set' &&& unread = 0) &&
      (decide (set' &&& completed = 1 <<< own) ||
        isFirst own p.symbols.isEmpty (set' &&& completed &&& finishedAny ends)) &&
      force (own + 1) fun number => finishes set ends unread number ps

/-- Whether a nonterminal that the set calls for is finished in front of the terminals. -/
def checkCall (set ends : Nat) (n : Nonterminal) : Bool :=
  force (readingAny ends) fun unread =>
    finishes set ends unread (slot 16 offsets (Numbered.index n)) (productionsOf n)

/-- Whether a nonterminal is finished in the same way wherever it is called for. -/
def isUniform (n : Nonterminal) : Bool :=
  force (slot 2048 contexts (Numbered.index n)) fun set =>
  force (slot 128 wanted (Numbered.index n)) fun ends => checkCall set ends n

/-- Whether the tables take account of what a production calls for behind its first symbols. -/
def checkCalls (p : Production) (number : Nat) : (count set : Nat) → List Symbol → Bool
  | _, _, [] => true
  | count, set, .terminal t :: rest =>
    checkCalls p number (count + 1) (gotoSet set (.terminal t)) rest
  | count, set, .nonterminal m :: rest =>
    force set fun set =>
      isSubset set (slot 2048 contexts (Numbered.index m)) &&
      (!briefs.testBit (number + (count + 1)) || decide (count = 0 ∧ m = p.head) ||
        force (headsIn heads (slot 128 wanted (Numbered.index p.head)) rest) fun ends =>
          isSubset ends (slot 128 wanted (Numbered.index m)) &&
            (isUniform m || checkCall set ends m)) &&
      checkCalls p number (count + 1) (gotoSet set (.nonterminal m)) rest

/-- Whether the table of heads takes account of a production. -/
def checkHeads (number : Nat) (p : Production) : Bool :=
  !briefs.testBit number ||
    isSubset (headsIn heads endBit p.symbols) (slot 128 heads (Numbered.index p.head))

/-! ### Texts -/

/-- What cannot come right behind a terminal. A line ends behind something, a level of indentation
begins with a new line and ends with one, and at the end of the input the last line has ended. -/
def apart : Terminal → TerminalSet
  | .newline => {.newline}
  | .dedent => {.newline} ∪ {.indent}
  | .indent => {.newline} ∪ {.indent} ∪ {.dedent} ∪ {.endOfInput}
  | _ => {.indent} ∪ {.dedent} ∪ {.endOfInput}

/-- One terminal can come right behind another. -/
def Joins (a b : Terminal) : Prop := b ∉ apart a

instance : DecidableRel Joins := fun _ _ => inferInstanceAs (Decidable (¬_))

/-- Whether all terminals of a set can come right behind one. -/
def joinsAll (a : Terminal) (ends : TerminalSet) : Bool :=
  force (apart a).bits fun apart => decide (apart &&& ends.bits = 0)

/-- Whether the word can be laid out between the symbol in front of it and the terminals. -/
def isLaidOut (ends : TerminalSet) : Symbol → List Terminal → Bool
  | .terminal t, [] => joinsAll t ends
  | .nonterminal _, [] => true
  | .terminal t, u :: word => decide (Joins t u) && isLaidOut ends (.terminal u) word
  | .nonterminal _, u :: word => isLaidOut ends (.terminal u) word

/-- Whether what is left of a production behind each symbol has a text that can be laid out. -/
def checkTexts (p : Production) (ends : TerminalSet) : (number : Nat) → List Symbol → Bool
  | _, [] => true
  | number, x :: rest =>
    (!briefs.testBit (number + 1) ||
      decide (p.symbols.length = rest.length + 1 ∧ x = .nonterminal p.head) ||
      match textOf rest with
      | some word => isLaidOut ends x word
      | none => false) &&
    force (number + 1) fun number => checkTexts p ends number rest

/-- Whether the tables take account of an input. -/
def checkEntry (n : Nonterminal) : Bool :=
  force (slot 2048 contexts (Numbered.index n)) fun set =>
    isSubset (slot 2048 opened (Symbol.nonterminal n).index) set &&
      isSubset endBit (slot 128 wanted (Numbered.index n)) && checkCall set endBit n

theorem allHeads_checkCalls :
    (allHeads (fun number n =>
      force (slot 128 wanted (Numbered.index n)) fun ends =>
        allNumbered (fun number p => checkHeads number p &&
          checkCalls p number 0 (slot 2048 contexts (Numbered.index n)) p.symbols &&
            checkTexts p ⟨ends⟩ number p.symbols)
          number (productionsOf n)) 0 Nonterminal.all && Lookahead.entries.all checkEntry) =
      true := by
  decide +kernel

end Grammar

end SyntaxTriage
