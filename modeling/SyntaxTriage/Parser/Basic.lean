import SyntaxTriage.Failure
import SyntaxTriage.Layout
import SyntaxTriage.Lexer.Basic
import SyntaxTriage.Parser.Stack

/-!
The parser. Lexer, layout and stack run in step: the lexer is asked for a lexeme only when all
lexemes before it have been read, because what it looks for depends on the state of the parser.
-/

namespace SyntaxTriage.Parser

inductive Stop where
  | rejected (rejection : Rejection)
  | fault (fault : LayoutFault)

/-- How many columns a tab counts in the levels of indentation. -/
def tabSize : Nat := 8

def rejectionOf (s : Stack) (l : Lexeme Terminal) : Rejection :=
  .lexeme (l.mapKind Terminal.name) ((candidates s.state).toList.map Terminal.name)
    (s.accepted.map Terminal.name)

def feedAll (s : Stack) : List (Lexeme Terminal) → Except Rejection Stack
  | [] => .ok s
  | l :: rest =>
    match s.feed l with
    | .ok s => feedAll s rest
    | .error s => .error (rejectionOf s l)

/-- The lexeme that stands for the end of the input. It takes the place of the lexeme before it if
that one has any text, and otherwise stands at the beginning. -/
def endLexeme (last : Option (Lexeme Terminal)) : Lexeme Terminal :=
  match last with
  | some l =>
    if l.text = "" then ⟨.endOfInput, "", some 1, some 1, none, none⟩
    else l.borrow .endOfInput ""
  | none => ⟨.endOfInput, "", some 1, some 1, none, none⟩

structure Progress where
  cursor : Lexer.Cursor
  layout : Layout
  /-- The last lexeme of the lexer. -/
  lastRead : Option (Lexeme Terminal)
  stack : Stack
  /-- The last lexeme of layout. -/
  lastFed : Option (Lexeme Terminal)

def Progress.start (entry : Nonterminal) (text : List Char) : Progress :=
  ⟨⟨text, {}⟩, {}, none, .empty entry, none⟩

def Progress.finish (p : Progress) : Except Stop Tree :=
  let dedents := p.layout.finish p.lastRead
  match feedAll p.stack dedents with
  | .error rejection => .error (.rejected rejection)
  | .ok stack =>
    match stack.finish with
    | .ok tree => .ok tree
    | .error stack => .error (.rejected (rejectionOf stack (endLexeme (dedents.getLast?.or p.lastFed))))

def Progress.read (p : Progress) (l : Lexeme Terminal) (behind : Lexer.Cursor) :
    Except Stop Progress :=
  let step := p.layout.read tabSize l
  match feedAll p.stack step.emitted with
  | .error rejection => .error (.rejected rejection)
  | .ok stack =>
    match step.next with
    | .error fault => .error (.fault fault)
    | .ok layout => .ok ⟨behind, layout, some l, stack, step.emitted.getLast?.or p.lastFed⟩

/-- Reads on to the end of the text; `fuel` bounds the number of lexemes. -/
def readFrom : (fuel : Nat) → Progress → Except Stop Tree
  | 0, p => p.finish
  | fuel + 1, p =>
    match Lexer.next (candidates p.stack.state) p.cursor with
    | .lexeme l behind =>
      match p.read l behind with
      | .error stop => .error stop
      | .ok p => readFrom fuel p
    | .finished => p.finish
    | .misplaced l => .error (.rejected (rejectionOf p.stack l))
    | .unreadable c location =>
      .error (.rejected (.character c location.row location.column))

def run (entry : Nonterminal) (text : List Char) : Except Stop Tree :=
  readFrom (text.length + 1) (.start entry text)

end SyntaxTriage.Parser
