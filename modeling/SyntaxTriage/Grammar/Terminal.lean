import SyntaxTriage.BitSet

/-!
The terminals of the grammar. They are listed in the order in which the lexer tries them, so that
a longer fixed text comes before any of its beginnings; the last three have no text of their own.
-/

namespace SyntaxTriage

inductive Terminal where
  | imaginary | float | hexadecimal | binary | octal | shortString | longString | decimal
  | newline | continuation | identifier | comment | blank | kwContinue | kwNonlocal | kwFinally
  | kwAssert | kwExcept | kwGlobal | kwImport | kwLambda | kwReturn | kwAsync | kwAwait | kwBreak
  | kwClass | kwFalse | kwMatch | kwRaise | kwWhile | kwYield | kwCase | kwElif | kwElse | kwFrom
  | kwNone | kwPass | kwTrue | kwWith | kwAnd | kwDef | kwDel | kwFor | kwNot | kwTry
  | shiftLeftAssign | shiftRightAssign | powerAssign | floorDivideAssign | ellipsis | kwAs | kwIf
  | kwIn | kwIs | kwOr | arrow | doubleStar | xorAssign | walrus | shiftLeft | shiftRight
  | doubleSlash | equalTo | plusAssign | atLeast | atMost | lessGreater | notEqual | minusAssign
  | timesAssign | matrixAssign | divideAssign | remainderAssign | andAssign | orAssign
  | ampersand | atSign | circumflex | colon | comma | dot | equal | leftBrace | less | leftParen
  | leftBracket | minus | greater | percent | plus | rightBrace | rightParen | rightBracket
  | semicolon | slash | star | tilde | underscore | bar | indent | dedent | endOfInput
  deriving DecidableEq

namespace Terminal

/-- Every terminal, in the order in which the lexer tries them. -/
def all : List Terminal := [
  .imaginary, .float, .hexadecimal, .binary, .octal, .shortString, .longString, .decimal,
  .newline, .continuation, .identifier, .comment, .blank, .kwContinue, .kwNonlocal, .kwFinally,
  .kwAssert, .kwExcept, .kwGlobal, .kwImport, .kwLambda, .kwReturn, .kwAsync, .kwAwait, .kwBreak,
  .kwClass, .kwFalse, .kwMatch, .kwRaise, .kwWhile, .kwYield, .kwCase, .kwElif, .kwElse, .kwFrom,
  .kwNone, .kwPass, .kwTrue, .kwWith, .kwAnd, .kwDef, .kwDel, .kwFor, .kwNot, .kwTry,
  .shiftLeftAssign, .shiftRightAssign, .powerAssign, .floorDivideAssign, .ellipsis, .kwAs, .kwIf,
  .kwIn, .kwIs, .kwOr, .arrow, .doubleStar, .xorAssign, .walrus, .shiftLeft, .shiftRight,
  .doubleSlash, .equalTo, .plusAssign, .atLeast, .atMost, .lessGreater, .notEqual, .minusAssign,
  .timesAssign, .matrixAssign, .divideAssign, .remainderAssign, .andAssign, .orAssign,
  .ampersand, .atSign, .circumflex, .colon, .comma, .dot, .equal, .leftBrace, .less, .leftParen,
  .leftBracket, .minus, .greater, .percent, .plus, .rightBrace, .rightParen, .rightBracket,
  .semicolon, .slash, .star, .tilde, .underscore, .bar, .indent, .dedent, .endOfInput]

/-- The name under which reports of the grammar engine list the terminal. -/
def name : Terminal → String
  | .imaginary => "IMAG_NUMBER"
  | .float => "FLOAT_NUMBER"
  | .hexadecimal => "HEX_NUMBER"
  | .binary => "BIN_NUMBER"
  | .octal => "OCT_NUMBER"
  | .shortString => "STRING"
  | .longString => "LONG_STRING"
  | .decimal => "DEC_NUMBER"
  | .newline => "_NEWLINE"
  | .continuation => "__IGNORE_1"
  | .identifier => "NAME"
  | .comment => "COMMENT"
  | .blank => "__IGNORE_0"
  | .kwContinue => "CONTINUE"
  | .kwNonlocal => "NONLOCAL"
  | .kwFinally => "FINALLY"
  | .kwAssert => "ASSERT"
  | .kwExcept => "EXCEPT"
  | .kwGlobal => "GLOBAL"
  | .kwImport => "IMPORT"
  | .kwLambda => "LAMBDA"
  | .kwReturn => "RETURN"
  | .kwAsync => "ASYNC"
  | .kwAwait => "AWAIT"
  | .kwBreak => "BREAK"
  | .kwClass => "CLASS"
  | .kwFalse => "FALSE"
  | .kwMatch => "MATCH"
  | .kwRaise => "RAISE"
  | .kwWhile => "WHILE"
  | .kwYield => "YIELD"
  | .kwCase => "CASE"
  | .kwElif => "ELIF"
  | .kwElse => "ELSE"
  | .kwFrom => "FROM"
  | .kwNone => "NONE"
  | .kwPass => "PASS"
  | .kwTrue => "TRUE"
  | .kwWith => "WITH"
  | .kwAnd => "AND"
  | .kwDef => "DEF"
  | .kwDel => "DEL"
  | .kwFor => "FOR"
  | .kwNot => "NOT"
  | .kwTry => "TRY"
  | .shiftLeftAssign => "__ANON_11"
  | .shiftRightAssign => "__ANON_12"
  | .powerAssign => "__ANON_13"
  | .floorDivideAssign => "__ANON_14"
  | .ellipsis => "__ANON_24"
  | .kwAs => "AS"
  | .kwIf => "IF"
  | .kwIn => "IN"
  | .kwIs => "IS"
  | .kwOr => "OR"
  | .arrow => "__ANON_0"
  | .doubleStar => "__ANON_1"
  | .xorAssign => "__ANON_10"
  | .walrus => "__ANON_15"
  | .shiftLeft => "__ANON_16"
  | .shiftRight => "__ANON_17"
  | .doubleSlash => "__ANON_18"
  | .equalTo => "__ANON_19"
  | .plusAssign => "__ANON_2"
  | .atLeast => "__ANON_20"
  | .atMost => "__ANON_21"
  | .lessGreater => "__ANON_22"
  | .notEqual => "__ANON_23"
  | .minusAssign => "__ANON_3"
  | .timesAssign => "__ANON_4"
  | .matrixAssign => "__ANON_5"
  | .divideAssign => "__ANON_6"
  | .remainderAssign => "__ANON_7"
  | .andAssign => "__ANON_8"
  | .orAssign => "__ANON_9"
  | .ampersand => "AMPERSAND"
  | .atSign => "AT"
  | .circumflex => "CIRCUMFLEX"
  | .colon => "COLON"
  | .comma => "COMMA"
  | .dot => "DOT"
  | .equal => "EQUAL"
  | .leftBrace => "LBRACE"
  | .less => "LESSTHAN"
  | .leftParen => "LPAR"
  | .leftBracket => "LSQB"
  | .minus => "MINUS"
  | .greater => "MORETHAN"
  | .percent => "PERCENT"
  | .plus => "PLUS"
  | .rightBrace => "RBRACE"
  | .rightParen => "RPAR"
  | .rightBracket => "RSQB"
  | .semicolon => "SEMICOLON"
  | .slash => "SLASH"
  | .star => "STAR"
  | .tilde => "TILDE"
  | .underscore => "UNDERSCORE"
  | .bar => "VBAR"
  | .indent => "_INDENT"
  | .dedent => "_DEDENT"
  | .endOfInput => "$END"

/-- The text of a terminal that always reads the same: keywords, operators and brackets. -/
def text? : Terminal → Option String
  | .kwContinue => some "continue"
  | .kwNonlocal => some "nonlocal"
  | .kwFinally => some "finally"
  | .kwAssert => some "assert"
  | .kwExcept => some "except"
  | .kwGlobal => some "global"
  | .kwImport => some "import"
  | .kwLambda => some "lambda"
  | .kwReturn => some "return"
  | .kwAsync => some "async"
  | .kwAwait => some "await"
  | .kwBreak => some "break"
  | .kwClass => some "class"
  | .kwFalse => some "False"
  | .kwMatch => some "match"
  | .kwRaise => some "raise"
  | .kwWhile => some "while"
  | .kwYield => some "yield"
  | .kwCase => some "case"
  | .kwElif => some "elif"
  | .kwElse => some "else"
  | .kwFrom => some "from"
  | .kwNone => some "None"
  | .kwPass => some "pass"
  | .kwTrue => some "True"
  | .kwWith => some "with"
  | .kwAnd => some "and"
  | .kwDef => some "def"
  | .kwDel => some "del"
  | .kwFor => some "for"
  | .kwNot => some "not"
  | .kwTry => some "try"
  | .shiftLeftAssign => some "<<="
  | .shiftRightAssign => some ">>="
  | .powerAssign => some "**="
  | .floorDivideAssign => some "//="
  | .ellipsis => some "..."
  | .kwAs => some "as"
  | .kwIf => some "if"
  | .kwIn => some "in"
  | .kwIs => some "is"
  | .kwOr => some "or"
  | .arrow => some "->"
  | .doubleStar => some "**"
  | .xorAssign => some "^="
  | .walrus => some ":="
  | .shiftLeft => some "<<"
  | .shiftRight => some ">>"
  | .doubleSlash => some "//"
  | .equalTo => some "=="
  | .plusAssign => some "+="
  | .atLeast => some ">="
  | .atMost => some "<="
  | .lessGreater => some "<>"
  | .notEqual => some "!="
  | .minusAssign => some "-="
  | .timesAssign => some "*="
  | .matrixAssign => some "@="
  | .divideAssign => some "/="
  | .remainderAssign => some "%="
  | .andAssign => some "&="
  | .orAssign => some "|="
  | .ampersand => some "&"
  | .atSign => some "@"
  | .circumflex => some "^"
  | .colon => some ":"
  | .comma => some ","
  | .dot => some "."
  | .equal => some "="
  | .leftBrace => some "\x7b"
  | .less => some "<"
  | .leftParen => some "("
  | .leftBracket => some "["
  | .minus => some "-"
  | .greater => some ">"
  | .percent => some "%"
  | .plus => some "+"
  | .rightBrace => some "\x7d"
  | .rightParen => some ")"
  | .rightBracket => some "]"
  | .semicolon => some ";"
  | .slash => some "/"
  | .star => some "*"
  | .tilde => some "~"
  | .underscore => some "_"
  | .bar => some "|"
  | _ => none

instance : Numbered Terminal := ⟨all, (·.ctorIdx)⟩

end Terminal

abbrev TerminalSet := BitSet Terminal

end SyntaxTriage
