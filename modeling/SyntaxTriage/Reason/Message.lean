import SyntaxTriage.Reason.Basic

/-!
The wording of reasons. A reason that rests on another one is worded by an opening and the words of
that other reason.
-/

namespace SyntaxTriage

mutual

def LexicalReason.message : LexicalReason → String
  | .stringError => "Got unexpected string"
  | .unicodeError => "Got unexpected unicode"
  | .nestingError => "Got unexpected nesting"
  | .indentationError => "unindent does not match any outer indentation level"
  | .tabError => "inconsistent use of tabs and spaces in indentation"
  | .defaultArgumentError => "non-default argument follows default argument"
  | .positionalArgumentError => "positional argument follows keyword argument"
  | .duplicateKeywordArgumentError => "keyword argument repeated"
  | .unrecognizedToken character => "Got unexpected token " ++ character.toString
  | .formatString reason => "Got error in f-string: " ++ reason.message
  | .lineContinuationError => "unexpected character after line continuation character"
  | .endOfFile => "unexpected EOF while parsing"
  | .other message => message

def FStringReason.message : FStringReason → String
  | .unclosedBrace => "Unclosed '\x7b'"
  | .unopenedBrace => "Unopened '\x7d'"
  | .expectedBrace => "Expected '\x7d' after conversion flag."
  | .invalidExpression reason => "Invalid expression: " ++ reason.message
  | .invalidConversionFlag => "Invalid conversion flag"
  | .emptyExpression => "Empty expression"
  | .mismatchedDelimiter => "Mismatched delimiter"
  | .nestedTooDeeply => "expressions nested too deeply"

def ParseReason.message : ParseReason → String
  | .endOfFile => "Got unexpected EOF"
  | .extraToken token => "Got extraneous token: " ++ token.debug
  | .invalidToken => "Got invalid token"
  | .unrecognizedToken token expected =>
    if token = .indent then "unexpected indent"
    else if expected = some Token.indent.kind then "expected an indented block"
    else "Got unexpected token " ++ token.message
  | .lexical reason => reason.message

end

def Reason.message : Reason → String
  | .lexical reason => reason.message
  | .formatString reason => reason.message
  | .parse reason => reason.message

end SyntaxTriage
