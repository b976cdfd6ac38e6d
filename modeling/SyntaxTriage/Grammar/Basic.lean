import SyntaxTriage.Grammar.Arguments
import SyntaxTriage.Grammar.Blocks
import SyntaxTriage.Grammar.Expressions
import SyntaxTriage.Grammar.Patterns
import SyntaxTriage.Grammar.Statements

/-!
The grammar as a whole: the productions of each nonterminal.
-/

namespace SyntaxTriage.Grammar

def rulesOf (n : Nonterminal) : List Rule :=
  statementRules n ++ blockRules n ++ patternRules n ++ argumentRules n ++ expressionRules n

def productionsOf (n : Nonterminal) : List Production := (rulesOf n).flatMap (·.productions n)

end SyntaxTriage.Grammar
