import SyntaxTriage.Grammar.Rule

/-!
Rules for expressions, from the loosest operator to the atoms.
-/

namespace SyntaxTriage.Grammar

open Rule

/-- Operands of one level, with the operators between them in the run. -/
def level (label : String) (operand more : Nonterminal) : Rule :=
  unwrap label [sub operand, optional [.sub more]]

def comprehension (element : Nonterminal) : Rule :=
  node "comprehension" [sub element, sub .compFors, orAbsent [.sub .compIf]]

def expressionRules : Nonterminal → List Rule
  | .test => [
    unwrap "test" [[[.sub .orTest, .mark .kwIf, .sub .orTest, .mark .kwElse, .sub .test],
      [.sub .orTest], [.sub .lambdaDef], [.sub .assignExpr]]]]
  | .assignExpr => [node "assign_expr" [sub .name, mark .walrus, sub .test]]
  | .testNoCond => [unwrap "test_nocond" [[[.sub .orTest], [.sub .lambdaDefNoCond]]]]
  | .orTest => [level "or_test" .andTest .orOperands]
  | .orOperands => [run .orOperands [[.mark .kwOr, .sub .andTest]]]
  | .andTest => [level "and_test" .notTest .andOperands]
  | .andOperands => [run .andOperands [[.mark .kwAnd, .sub .notTest]]]
  | .notTest => [node "not_test" [mark .kwNot, sub .notTest], unwrap "not_test_" [sub .comparison]]
  | .comparison => [level "comparison" .expr .comparisons]
  | .comparisons => [run .comparisons [[.sub .compOp, .sub .expr]]]
  | .compOp => [
    node "comp_op" [[[.token .less], [.token .greater], [.token .equalTo], [.token .atLeast],
      [.token .atMost], [.token .lessGreater], [.token .notEqual], [.token .kwIn],
      [.token .kwNot, .token .kwIn], [.token .kwIs], [.token .kwIs, .token .kwNot]]]]
  | .starExpr => [node "star_expr" [mark .star, sub .expr]]
  | .expr => [unwrap "expr" [sub .orExpr]]
  | .orExpr => [level "or_expr" .xorExpr .bitOrOperands]
  | .bitOrOperands => [run .bitOrOperands [[.mark .bar, .sub .xorExpr]]]
  | .xorExpr => [level "xor_expr" .andExpr .bitXorOperands]
  | .bitXorOperands => [run .bitXorOperands [[.mark .circumflex, .sub .andExpr]]]
  | .andExpr => [level "and_expr" .shiftExpr .bitAndOperands]
  | .bitAndOperands => [run .bitAndOperands [[.mark .ampersand, .sub .shiftExpr]]]
  | .shiftExpr => [level "shift_expr" .arithExpr .shifts]
  | .shifts => [run .shifts [[.sub .shiftOp, .sub .arithExpr]]]
  | .arithExpr => [level "arith_expr" .term .summands]
  | .summands => [run .summands [[.sub .addOp, .sub .term]]]
  | .term => [level "term" .factor .multiplicands]
  | .multiplicands => [run .multiplicands [[.sub .mulOp, .sub .factor]]]
  | .factor => [unwrap "factor" [[[.sub .unaryOp, .sub .factor], [.sub .power]]]]
  | .unaryOp => [splice [[[.token .plus], [.token .minus], [.token .tilde]]]]
  | .addOp => [splice [[[.token .plus], [.token .minus]]]]
  | .shiftOp => [splice [[[.token .shiftLeft], [.token .shiftRight]]]]
  | .mulOp => [
    splice [[[.token .star], [.token .atSign], [.token .slash], [.token .percent],
      [.token .doubleSlash]]]]
  | .power => [unwrap "power" [sub .awaitExpr, optional [.mark .doubleStar, .sub .factor]]]
  | .awaitExpr => [unwrap "await_expr" [optional [.token .kwAwait], sub .atomExpr]]
  | .atomExpr => [
    node "funccall" [sub .atomExpr, mark .leftParen, orAbsent [.sub .arguments], mark .rightParen],
    node "getitem" [sub .atomExpr, mark .leftBracket, sub .subscriptList, mark .rightBracket],
    node "getattr" [sub .atomExpr, mark .dot, sub .name],
    unwrap "atom_expr" [sub .atom]]
  | .atom => [
    node "tuple" [mark .leftParen, optional [.sub .tupleInner], mark .rightParen],
    node "tuple_comprehension" [mark .leftParen, sub .elementComprehension, mark .rightParen],
    node "list" [mark .leftBracket, optional [.sub .elementList], mark .rightBracket],
    node "list_comprehension" [mark .leftBracket, sub .elementComprehension, mark .rightBracket],
    node "dict" [mark .leftBrace, optional [.sub .dictExprList], mark .rightBrace],
    node "dict_comprehension" [mark .leftBrace, sub .keyValueComprehension, mark .rightBrace],
    node "set" [mark .leftBrace, sub .elementList, mark .rightBrace],
    node "set_comprehension" [mark .leftBrace, sub .testComprehension, mark .rightBrace],
    node "var" [sub .name],
    node "ellipsis" [mark .ellipsis],
    node "const_none" [mark .kwNone],
    node "const_true" [mark .kwTrue],
    node "const_false" [mark .kwFalse],
    unwrap "atom" [[[.mark .leftParen, .sub .yieldExpr, .mark .rightParen],
      [.mark .leftParen, .sub .test, .mark .rightParen], [.sub .number], [.sub .stringConcat]]]]
  | .stringConcat => [unwrap "string_concat" [sub .stringRun]]
  | .stringRun => [run .stringRun [[.sub .string]]]
  | .number => [
    node "number" [[[.token .decimal], [.token .hexadecimal], [.token .binary], [.token .octal],
      [.token .float], [.token .imaginary]]]]
  | .string => [node "string" [[[.token .shortString], [.token .longString]]]]
  | .name => [node "name" [[[.token .identifier], [.token .kwMatch], [.token .kwCase]]]]
  | .subscriptList => [
    unwrap "subscriptlist" [sub .subscript],
    node "subscript_tuple" [sub .subscript, [[.sub .moreSubscripts, .mark .comma],
      [.sub .moreSubscripts], [.mark .comma]]]]
  | .moreSubscripts => [run .moreSubscripts [[.mark .comma, .sub .subscript]]]
  | .subscript => [
    unwrap "subscript" [sub .test],
    node "slice" [orAbsent [.sub .test], mark .colon, orAbsent [.sub .test],
      orAbsent [.sub .sliceStep]]]
  | .sliceStep => [node "sliceop" [mark .colon, orAbsent [.sub .test]]]
  | .testListStarExpr => [
    unwrap "testlist_star_expr" [sub .testOrStarExpr],
    node "tuple" [sub .testOrStarExpr, [[.sub .moreElements, .mark .comma], [.sub .moreElements],
      [.mark .comma]]]]
  | .tupleInner => [
    splice [sub .testOrStarExpr, [[.sub .moreElements, .mark .comma], [.sub .moreElements],
      [.mark .comma]]]]
  | .elementList => [
    splice [sub .testOrStarExpr, optional [.sub .moreElements], optional [.mark .comma]]]
  | .moreElements => [run .moreElements [[.mark .comma, .sub .testOrStarExpr]]]
  | .testOrStarExpr => [unwrap "test_or_star_expr" [[[.sub .test], [.sub .starExpr]]]]
  | .exprList => [
    unwrap "exprlist" [[[.sub .expr], [.sub .starExpr]], optional [.sub .moreExprs],
      optional [.mark .comma]]]
  | .moreExprs => [run .moreExprs [[.mark .comma, .sub .expr], [.mark .comma, .sub .starExpr]]]
  | .testList => [unwrap "testlist" [[[.sub .test], [.sub .testListTuple]]]]
  | .testListTuple => [
    node "testlist_tuple" [sub .test, [[.sub .moreTests, .mark .comma], [.sub .moreTests],
      [.mark .comma]]]]
  | .moreTests => [run .moreTests [[.mark .comma, .sub .test]]]
  | .dictExprList => [
    splice [[[.sub .keyValue], [.mark .doubleStar, .sub .expr]], optional [.sub .moreDictItems],
      optional [.mark .comma]]]
  | .moreDictItems => [
    run .moreDictItems [[.mark .comma, .sub .keyValue],
      [.mark .comma, .mark .doubleStar, .sub .expr]]]
  | .keyValue => [node "key_value" [sub .test, mark .colon, sub .test]]
  | .elementComprehension => [comprehension .testOrStarExpr]
  | .keyValueComprehension => [comprehension .keyValue]
  | .testComprehension => [comprehension .test]
  | .compFors => [node "comp_fors" [sub .compForRun]]
  | .compForRun => [run .compForRun [[.sub .compFor]]]
  | .compFor => [
    node "comp_for" [orAbsent [.token .kwAsync], mark .kwFor, sub .exprList, mark .kwIn,
      sub .orTest]]
  | .compIf => [unwrap "comp_if" [mark .kwIf, sub .testNoCond]]
  | .yieldExpr => [
    node "yield_expr" [mark .kwYield, orAbsent [.sub .testList]],
    node "yield_from" [mark .kwYield, mark .kwFrom, sub .test]]
  | _ => []

end SyntaxTriage.Grammar
