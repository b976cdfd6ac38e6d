import SyntaxTriage.Grammar.Rule

/-!
Rules for definitions, and for statements that own an indented block.
-/

namespace SyntaxTriage.Grammar

open Rule

/-- The block that runs when a loop or a choice is left the usual way. -/
def elseBlock : List (List Part) := orAbsent [.mark .kwElse, .mark .colon, .sub .suite]

def blockRules : Nonterminal → List Rule
  | .decorator => [
    node "decorator" [mark .atSign, sub .dottedName,
      [[.mark .leftParen, .sub .arguments, .mark .rightParen],
      [.mark .leftParen, .absent, .mark .rightParen], [.absent]], mark .newline]]
  | .decorators => [node "decorators" [sub .decoratorRun]]
  | .decoratorRun => [run .decoratorRun [[.sub .decorator]]]
  | .decorated => [
    node "decorated" [sub .decorators, [[.sub .classDef], [.sub .funcDef], [.sub .asyncFuncDef]]]]
  | .asyncFuncDef => [node "async_funcdef" [mark .kwAsync, sub .funcDef]]
  | .funcDef => [
    node "funcdef" [mark .kwDef, sub .name, mark .leftParen, orAbsent [.sub .parameters],
      mark .rightParen, orAbsent [.mark .arrow, .sub .test], mark .colon, sub .suite]]
  | .classDef => [
    node "classdef" [mark .kwClass, sub .name,
      [[.mark .leftParen, .sub .arguments, .mark .rightParen],
      [.mark .leftParen, .absent, .mark .rightParen], [.absent]], mark .colon, sub .suite]]
  | .compoundStmt => [
    unwrap "compound_stmt" [[[.sub .ifStmt], [.sub .whileStmt], [.sub .forStmt], [.sub .tryStmt],
      [.sub .matchStmt], [.sub .withStmt], [.sub .funcDef], [.sub .classDef], [.sub .decorated],
      [.sub .asyncStmt]]]]
  | .asyncStmt => [
    node "async_stmt" [mark .kwAsync, [[.sub .funcDef], [.sub .withStmt], [.sub .forStmt]]]]
  | .suite => [
    node "suite" [[[.sub .simpleStmt],
      [.mark .newline, .mark .indent, .sub .stmtRun, .mark .dedent]]]]
  | .stmtRun => [run .stmtRun [[.sub .stmt]]]
  | .ifStmt => [
    node "if_stmt" [mark .kwIf, sub .test, mark .colon, sub .suite, sub .elifs, elseBlock]]
  | .elifs => [node "elifs" [optional [.sub .elifRun]]]
  | .elifRun => [run .elifRun [[.sub .elifClause]]]
  | .elifClause => [node "elif_" [mark .kwElif, sub .test, mark .colon, sub .suite]]
  | .whileStmt => [node "while_stmt" [mark .kwWhile, sub .test, mark .colon, sub .suite, elseBlock]]
  | .forStmt => [
    node "for_stmt" [mark .kwFor, sub .exprList, mark .kwIn, sub .testList, mark .colon, sub .suite,
      elseBlock]]
  | .withStmt => [node "with_stmt" [mark .kwWith, sub .withItems, mark .colon, sub .suite]]
  | .withItems => [node "with_items" [sub .withItem, optional [.sub .moreWithItems]]]
  | .moreWithItems => [run .moreWithItems [[.mark .comma, .sub .withItem]]]
  | .withItem => [node "with_item" [sub .test, orAbsent [.mark .kwAs, .sub .name]]]
  | .tryStmt => [
    node "try_stmt" [mark .kwTry, mark .colon, sub .suite, sub .exceptClauses, elseBlock,
      orAbsent [.sub .finallyClause]],
    node "try_finally" [mark .kwTry, mark .colon, sub .suite, sub .finallyClause]]
  | .finallyClause => [node "finally" [mark .kwFinally, mark .colon, sub .suite]]
  | .exceptClauses => [node "except_clauses" [sub .exceptRun]]
  | .exceptRun => [run .exceptRun [[.sub .exceptClause]]]
  | .exceptClause => [
    node "except_clause" [mark .kwExcept, [[.sub .test, .mark .kwAs, .sub .name],
      [.sub .test, .absent], [.absent, .absent]], mark .colon, sub .suite]]
  | _ => []

end SyntaxTriage.Grammar
