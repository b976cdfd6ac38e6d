import SyntaxTriage.Grammar.Rule

/-!
Rules for whole inputs and for statements that fit on one line.
-/

namespace SyntaxTriage.Grammar

open Rule

def statementRules : Nonterminal → List Rule
  | .fileInput => [node "file_input" [optional [.sub .fileLines]]]
  | .fileLines => [run .fileLines [[.mark .newline], [.sub .stmt]]]
  | .evalInput => [node "eval_input" [sub .testList, optional [.sub .emptyLines]]]
  | .emptyLines => [run .emptyLines [[.mark .newline]]]
  | .stmt => [unwrap "stmt" [[[.sub .simpleStmt], [.sub .compoundStmt]]]]
  | .simpleStmt => [
    unwrap "simple_stmt" [sub .smallStmt, optional [.sub .moreSmallStmts],
      optional [.mark .semicolon], mark .newline]]
  | .moreSmallStmts => [run .moreSmallStmts [[.mark .semicolon, .sub .smallStmt]]]
  | .smallStmt => [
    unwrap "small_stmt" [[[.sub .exprStmt], [.sub .assignStmt], [.sub .delStmt], [.sub .passStmt],
      [.sub .flowStmt], [.sub .importStmt], [.sub .globalStmt], [.sub .nonlocalStmt],
      [.sub .assertStmt]]]]
  | .exprStmt => [node "expr_stmt" [sub .testListStarExpr]]
  | .delStmt => [node "del_stmt" [mark .kwDel, sub .exprList]]
  | .passStmt => [node "pass_stmt" [mark .kwPass]]
  | .globalStmt => [node "global_stmt" [mark .kwGlobal, sub .name, optional [.sub .moreNames]]]
  | .nonlocalStmt => [
    node "nonlocal_stmt" [mark .kwNonlocal, sub .name, optional [.sub .moreNames]]]
  | .moreNames => [run .moreNames [[.mark .comma, .sub .name]]]
  | .assertStmt => [
    node "assert_stmt" [mark .kwAssert, sub .test, orAbsent [.mark .comma, .sub .test]]]
  | .assignStmt => [node "assign_stmt" [[[.sub .annAssign], [.sub .augAssign], [.sub .assign]]]]
  | .annAssign => [
    node "annassign" [sub .testListStarExpr, mark .colon, sub .test,
      orAbsent [.mark .equal, .sub .test]]]
  | .assign => [node "assign" [sub .testListStarExpr, sub .assignedValues]]
  | .assignedValues => [
    run .assignedValues [[.mark .equal, .sub .yieldExpr], [.mark .equal, .sub .testListStarExpr]]]
  | .augAssign => [
    node "augassign" [sub .testListStarExpr, sub .augAssignOp, [[.sub .yieldExpr],
      [.sub .testList]]]]
  | .augAssignOp => [
    node "augassign_op" [[[.token .plusAssign], [.token .minusAssign], [.token .timesAssign],
      [.token .matrixAssign], [.token .divideAssign], [.token .remainderAssign],
      [.token .andAssign], [.token .orAssign], [.token .xorAssign], [.token .shiftLeftAssign],
      [.token .shiftRightAssign], [.token .powerAssign], [.token .floorDivideAssign]]]]
  | .flowStmt => [
    unwrap "flow_stmt" [[[.sub .breakStmt], [.sub .continueStmt], [.sub .returnStmt],
      [.sub .raiseStmt], [.sub .yieldStmt]]]]
  | .breakStmt => [node "break_stmt" [mark .kwBreak]]
  | .continueStmt => [node "continue_stmt" [mark .kwContinue]]
  | .returnStmt => [node "return_stmt" [mark .kwReturn, orAbsent [.sub .testList]]]
  | .yieldStmt => [node "yield_stmt" [sub .yieldExpr]]
  | .raiseStmt => [
    node "raise_stmt" [mark .kwRaise, [[.sub .test, .mark .kwFrom, .sub .test],
      [.sub .test, .absent], [.absent, .absent]]]]
  | .importStmt => [node "import_stmt" [[[.sub .importName], [.sub .importFrom]]]]
  | .importName => [node "import_name" [mark .kwImport, sub .dottedAsNames]]
  | .importFrom => [
    node "import_from" [mark .kwFrom, [[.sub .dots, .sub .dottedName], [.sub .dottedName],
      [.sub .dots]], mark .kwImport, [[.mark .star],
      [.mark .leftParen, .sub .importAsNames, .mark .rightParen], [.sub .importAsNames]]]]
  | .dots => [node "dots" [sub .dotRun]]
  | .dotRun => [run .dotRun [[.token .dot]]]
  | .importAsName => [node "import_as_name" [sub .name, orAbsent [.mark .kwAs, .sub .name]]]
  | .dottedAsName => [node "dotted_as_name" [sub .dottedName, orAbsent [.mark .kwAs, .sub .name]]]
  | .importAsNames => [
    node "import_as_names" [sub .importAsName, optional [.sub .moreImportAsNames],
      optional [.mark .comma]]]
  | .moreImportAsNames => [run .moreImportAsNames [[.mark .comma, .sub .importAsName]]]
  | .dottedAsNames => [
    node "dotted_as_names" [sub .dottedAsName, optional [.sub .moreDottedAsNames]]]
  | .moreDottedAsNames => [run .moreDottedAsNames [[.mark .comma, .sub .dottedAsName]]]
  | .dottedName => [node "dotted_name" [sub .name, optional [.sub .moreNameParts]]]
  | .moreNameParts => [run .moreNameParts [[.mark .dot, .sub .name]]]
  | _ => []

end SyntaxTriage.Grammar
