import SyntaxTriage.BitSet

/-!
The nonterminals of the grammar. Those from `fileLines` on stand for runs of one or more equal
parts, and their names say what is repeated.
-/

namespace SyntaxTriage

inductive Nonterminal where
  | fileInput | evalInput | decorator | decorators | decorated | asyncFuncDef | funcDef
  | parameters | starParams | starParam | starGuard | postStarParams | kwParams | paramValue
  | typedParam | lambdaDef | lambdaDefNoCond | lambdaParams | lambdaParamValue | lambdaStarParams
  | lambdaKwParams | stmt | simpleStmt | smallStmt | exprStmt | assignStmt | annAssign | assign
  | augAssign | augAssignOp | testListStarExpr | delStmt | passStmt | flowStmt | breakStmt
  | continueStmt | returnStmt | yieldStmt | raiseStmt | importStmt | importName | importFrom
  | dots | importAsName | dottedAsName | importAsNames | dottedAsNames | dottedName | globalStmt
  | nonlocalStmt | assertStmt | compoundStmt | asyncStmt | ifStmt | elifs | elifClause
  | whileStmt | forStmt | tryStmt | finallyClause | exceptClauses | exceptClause | withStmt
  | withItems | withItem | matchStmt | caseClause | pattern | asPattern | orPattern
  | closedPattern | literalPattern | innerLiteralPattern | attrPattern | nameOrAttrPattern
  | mappingItemPattern | sequencePattern | sequenceItemPattern | classPattern | argumentsPattern
  | posArgPattern | keywsArgPattern | keywArgPattern | suite | test | assignExpr | testNoCond
  | orTest | andTest | notTest | comparison | starExpr | expr | orExpr | xorExpr | andExpr
  | shiftExpr | arithExpr | term | factor | unaryOp | addOp | shiftOp | mulOp | compOp | power
  | awaitExpr | atomExpr | atom | stringConcat | tupleInner | testOrStarExpr | subscriptList
  | subscript | sliceStep | exprList | testList | testListTuple | dictExprList | keyValue
  | elementList | classDef | arguments | starArgs | starArg | kwArgs | argValue | compFors
  | compFor | compIf | yieldExpr | number | string | name | elementComprehension
  | keyValueComprehension | testComprehension | fileLines | emptyLines | decoratorRun
  | moreParams | moreLambdaParams | moreSmallStmts | assignedValues | moreElements | dotRun
  | moreImportAsNames | moreDottedAsNames | moreNameParts | moreNames | elifRun | exceptRun
  | moreWithItems | caseRun | moreOrPatterns | moreMappingItems | attrParts | moreSequenceItems
  | morePosArgs | moreKeywArgs | stmtRun | orOperands | andOperands | comparisons | bitOrOperands
  | bitXorOperands | bitAndOperands | shifts | summands | multiplicands | stringRun
  | moreSubscripts | moreExprs | moreTests | moreDictItems | moreArgValues | moreStarArgs
  | compForRun
  deriving DecidableEq

namespace Nonterminal

def all : List Nonterminal := [
  .fileInput, .evalInput, .decorator, .decorators, .decorated, .asyncFuncDef, .funcDef,
  .parameters, .starParams, .starParam, .starGuard, .postStarParams, .kwParams, .paramValue,
  .typedParam, .lambdaDef, .lambdaDefNoCond, .lambdaParams, .lambdaParamValue, .lambdaStarParams,
  .lambdaKwParams, .stmt, .simpleStmt, .smallStmt, .exprStmt, .assignStmt, .annAssign, .assign,
  .augAssign, .augAssignOp, .testListStarExpr, .delStmt, .passStmt, .flowStmt, .breakStmt,
  .continueStmt, .returnStmt, .yieldStmt, .raiseStmt, .importStmt, .importName, .importFrom,
  .dots, .importAsName, .dottedAsName, .importAsNames, .dottedAsNames, .dottedName, .globalStmt,
  .nonlocalStmt, .assertStmt, .compoundStmt, .asyncStmt, .ifStmt, .elifs, .elifClause,
  .whileStmt, .forStmt, .tryStmt, .finallyClause, .exceptClauses, .exceptClause, .withStmt,
  .withItems, .withItem, .matchStmt, .caseClause, .pattern, .asPattern, .orPattern,
  .closedPattern, .literalPattern, .innerLiteralPattern, .attrPattern, .nameOrAttrPattern,
  .mappingItemPattern, .sequencePattern, .sequenceItemPattern, .classPattern, .argumentsPattern,
  .posArgPattern, .keywsArgPattern, .keywArgPattern, .suite, .test, .assignExpr, .testNoCond,
  .orTest, .andTest, .notTest, .comparison, .starExpr, .expr, .orExpr, .xorExpr, .andExpr,
  .shiftExpr, .arithExpr, .term, .factor, .unaryOp, .addOp, .shiftOp, .mulOp, .compOp, .power,
  .awaitExpr, .atomExpr, .atom, .stringConcat, .tupleInner, .testOrStarExpr, .subscriptList,
  .subscript, .sliceStep, .exprList, .testList, .testListTuple, .dictExprList, .keyValue,
  .elementList, .classDef, .arguments, .starArgs, .starArg, .kwArgs, .argValue, .compFors,
  .compFor, .compIf, .yieldExpr, .number, .string, .name, .elementComprehension,
  .keyValueComprehension, .testComprehension, .fileLines, .emptyLines, .decoratorRun,
  .moreParams, .moreLambdaParams, .moreSmallStmts, .assignedValues, .moreElements, .dotRun,
  .moreImportAsNames, .moreDottedAsNames, .moreNameParts, .moreNames, .elifRun, .exceptRun,
  .moreWithItems, .caseRun, .moreOrPatterns, .moreMappingItems, .attrParts, .moreSequenceItems,
  .morePosArgs, .moreKeywArgs, .stmtRun, .orOperands, .andOperands, .comparisons, .bitOrOperands,
  .bitXorOperands, .bitAndOperands, .shifts, .summands, .multiplicands, .stringRun,
  .moreSubscripts, .moreExprs, .moreTests, .moreDictItems, .moreArgValues, .moreStarArgs,
  .compForRun]

instance : Numbered Nonterminal := ⟨all, (·.ctorIdx)⟩

end Nonterminal

abbrev NonterminalSet := BitSet Nonterminal

end SyntaxTriage
