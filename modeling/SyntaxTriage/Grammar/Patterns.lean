import SyntaxTriage.Grammar.Rule

/-!
Rules for `match` statements and their patterns.
-/

namespace SyntaxTriage.Grammar

open Rule

def patternRules : Nonterminal → List Rule
  | .matchStmt => [
    node "match_stmt" [mark .kwMatch, sub .test, mark .colon, mark .newline, mark .indent,
      sub .caseRun, mark .dedent]]
  | .caseRun => [run .caseRun [[.sub .caseClause]]]
  | .caseClause => [
    node "case" [mark .kwCase, sub .pattern, orAbsent [.mark .kwIf, .sub .test], mark .colon,
      sub .suite]]
  | .pattern => [
    node "sequence_pattern" [sub .sequenceItemPattern, mark .comma, sub .sequencePattern],
    unwrap "pattern" [sub .asPattern]]
  | .asPattern => [unwrap "as_pattern" [sub .orPattern, optional [.mark .kwAs, .token .identifier]]]
  | .orPattern => [unwrap "or_pattern" [sub .closedPattern, optional [.sub .moreOrPatterns]]]
  | .moreOrPatterns => [run .moreOrPatterns [[.mark .bar, .sub .closedPattern]]]
  | .sequencePattern => [
    splice [[[.sub .sequenceItemPattern, .sub .moreSequenceItems, .mark .comma],
      [.sub .sequenceItemPattern, .sub .moreSequenceItems],
      [.sub .sequenceItemPattern, .mark .comma], [.sub .sequenceItemPattern], []]]]
  | .moreSequenceItems => [run .moreSequenceItems [[.mark .comma, .sub .sequenceItemPattern]]]
  | .sequenceItemPattern => [
    unwrap "sequence_item_pattern" [sub .asPattern],
    node "star_pattern" [mark .star, token .identifier]]
  | .closedPattern => [
    node "mapping_pattern" [mark .leftBrace, sub .mappingItemPattern,
      optional [.sub .moreMappingItems], optional [.mark .comma], mark .rightBrace],
    node "mapping_pattern" [mark .leftBrace, mark .rightBrace],
    node "mapping_star_pattern" [mark .leftBrace, sub .mappingItemPattern,
      optional [.sub .moreMappingItems], mark .comma, mark .doubleStar, token .identifier,
      optional [.mark .comma], mark .rightBrace],
    node "mapping_star_pattern" [mark .leftBrace, mark .doubleStar, token .identifier,
      optional [.mark .comma], mark .rightBrace],
    unwrap "closed_pattern" [[[.sub .literalPattern], [.sub .attrPattern],
      [.mark .leftParen, .sub .asPattern, .mark .rightParen], [.sub .classPattern]]],
    node "capture_pattern" [token .identifier],
    node "any_pattern" [mark .underscore],
    node "sequence_pattern" [[[.mark .leftBracket, .sub .sequencePattern, .mark .rightBracket],
      [.mark .leftParen, .sub .sequenceItemPattern, .mark .comma, .sub .sequencePattern,
      .mark .rightParen], [.mark .leftParen, .mark .rightParen]]]]
  | .moreMappingItems => [run .moreMappingItems [[.mark .comma, .sub .mappingItemPattern]]]
  | .mappingItemPattern => [
    node "mapping_item_pattern" [[[.sub .literalPattern], [.sub .attrPattern]], mark .colon,
      sub .asPattern]]
  | .literalPattern => [node "literal_pattern" [sub .innerLiteralPattern]]
  | .innerLiteralPattern => [
    node "const_none" [mark .kwNone],
    node "const_true" [mark .kwTrue],
    node "const_false" [mark .kwFalse],
    node "string" [token .shortString],
    unwrap "inner_literal_pattern" [sub .number]]
  | .attrPattern => [node "value" [token .identifier, sub .attrParts]]
  | .attrParts => [run .attrParts [[.mark .dot, .token .identifier]]]
  | .nameOrAttrPattern => [node "value" [token .identifier, optional [.sub .attrParts]]]
  | .classPattern => [
    node "class_pattern" [sub .nameOrAttrPattern, mark .leftParen,
      [[.sub .argumentsPattern, .mark .comma], [.sub .argumentsPattern], [.absent]],
      mark .rightParen]]
  | .argumentsPattern => [
    node "arguments_pattern" [sub .posArgPattern, orAbsent [.mark .comma, .sub .keywsArgPattern]],
    node "no_pos_arguments" [sub .keywsArgPattern]]
  | .posArgPattern => [node "pos_arg_pattern" [sub .asPattern, optional [.sub .morePosArgs]]]
  | .morePosArgs => [run .morePosArgs [[.mark .comma, .sub .asPattern]]]
  | .keywsArgPattern => [
    node "keyws_arg_pattern" [sub .keywArgPattern, optional [.sub .moreKeywArgs]]]
  | .moreKeywArgs => [run .moreKeywArgs [[.mark .comma, .sub .keywArgPattern]]]
  | .keywArgPattern => [node "keyw_arg_pattern" [token .identifier, mark .equal, sub .asPattern]]
  | _ => []

end SyntaxTriage.Grammar
