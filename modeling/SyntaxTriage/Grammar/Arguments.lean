import SyntaxTriage.Grammar.Rule

/-!
Rules for the parameters of functions and for the arguments of calls.
-/

namespace SyntaxTriage.Grammar

open Rule

def argumentRules : Nonterminal → List Rule
  | .parameters => [
    node "parameters" [sub .paramValue, optional [.sub .moreParams],
      [[.mark .comma, .token .slash, .sub .moreParams], [.mark .comma, .token .slash], [.absent]],
      [[.mark .comma, .sub .starParams], [.mark .comma, .sub .kwParams], [.mark .comma, .absent],
      [.absent]]],
    node "parameters" [[[.sub .starParams], [.sub .kwParams]]]]
  | .moreParams => [run .moreParams [[.mark .comma, .sub .paramValue]]]
  | .starParams => [node "starparams" [[[.sub .starParam], [.sub .starGuard]], sub .postStarParams]]
  | .starParam => [node "starparam" [mark .star, sub .typedParam]]
  | .starGuard => [node "starguard" [mark .star]]
  | .postStarParams => [
    node "poststarparams" [optional [.sub .moreParams], orAbsent [.mark .comma, .sub .kwParams]]]
  | .kwParams => [node "kwparams" [mark .doubleStar, sub .typedParam, optional [.mark .comma]]]
  | .paramValue => [unwrap "paramvalue" [sub .typedParam, optional [.mark .equal, .sub .test]]]
  | .typedParam => [unwrap "typedparam" [sub .name, optional [.mark .colon, .sub .test]]]
  | .lambdaDef => [
    node "lambdef" [mark .kwLambda, orAbsent [.sub .lambdaParams], mark .colon, sub .test]]
  | .lambdaDefNoCond => [
    node "lambdef_nocond" [mark .kwLambda, orAbsent [.sub .lambdaParams], mark .colon,
      sub .testNoCond]]
  | .lambdaParams => [
    node "lambda_params" [sub .lambdaParamValue, optional [.sub .moreLambdaParams],
      [[.mark .comma, .sub .lambdaStarParams], [.mark .comma, .sub .lambdaKwParams],
      [.mark .comma, .absent], [.absent]]],
    node "lambda_params" [[[.sub .lambdaStarParams], [.sub .lambdaKwParams]]]]
  | .moreLambdaParams => [run .moreLambdaParams [[.mark .comma, .sub .lambdaParamValue]]]
  | .lambdaParamValue => [
    unwrap "lambda_paramvalue" [sub .name, optional [.mark .equal, .sub .test]]]
  | .lambdaStarParams => [
    node "lambda_starparams" [mark .star, orAbsent [.sub .name], optional [.sub .moreLambdaParams],
      [[.mark .comma, .sub .lambdaKwParams], [.mark .comma, .absent], [.absent]]]]
  | .lambdaKwParams => [
    node "lambda_kwparams" [mark .doubleStar, sub .name, optional [.mark .comma]]]
  | .arguments => [
    node "arguments" [sub .argValue, optional [.sub .moreArgValues],
      [[.mark .comma, .sub .starArgs], [.mark .comma, .sub .kwArgs], [.mark .comma, .absent], []]],
    node "arguments" [[[.sub .starArgs], [.sub .kwArgs], [.sub .testComprehension]]]]
  | .moreArgValues => [run .moreArgValues [[.mark .comma, .sub .argValue]]]
  | .starArgs => [
    node "starargs" [sub .starArg, optional [.sub .moreStarArgs], optional [.sub .moreArgValues],
      orAbsent [.mark .comma, .sub .kwArgs]]]
  | .moreStarArgs => [run .moreStarArgs [[.mark .comma, .sub .starArg]]]
  | .starArg => [node "stararg" [mark .star, sub .test]]
  | .kwArgs => [node "kwargs" [mark .doubleStar, sub .test, optional [.sub .moreArgValues]]]
  | .argValue => [unwrap "argvalue" [sub .test, optional [.mark .equal, .sub .test]]]
  | _ => []

end SyntaxTriage.Grammar
