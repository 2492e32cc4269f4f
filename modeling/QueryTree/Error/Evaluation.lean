import QueryTree.Text.Quoted

namespace QueryTree

inductive EvalError where
  | undefined (name : String)
  | unsupportedSyntax (syntaxName : String)
  | unsupportedLiteral (text : String)
  | integerOverflow (text : String)
  | unrepresentable (text : String)
  | dereference (type : String)
  | addressOfNil
  | memberOfNil (name : String)
  | memberOfNilPointer (name type : String)
  | noExportedMember (type name : String)
  | noMember (type name : String)
  | lengthArity
  | lengthOf (type : String)
  | notFunction (text : String)
  | arity (func : String) (expected actual : Nat)
  | argument (index : Nat) (func : String) (cause : EvalError)
  | noResult (func : String)
  | cannotUse (type target : String)
  | conversionArity (target : String)
  | cannotConvert (type target : String)
  | operator (op type : String)
  | mismatched (left right : String)
  | divisionByZero
  | shiftCount (text : String)
  | indexType (type : String)
  | indexRange (index : Int) (size : Nat)
  | cannotIndex (type : String)
  | composite (text : String)
  | keyedItems (text : String)
  -- A failure that a function of the host reports.
  | reported (text : String)
  -- A function that broke off, with the text it left if any.
  | aborted (text : Option String)
deriving Inhabited

def EvalError.message : EvalError → String
  | .undefined name => "undefined: " ++ name
  | .unsupportedSyntax s => "cannot evaluate " ++ s
  | .unsupportedLiteral t => "unsupported literal " ++ t
  | .integerOverflow t => "integer " ++ t ++ " overflows"
  | .unrepresentable t => "unrepresentable result " ++ t
  | .dereference t => "cannot dereference " ++ t
  | .addressOfNil => "cannot take the address of nil"
  | .memberOfNil n => "member " ++ n ++ " of nil"
  | .memberOfNilPointer n t => "member " ++ n ++ " of nil " ++ t
  | .noExportedMember t n => t ++ " has no exported member " ++ n
  | .noMember t n => t ++ " has no member " ++ n
  | .lengthArity => "len takes one argument"
  | .lengthOf t => "invalid argument for len: " ++ t
  | .notFunction t => t ++ " is not a function"
  | .arity f n m => f ++ " takes " ++ toString n ++ " arguments, got " ++ toString m
  | .argument i f cause => "argument " ++ toString i ++ " of " ++ f ++ ": " ++ cause.message
  | .noResult f => f ++ " returns no value"
  | .cannotUse t u => "cannot use " ++ t ++ " as " ++ u
  | .conversionArity t => "conversion to " ++ t ++ " takes one argument"
  | .cannotConvert t u => "cannot convert " ++ t ++ " to " ++ u
  | .operator op t => "operator " ++ op ++ " not defined on " ++ t
  | .mismatched t u => "mismatched types " ++ t ++ " and " ++ u
  | .divisionByZero => "division by zero"
  | .shiftCount t => "invalid shift count " ++ t
  | .indexType t => "index must be an integer, got " ++ t
  | .indexRange i n => "index " ++ toString i ++ " out of range [0:" ++ toString n ++ "]"
  | .cannotIndex t => "cannot index " ++ t
  | .composite t => "unsupported composite literal " ++ t
  | .keyedItems t => "keyed elements are not supported in " ++ t
  | .reported t => t
  | .aborted t => t.getD ""

end QueryTree
