import QueryTree.Error.Evaluation
import QueryTree.Operator

namespace QueryTree

-- General failures that a caller may ask for.
inductive ErrorClass where
  | ambiguousRelation
  | decode
  | duplicateRegistration
  | evaluation
  | invalidIdentifier
  | invalidPipeline
  | undefinedRelation
  | unknownProperty
  | unsupportedExpression
  | unsupportedReversal
deriving DecidableEq, Inhabited

inductive Error where
  -- A property that the resolver does not know.
  | unknownProperty (object property : String)
  -- A node or construct that cannot be handled.
  | unsupported (expr reason : String)
  -- An operator that has no counterpart for exchanged operands.
  | irreversible (op : LogicOp)
  -- A relation that leads nowhere, or to several joins.
  | relation (object name : String) (candidates : List String)
  -- A part that does not depend on the row and cannot be evaluated.
  | evaluation (expr : String) (cause : EvalError)
  -- A stage after one that does not allow it.
  | pipeline (stage after : String)
  -- A malformed document node.
  | decode (path reason : String)
  -- A document node with a value that is refused.
  | decodeCause (path : String) (cause : Error)
  -- A text that is no document.
  | invalidJson (fault : String)
  | identifier (kind ident : String)
  -- A feature that the dialect lacks; an empty hint is none.
  | feature (dialect what hint : String)
  -- A second registration under one name.
  | duplicate (what : String)
  -- An object without a table.
  | unbound (object : String)
  | unknownTable (table : String)
  | unknownColumn (table column : String)
  -- Key columns of a relation that do not pair up.
  | unpaired (object name : String)
  | noProject
  -- A fragment without a function.
  | noFunction (key : String)
  -- A compilation without a resolver or a dialect.
  | incomplete (expr : String)
  -- A handler registered without what it needs.
  | noHandler (what needed : String)
  -- A cause within a larger step.
  | within (step : String) (cause : Error)
  -- Several causes at once, one a line.
  | several (causes : List Error)
  -- A failure reported by code or files outside this library.
  | reported (text : String)
  -- A step that broke off, with the text it left if any.
  | aborted (text : Option String)
deriving Inhabited

namespace Error

mutual

def message : Error → String
  | .unknownProperty object property =>
    "unknown property " ++ Text.quote property ++ " on " ++ Text.quote object
  | .unsupported expr reason =>
    "unsupported expression " ++ expr ++ (if reason.isEmpty then "" else ": " ++ reason)
  | .irreversible op => "operator " ++ op.symbol ++ " cannot be reversed"
  | .relation object name candidates =>
    let subject := "relation " ++ Text.quote name ++ " on " ++ Text.quote object
    if candidates.length > 1 then subject ++ " is ambiguous: " ++ ", ".intercalate candidates
    else subject ++ " is not defined"
  | .evaluation expr cause => "cannot evaluate " ++ expr ++ ": " ++ cause.message
  | .pipeline stage after => stage ++ " cannot follow " ++ after
  | .decode path reason => "decode " ++ path ++ ": " ++ reason
  | .decodeCause path cause => "decode " ++ path ++ ": " ++ cause.message
  | .invalidJson fault => "decode $: invalid JSON: " ++ fault
  | .identifier kind ident => "invalid " ++ kind ++ " identifier " ++ Text.quote ident
  | .feature dialect what hint =>
    dialect ++ ": " ++ what ++ " is not supported" ++ (if hint.isEmpty then "" else ": " ++ hint)
  | .duplicate what => what ++ ": duplicate registration"
  | .unbound object => "object '" ++ object ++ "' is not bound to a table"
  | .unknownTable table => "table '" ++ table ++ "' not found in schema"
  | .unknownColumn table column => "column '" ++ table ++ "." ++ column ++ "' not found in schema"
  | .unpaired object name =>
    "relation " ++ object ++ "." ++ name ++ ": key columns must pair up"
  | .noProject => "project cannot be nil"
  | .noFunction key => "fragment " ++ key ++ ": render function cannot be nil"
  | .incomplete expr => "compile " ++ expr ++ ": resolver and dialect are required"
  | .noHandler what needed => "register " ++ what ++ ": " ++ needed
  | .within step cause => step ++ ": " ++ cause.message
  | .several causes => "\n".intercalate (messages causes)
  | .reported text => text
  | .aborted text => text.getD ""

def messages : List Error → List String
  | [] => []
  | e :: es => e.message :: messages es

end

mutual

-- The general failures that a cause counts as, those of wrapped causes included.
def classes : Error → List ErrorClass
  | .unknownProperty .. => [.unknownProperty]
  | .unsupported .. | .feature .. => [.unsupportedExpression]
  | .irreversible _ => [.unsupportedReversal]
  | .relation _ _ candidates =>
    if candidates.length > 1 then [.ambiguousRelation] else [.undefinedRelation]
  | .evaluation .. => [.evaluation]
  | .pipeline .. => [.invalidPipeline]
  | .decode .. | .invalidJson _ => [.decode]
  | .decodeCause _ cause => .decode :: cause.classes
  | .identifier .. => [.invalidIdentifier]
  | .duplicate _ => [.duplicateRegistration]
  | .within _ cause => cause.classes
  | .several causes => classesOf causes
  | _ => []

def classesOf : List Error → List ErrorClass
  | [] => []
  | e :: es => e.classes ++ classesOf es

end

end Error
end QueryTree
