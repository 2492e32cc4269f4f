import QueryTree.Expr.Display
import QueryTree.Value.Types

namespace QueryTree

abbrev MethodHandler := Expr → List Expr → Except Error Expr

abbrev MemberHandler := Expr → Except Error Expr

-- Handlers of one sort, called `what` in messages.
structure HandlerTable (α : Type) where
  what : String
  typed : List (Ty × String × α) := []
  named : List (String × α) := []

namespace HandlerTable

def typed? (h : HandlerTable α) (t : Ty) (name : String) : Option α :=
  (h.typed.find? fun (u, n, _) => u == t && n == name).map (·.2.2)

-- The handler for a name on a type: the one for that type, else the one for all.
def find? (h : HandlerTable α) (t : Option Ty) (name : String) : Option α :=
  (t.bind (h.typed? · name)).or (h.named.lookup name)

def register (h : HandlerTable α) (t : Option Ty) (name : String) (handler : Option α) :
    Except Error (HandlerTable α) :=
  match t, handler with
  | some t, some f =>
    if (h.typed? t name).isSome then
      .error (.duplicate (h.what ++ " " ++ t.describe ++ "." ++ name))
    else .ok { h with typed := h.typed ++ [(t, name, f)] }
  | _, _ => .error (.noHandler (h.what ++ " " ++ name) "type and handler are required")

def registerName (h : HandlerTable α) (name : String) (handler : Option α) :
    Except Error (HandlerTable α) :=
  match handler with
  | some f =>
    if (h.named.lookup name).isSome then .error (.duplicate (h.what ++ " " ++ name))
    else .ok { h with named := h.named ++ [(name, f)] }
  | none => .error (.noHandler (h.what ++ " " ++ name) "handler is required")

end HandlerTable

structure Handlers where
  methods : HandlerTable MethodHandler := { what := "method" }
  members : HandlerTable MemberHandler := { what := "member" }

namespace Handlers

-- A method that compares its receiver with its only argument.
def comparison (op : LogicOp) : MethodHandler
  | receiver, [a] => .ok (.compare op receiver a)
  | receiver, _ => .error (.unsupported receiver.display (op.symbol ++ " takes one argument"))

-- The member that holds the value of a column that may be null is the column itself.
def column : MemberHandler := .ok

def notNull : MemberHandler := fun receiver => .ok (.compare .notEqual receiver .null)

def standard : Handlers where
  methods :=
    { what := "method",
      typed :=
        [(Types.timeType, "Before", comparison .less),
         (Types.timeType, "After", comparison .greater),
         (Types.timeType, "Equal", comparison .equal),
         (Types.uuidType, "String", fun receiver _ => .ok receiver)] }
  members :=
    { what := "member",
      typed := Types.nullables.flatMap fun (type, member, _) =>
        [(.named type, "Valid", notNull), (.named type, member, column)],
      named := [("Valid", notNull), ("V", column)] }

def method? (h : Handlers) (t : Option Ty) (name : String) : Option MethodHandler :=
  (h.methods.find? t name).or (standard.methods.find? t name)

def member? (h : Handlers) (t : Option Ty) (name : String) : Option MemberHandler :=
  (h.members.find? t name).or (standard.members.find? t name)

end Handlers
end QueryTree
