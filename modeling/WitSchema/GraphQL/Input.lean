import WitSchema.GraphQL.Document
import WitSchema.GraphQL.Schema
import WitSchema.Number.Numeral

/-! Values on their way in. A literal or a JSON value becomes the value of an
input type, if it is one: a single value stands for a list of one, an object
has the fields its type declares, in that order, and absent fields stay
absent. A field of the query type takes one argument, with the values of the
variables in it. -/

namespace WitSchema.GraphQL

namespace Ty

def isNonNull : Ty → Bool
  | nonNull _ => true
  | _ => false

def nullable : Ty → Ty
  | nonNull inner => inner
  | t => t

/-- One value as a value of a list type: a list of one, once for each level of lists. -/
def wrap : Ty → Json → Json
  | list _ _ item, v => .arr [item.wrap v]
  | nonNull inner, v => inner.wrap v
  | _, v => v

def accepts (t : Ty) : Ty → Bool
  | nonNull u => t.nullable.accepts u
  | list _ _ u => match t with | list _ _ item => item.accepts u | _ => false
  | u => t == u

end Ty

namespace Scalar

def int? (n : Int) : Option Json :=
  if -2147483648 ≤ n ∧ n ≤ 2147483647 then some (.int n) else none

def exactFloat? (n : Int) : Option Json :=
  let x := Double.ofInt n
  if (Double.ofFloat x).integer? = some n then some (.float x) else none

def ofLiteral? : Scalar → Literal → Option Json
  | int, .int text => (Numeral.plainInteger? text.toList).bind int?
  | float, .int text | float, .float text => (Numeral.plainNumber? text.toList).map .float
  | string, .string text _ => some (.str text)
  | boolean, .boolean b => some (.bool b)
  | _, _ => none

/-- The value of a variable. Integers may be given as floats and floats as integers, where both
are equal. -/
def ofJson? : Scalar → Json → Option Json
  | int, .int n => int? n
  | int, .float x => (Double.ofFloat x).integer?.bind int?
  | float, .int n => exactFloat? n
  | float, .float x => if (Double.ofFloat x).isFinite then some (.float x) else none
  | string, .str s => some (.str s)
  | boolean, .bool b => some (.bool b)
  | _, _ => none

end Scalar

def Store.inputFields? (s : Store) (t : Ty) : Option (List (String × Member)) :=
  match t.named with
  | .aggregate .input i => (s.get? .input i).map (·.fields)
  | _ => none

def arrange (given : List (String × Json)) :
    List (String × Member) → Option (List (String × Json))
  | [] => some []
  | (name, m) :: rest =>
    match given.lookup name with
    | some v => (arrange given rest).map ((name, v) :: ·)
    | none => if m.type.isNonNull then none else arrange given rest

abbrev Values := List (String × Json)

namespace Store

mutual

def ofJson? (s : Store) (t : Ty) : Json → Option Json
  | .null => if t.isNonNull then none else some .null
  | .arr items =>
    match t.nullable with
    | .list _ _ item => (ofItems? s item items).map .arr
    | _ => none
  | .obj members =>
    match s.inputFields? t with
    | some declared =>
      ((ofMembers? s declared members).bind (arrange · declared)).map fun fields =>
        t.wrap (.obj fields)
    | none => none
  | v =>
    match t.named with
    | .scalar scalar => (scalar.ofJson? v).map t.wrap
    | _ => none

def ofItems? (s : Store) (t : Ty) : List Json → Option (List Json)
  | [] => some []
  | v :: rest => do return (← s.ofJson? t v) :: (← ofItems? s t rest)

def ofMembers? (s : Store) (declared : List (String × Member)) :
    List (String × Json) → Option (List (String × Json))
  | [] => some []
  | (name, v) :: rest => do
    let m ← declared.lookup name
    return (name, ← s.ofJson? m.type v) :: (← ofMembers? s declared rest)

end

def isUnset (values : Values) : Literal → Bool
  | .variable name => (values.lookup name).isNone
  | _ => false

mutual

/-- The value of type `t` that a literal stands for. A list holds `null` for a variable without a
value, an object leaves its field out. -/
def ofLiteral? (s : Store) (values : Values) (t : Ty) : Literal → Option Json
  | .variable name => (values.lookup name).filter fun v => !(v.isNull && t.isNonNull)
  | .null => if t.isNonNull then none else some .null
  | .list items =>
    match t.nullable with
    | .list _ _ item => (ofLiterals? s values item items).map .arr
    | _ => none
  | .object fields =>
    match s.inputFields? t with
    | some declared =>
      ((ofLiteralFields? s values declared fields).bind (arrange · declared)).map fun fields =>
        t.wrap (.obj fields)
    | none => none
  | x =>
    match t.named with
    | .scalar scalar => (scalar.ofLiteral? x).map t.wrap
    | _ => none

def ofLiterals? (s : Store) (values : Values) (t : Ty) : List Literal → Option (List Json)
  | [] => some []
  | x :: rest => do
    let v ← if isUnset values x && !t.isNonNull then some .null else s.ofLiteral? values t x
    return v :: (← ofLiterals? s values t rest)

def ofLiteralFields? (s : Store) (values : Values) (declared : List (String × Member)) :
    List (String × Literal) → Option (List (String × Json))
  | [] => some []
  | (name, x) :: rest =>
    if isUnset values x then ofLiteralFields? s values declared rest
    else do
      let m ← declared.lookup name
      return (name, ← s.ofLiteral? values m.type x) :: (← ofLiteralFields? s values declared rest)

end

end Store

structure NullVariable where
  path : String
  name : String
  type : String

namespace Store

mutual

/-- The first such variable in a literal: that of the field declared first, or of the first item. -/
def nullVariable? (s : Store) (values : Values) (path : String) (t : Ty) :
    Literal → Option NullVariable
  | .variable name =>
    if t.isNonNull && (values.lookup name).any Json.isNull then some ⟨path, name, t.text s⟩
    else none
  | .list items =>
    match t.nullable with
    | .list _ _ item => nullItem? s values path 0 item items
    | _ => none
  | .object fields =>
    match s.inputFields? t with
    | some declared =>
      let found := nullFields s values path declared fields
      declared.findSome? fun d => (found.lookup d.1).join
    | none => none
  | _ => none

def nullItem? (s : Store) (values : Values) (path : String) (index : Nat) (t : Ty) :
    List Literal → Option NullVariable
  | [] => none
  | x :: rest =>
    match nullVariable? s values (path ++ "[" ++ toString index ++ "]") t x with
    | some found => some found
    | none => nullItem? s values path (index + 1) t rest

def nullFields (s : Store) (values : Values) (path : String) (declared : List (String × Member)) :
    List (String × Literal) → List (String × Option NullVariable)
  | [] => []
  | (name, x) :: rest =>
    let found := (declared.lookup name).bind fun m =>
      nullVariable? s values (path ++ "." ++ name) m.type x
    (name, found) :: nullFields s values path declared rest

end

end Store

/-- Why an argument has no value. In an operation that can be run no argument that has to be there
is absent, and only a variable can be the cause of a value that does not fit. -/
inductive ArgumentFault
  | absent (name type : String)
  | invalid (name : String) (cause : Option NullVariable)

def NullVariable.message (v : NullVariable) : String :=
  "Expected variable '$" ++ v.name ++ "' provided to non-null type '" ++ v.type ++
    "' not to be None."

def ArgumentFault.message : ArgumentFault → String
  | absent name type =>
    "Argument '" ++ name ++ "' of required type '" ++ type ++ "' was not provided."
  | invalid name none => "Argument '" ++ name ++ "' has invalid value."
  | invalid name (some v) =>
    "Argument '" ++ name ++ "' has invalid value" ++
      (if v.path = "" then "" else " at " ++ v.path) ++ ": " ++ v.message

def argumentValue (s : Store) (values : Values) (name : String) (t : Ty) :
    Option Literal → Except ArgumentFault (List (String × Json))
  | none => if t.isNonNull then .error (.absent name (t.text s)) else .ok []
  | some x =>
    if Store.isUnset values x then
      if t.isNonNull then .error (.absent name (t.text s)) else .ok []
    else match s.ofLiteral? values t x with
      | some v => .ok [(name, v)]
      | none => .error (.invalid name (s.nullVariable? values "" t x))

def argumentValues (s : Store) (values : Values) (argument : Option (String × Ty))
    (given : List (String × Literal)) : Except ArgumentFault (List (String × Json)) :=
  match argument with
  | none => .ok []
  | some (name, t) => argumentValue s values name t (given.lookup name)

end WitSchema.GraphQL
