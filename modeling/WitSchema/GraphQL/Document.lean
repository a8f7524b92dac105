import WitSchema.GraphQL.Type

/-! Plain documents: an operation with its variables and the fields it selects,
without fragments and directives. A field remembers where it stands in the
text. -/

namespace WitSchema.GraphQL

inductive Literal
  | variable (name : String)
  | int (text : String)
  | float (text : String)
  | string (text : String) (isBlock : Bool)
  | boolean (b : Bool)
  | null
  | enum (name : String)
  | list (items : List Literal)
  | object (fields : List (String × Literal))
  deriving Inhabited

inductive TypeExpr
  | named (name : String)
  | list (item : TypeExpr)
  | nonNull (inner : TypeExpr)

structure VariableDefinition where
  name : String
  type : TypeExpr
  default : Option Literal

/-- A field with the key it is answered under. Braces after it may hold no selections. -/
structure Selection where
  offset : Nat
  key : String
  name : String
  arguments : List (String × Literal)
  hasBraces : Bool
  selections : List Selection

structure Operation where
  definitions : List VariableDefinition
  selections : List Selection

/-- Braces and brackets nest at most this deep in a document, and so do lists and objects in the
value of a variable. -/
def nestingLimit : Nat := 200

structure Location where
  line : Nat
  column : Nat

def Location.advance (start : Location) : List Char → Nat → Location
  | _, 0 => start
  | '\r' :: '\n' :: rest, n + 2 => advance ⟨start.line + 1, 1⟩ rest n
  | c :: rest, n + 1 =>
    if c = '\n' ∨ c = '\r' then advance ⟨start.line + 1, 1⟩ rest n
    else advance ⟨start.line, start.column + 1⟩ rest n
  | [], _ => start

def Location.ofOffset (text : String) (offset : Nat) : Location :=
  Location.advance ⟨1, 1⟩ text.toList offset

namespace Literal

mutual

def same : Literal → Literal → Bool
  | .variable a, .variable b => a == b
  | .int a, .int b => a == b
  | .float a, .float b => a == b
  | .string a s, .string b t => a == b && s == t
  | .boolean a, .boolean b => a == b
  | .null, .null => true
  | .enum a, .enum b => a == b
  | .list xs, .list ys => sameItems xs ys
  | .object xs, .object ys => xs.length == ys.length && sameFields xs ys
  | _, _ => false

def sameItems : List Literal → List Literal → Bool
  | [], [] => true
  | x :: xs, y :: ys => x.same y && sameItems xs ys
  | _, _ => false

def sameFields : List (String × Literal) → List (String × Literal) → Bool
  | [], _ => true
  | (k, x) :: rest, fields =>
    (match fields.lookup k with
      | some y => x.same y
      | none => false) && sameFields rest fields

end

def sameArguments (xs ys : List (String × Literal)) : Bool :=
  xs.length == ys.length && sameFields xs ys

mutual

def variableNames : Literal → List String
  | .variable name => [name]
  | .list items => itemVariables items
  | .object fields => fieldVariables fields
  | _ => []

def itemVariables : List Literal → List String
  | [] => []
  | x :: rest => x.variableNames ++ itemVariables rest

def fieldVariables : List (String × Literal) → List String
  | [] => []
  | (_, x) :: rest => x.variableNames ++ fieldVariables rest

end

end Literal

end WitSchema.GraphQL
