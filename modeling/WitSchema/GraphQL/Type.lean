import WitSchema.Json.Basic
import WitSchema.Wit.Graph

/-! The types of a schema. An aggregate is an object type or an input type; it
lives in the store of its direction and is referred to by its place there,
which is its identity. A list carries its direction and a serial number for
the same purpose. -/

namespace WitSchema

inductive Direction
  | output
  | input
  deriving DecidableEq

namespace GraphQL

inductive Scalar
  | int
  | float
  | string
  | boolean
  deriving DecidableEq

def Scalar.name : Scalar → String
  | int => "Int"
  | float => "Float"
  | string => "String"
  | boolean => "Boolean"

def Scalar.all : List Scalar := [int, float, string, boolean]

def Scalar.ofPrimitive : Wit.Primitive → Scalar
  | .bool => boolean
  | .u8 | .u16 | .u32 | .s8 | .s16 | .s32 => int
  | .f32 | .f64 => float
  | .u64 | .s64 | .char | .string | .errorContext => string

inductive Ty
  | scalar (s : Scalar)
  | list (direction : Direction) (serial : Nat) (item : Ty)
  | aggregate (direction : Direction) (index : Nat)
  | nonNull (inner : Ty)
  deriving DecidableEq

structure Member where
  type : Ty
  description : Json

structure Aggregate where
  direction : Direction
  name : String
  description : Json
  fields : List (String × Member)

structure Store where
  outputs : List Aggregate
  inputs : List Aggregate

def Store.get? (s : Store) (direction : Direction) (index : Nat) : Option Aggregate :=
  match direction with
  | .output => s.outputs[index]?
  | .input => s.inputs[index]?

def Ty.render (name : Direction → Nat → String) : Ty → String
  | scalar s => s.name
  | list _ _ item => "[" ++ item.render name ++ "]"
  | aggregate direction index => name direction index
  | nonNull inner => inner.render name ++ "!"

def Ty.named : Ty → Ty
  | list _ _ item => item.named
  | nonNull inner => inner.named
  | t => t

def Store.nameOf (s : Store) (direction : Direction) (index : Nat) : String :=
  ((s.get? direction index).map (·.name)).getD ""

def Ty.text (s : Store) (t : Ty) : String := t.render s.nameOf

end GraphQL

end WitSchema
