import WitSchema.Error
import WitSchema.Json.Basic

/-! The resolved type graph of a component. Definitions live in one list and
refer to each other by their place in it. What the reader passes on unchecked
(names, docs, indices of owners and the like) stays the JSON value it was. The
walk over aliases leaves every node it passes out of the nodes it may still
visit, so it ends after at most one step more than there are nodes. -/

namespace WitSchema.Wit

inductive Primitive
  | bool | u8 | u16 | u32 | u64 | s8 | s16 | s32 | s64 | f32 | f64 | char | string | errorContext
  deriving DecidableEq

namespace Primitive

def all : List Primitive :=
  [bool, u8, u16, u32, u64, s8, s16, s32, s64, f32, f64, char, string, errorContext]

def tag : Primitive → String
  | bool => "bool"
  | u8 => "u8"
  | u16 => "u16"
  | u32 => "u32"
  | u64 => "u64"
  | s8 => "s8"
  | s16 => "s16"
  | s32 => "s32"
  | s64 => "s64"
  | f32 => "f32"
  | f64 => "f64"
  | char => "char"
  | string => "string"
  | errorContext => "error-context"

def ofTag? (tag : String) : Option Primitive := all.find? (·.tag == tag)

theorem mem_all (p : Primitive) : p ∈ all := by cases p <;> decide

theorem ofTag?_tag (p : Primitive) : ofTag? p.tag = some p := by cases p <;> decide

end Primitive

inductive TypeRef
  | primitive (p : Primitive)
  | node (index : Int)
  deriving DecidableEq

structure Field where
  name : Json
  type : TypeRef
  docs : Json

structure Label where
  name : Json
  docs : Json

structure Case where
  name : Json
  payload : Option TypeRef
  docs : Json

inductive HandleMode
  | own
  | borrow
  deriving DecidableEq

inductive Kind
  | record (fields : List Field)
  | resource
  | handle (mode : HandleMode) (resource : Json)
  | flags (labels : List Label)
  | tuple (types : List TypeRef)
  | variant (cases : List Case)
  | enum (labels : List Label)
  | option (type : TypeRef)
  | result (ok err : Option TypeRef)
  | list (type : TypeRef)
  | future (type : Option TypeRef)
  | stream (type : Option TypeRef)
  | alias (target : TypeRef)
  | unrecognised (raw : Json)

inductive OwnerKind
  | world
  | interface
  deriving DecidableEq

structure Owner where
  kind : OwnerKind
  index : Json

structure TypeDef where
  kind : Kind
  name : Json
  owner : Option Owner
  docs : Json
  stability : Json

inductive FunctionKind
  | freestanding | asyncFreestanding | method | asyncMethod | static | asyncStatic | constructor
  deriving DecidableEq

namespace FunctionKind

def all : List FunctionKind :=
  [freestanding, asyncFreestanding, method, asyncMethod, static, asyncStatic, constructor]

def tag : FunctionKind → String
  | freestanding => "freestanding"
  | asyncFreestanding => "async-freestanding"
  | method => "method"
  | asyncMethod => "async-method"
  | static => "static"
  | asyncStatic => "async-static"
  | constructor => "constructor"

def ofTag? (tag : String) : Option FunctionKind := all.find? (·.tag == tag)

theorem ofTag?_tag (k : FunctionKind) : ofTag? k.tag = some k := by cases k <;> decide

end FunctionKind

structure Param where
  name : Json
  type : TypeRef

structure Function where
  name : Json
  params : List Param
  result : Option TypeRef
  kind : FunctionKind
  resource : Json
  docs : Json
  stability : Json

inductive WorldItem
  | function (f : Function)
  | interface (index : Json)
  | type (index : Json)

structure World where
  name : Json
  exports : List (String × WorldItem)
  imports : List (String × WorldItem)
  package : Json
  docs : Json

structure Interface where
  name : Json
  types : List (Json × Json)
  functions : List (String × Function)
  package : Json

structure Package where
  name : Json
  interfaces : List (Json × Json)
  worlds : List (Json × Json)

structure Graph where
  types : List TypeDef
  worlds : List World
  interfaces : List Interface
  packages : List Package

def WorldItem.function? : WorldItem → Option Function
  | function f => some f
  | _ => none

def World.functionExports (w : World) : List (String × Function) :=
  w.exports.filterMap fun e => e.2.function?.map fun f => (e.1, f)

/-- The first world of the given name, or the first of all where no name is given. -/
def Graph.world? (g : Graph) (name : Json) : Option World :=
  if name.isNull then g.worlds.head? else g.worlds.find? (·.name == name)

namespace Graph

def size (g : Graph) : Nat := g.types.length

def node? (g : Graph) (index : Int) : Option TypeDef :=
  if 0 ≤ index then g.types[index.toNat]? else none

def ids (g : Graph) : List Nat := List.range g.size

def typeDef (g : Graph) (index : Int) : Except Error TypeDef :=
  (g.node? index).elim (.error (.unresolvedType index g.size)) .ok

/-- The walk from `start`, which has passed the nodes of `chain`, goes on at `index`. It ends at
the first node that is no alias; an alias of a primitive leads back to `start`. -/
def walk (g : Graph) (start : Nat) (chain fresh : List Nat) (index : Int) : Except Error Nat :=
  match g.node? index with
  | none => .error (.unresolvedType index g.size)
  | some node =>
    if _member : index.toNat ∈ fresh then
      match node.kind with
      | .alias (.node next) =>
        walk g start (chain ++ [index.toNat]) (fresh.erase index.toNat) next
      | .alias (.primitive _) => .ok start
      | _ => .ok index.toNat
    else .error (.typeCycle (chain ++ [index.toNat]))
termination_by fresh.length
decreasing_by
  have := List.length_erase_of_mem _member
  have := List.length_pos_of_mem _member
  omega

/-- The node an index denotes: the end of its aliases, or itself for an alias of a primitive. -/
def denoted (g : Graph) (index : Int) : Except Error Nat :=
  g.walk index.toNat [] g.ids index

def resolveAlias (g : Graph) : TypeRef → Except Error (Option Nat)
  | .primitive _ => .ok none
  | .node index => (g.denoted index).map some

end Graph

end WitSchema.Wit
