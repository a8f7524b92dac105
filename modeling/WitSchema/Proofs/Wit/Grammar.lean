import WitSchema.Wit.Reader

/-! The grammar of graph documents, apart from the reader. A document is well
shaped if its arrays, objects and texts are where the format has them and no
required member is missing. What is left open is whether its kinds, references
and function kinds are ones the format knows. `positions` lists the places where
that is asked, in the order in which a document is read. -/

namespace WitSchema

namespace Json

def under (v : Json) (key : String) : Json := (v.member? key).getD null

def items : Json → List Json
  | arr items => items
  | _ => []

def values : Json → List Json
  | obj members => members.map (·.2)
  | _ => []

def Has (v : Json) (key : String) : Prop := ∃ value, v.member? key = some value

def IsObject (v : Json) : Prop := ∃ members, v = obj members

/-- An array whose items are well shaped. It may be left out. -/
def IsList (each : Json → Prop) (v : Json) : Prop :=
  v = null ∨ ∃ items, v = arr items ∧ ∀ item ∈ items, each item

def IsMap (each : Json → Prop) (v : Json) : Prop :=
  v = null ∨ ∃ members, v = obj members ∧ ∀ m ∈ members, each m.2

def HasList (each : Json → Prop) (v : Json) (key : String) : Prop :=
  ∃ items, v.member? key = some (arr items) ∧ ∀ item ∈ items, each item

end Json

namespace Wit

inductive Position
  | kind (raw : Json)
  | reference (raw : Json)
  | functionKind (tag : String)

def Kind.tags : List String :=
  ["record", "handle", "flags", "tuple", "variant", "enum", "option", "result", "list", "future",
    "stream", "type"]

namespace Position

def Legal : Position → Prop
  | kind raw => raw = .str "resource" ∨ ∃ tag body, raw = .obj [(tag, body)] ∧ tag ∈ Kind.tags ∧
      (tag = "handle" → body.Has "own" ∨ body.Has "borrow")
  | reference raw => (∃ index, raw = .int index) ∨ ∃ p : Primitive, raw = .str p.tag
  | functionKind tag => ∃ k : FunctionKind, tag = k.tag

def error : Position → Error
  | kind raw => .unsupportedKind raw
  | reference raw => .unsupportedPrimitive raw
  | functionKind tag => .unknownFunctionKind (.str tag)

end Position

def optionalReference (raw : Json) : List Position :=
  if raw.isNull then [] else [.reference raw]

def StabilityShaped (raw : Json) : Prop := raw = .null ∨ (∃ s, raw = .str s) ∨ raw.IsObject

structure Field.WellShaped (raw : Json) : Prop where
  name : raw.Has "name"
  type : raw.Has "type"

def Field.positions (raw : Json) : List Position := [.reference (raw.under "type")]

def Label.WellShaped (raw : Json) : Prop := raw.Has "name"

def Case.WellShaped (raw : Json) : Prop := raw.Has "name"

def Case.positions (raw : Json) : List Position := optionalReference (raw.under "type")

def Kind.BodyShaped (tag : String) (body : Json) : Prop :=
  match tag with
  | "record" => body.HasList Field.WellShaped "fields"
  | "handle" | "result" => body.IsObject
  | "flags" => body.HasList Label.WellShaped "flags"
  | "tuple" => body.HasList (fun _ => True) "types"
  | "variant" => body.HasList Case.WellShaped "cases"
  | "enum" => body.HasList Label.WellShaped "cases"
  | _ => True

def Kind.WellShaped : Json → Prop
  | .obj [(tag, body)] => BodyShaped tag body
  | _ => True

def Kind.bodyPositions (tag : String) (body : Json) : List Position :=
  match tag with
  | "record" => (body.under "fields").items.flatMap Field.positions
  | "tuple" => (body.under "types").items.flatMap fun type => [.reference type]
  | "variant" => (body.under "cases").items.flatMap Case.positions
  | "option" | "list" | "type" => [.reference body]
  | "result" => optionalReference (body.under "ok") ++ optionalReference (body.under "err")
  | "future" | "stream" => optionalReference body
  | _ => []

/-- A kind is looked at as a whole before the references in it. -/
def Kind.positions (raw : Json) : List Position :=
  .kind raw :: match raw with
    | .obj [(tag, body)] => bodyPositions tag body
    | _ => []

def Owner.WellShaped (raw : Json) : Prop :=
  raw = .null ∨ raw.Has "world" ∨ raw.Has "interface"

structure TypeDef.WellShaped (raw : Json) : Prop where
  kind : raw.Has "kind"
  body : Kind.WellShaped (raw.under "kind")
  owner : Owner.WellShaped (raw.under "owner")
  stability : StabilityShaped (raw.under "stability")

def TypeDef.positions (raw : Json) : List Position := Kind.positions (raw.under "kind")

inductive Param.WellShaped : Json → Prop
  | object {raw} (name : raw.Has "name") (type : raw.Has "type") : WellShaped raw
  | pair (name type : Json) : WellShaped (.arr [name, type])

def Param.positions : Json → List Position
  | .arr [_, type] => [.reference type]
  | raw => [.reference (raw.under "type")]

/-- The kind of a function is a word, or the key of an object that names its resource. -/
inductive FunctionKind.WellShaped : Option Json → Prop
  | missing : WellShaped none
  | word (tag : String) : WellShaped (some (.str tag))
  | tagged (tag : String) (resource : Json) : WellShaped (some (.obj [(tag, resource)]))

def FunctionKind.tagOf : Option Json → String
  | some (.str tag) => tag
  | some (.obj [(tag, _)]) => tag
  | _ => "freestanding"

structure Function.WellShaped (raw : Json) : Prop where
  name : raw.Has "name"
  params : (raw.under "params").IsList Param.WellShaped
  kind : FunctionKind.WellShaped (raw.member? "kind")
  stability : StabilityShaped (raw.under "stability")

/-- The result stands under `result` or, where that is left out, in the older form under
`results`. -/
def resultPositions (raw : Json) : List Position :=
  if (raw.under "result").isNull then optionalReference ((raw.under "results").under "anon")
  else [.reference (raw.under "result")]

/-- The kind of a function is asked for after its parameters and its result. -/
def Function.positions (raw : Json) : List Position :=
  (raw.under "params").items.flatMap Param.positions ++ resultPositions raw ++
    [.functionKind (FunctionKind.tagOf (raw.member? "kind"))]

structure WorldItem.WellShaped (raw : Json) : Prop where
  object : raw.IsObject
  function : ∀ f, raw.member? "function" = some f → Function.WellShaped f
  interface : ∀ members, raw.member? "interface" = some (.obj members) →
    (Json.obj members).Has "id"

def WorldItem.positions (raw : Json) : List Position :=
  (raw.member? "function").elim [] Function.positions

structure World.WellShaped (raw : Json) : Prop where
  name : raw.Has "name"
  exports : (raw.under "exports").IsMap WorldItem.WellShaped
  imports : (raw.under "imports").IsMap WorldItem.WellShaped

def World.positions (raw : Json) : List Position :=
  (raw.under "exports").values.flatMap WorldItem.positions ++
    (raw.under "imports").values.flatMap WorldItem.positions

structure Interface.WellShaped (raw : Json) : Prop where
  object : raw.IsObject
  types : (raw.under "types").IsMap fun _ => True
  functions : (raw.under "functions").IsMap Function.WellShaped

def Interface.positions (raw : Json) : List Position :=
  (raw.under "functions").values.flatMap Function.positions

structure Package.WellShaped (raw : Json) : Prop where
  name : raw.Has "name"
  interfaces : (raw.under "interfaces").IsMap fun _ => True
  worlds : (raw.under "worlds").IsMap fun _ => True

structure Graph.WellShaped (raw : Json) : Prop where
  object : raw.IsObject
  types : (raw.under "types").IsList TypeDef.WellShaped
  worlds : (raw.under "worlds").IsList World.WellShaped
  interfaces : (raw.under "interfaces").IsList Interface.WellShaped
  packages : (raw.under "packages").IsList Package.WellShaped

def Graph.positions (raw : Json) : List Position :=
  (raw.under "types").items.flatMap TypeDef.positions ++
    (raw.under "worlds").items.flatMap World.positions ++
    (raw.under "interfaces").items.flatMap Interface.positions

end Wit

end WitSchema
