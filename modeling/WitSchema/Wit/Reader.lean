import WitSchema.Json.Access
import WitSchema.Wit.Graph

/-! The graph a JSON document describes. A kind is the word `resource` or an
object whose only key is the tag; a type reference is a primitive tag or an
index. The first piece out of shape is reported, in the order in which the
pieces are read. -/

namespace WitSchema.Wit

def docsOfJson : Json → Json
  | .obj members => (members.lookup "contents").getD .null
  | raw => raw

def Primitive.ofJson : Json → Except Error Primitive
  | .str tag => (Primitive.ofTag? tag).elim (.error (.unsupportedPrimitive (.str tag))) .ok
  | raw => .error (.unsupportedPrimitive raw)

def TypeRef.ofJson : Json → Except Error TypeRef
  | .int index => .ok (.node index)
  | raw => (Primitive.ofJson raw).map .primitive

def TypeRef.ofJson? (raw : Json) : Except Error (Option TypeRef) :=
  if raw.isNull then .ok none else (TypeRef.ofJson raw).map some

def Field.ofJson (raw : Json) : Except Error Field := do
  let name ← raw.item "name"
  let type ← TypeRef.ofJson (← raw.item "type")
  return ⟨name, type, docsOfJson (← raw.get "docs")⟩

def Label.ofJson (raw : Json) : Except Error Label := do
  let name ← raw.item "name"
  return ⟨name, docsOfJson (← raw.get "docs")⟩

def Case.ofJson (raw : Json) : Except Error Case := do
  let name ← raw.item "name"
  let payload ← TypeRef.ofJson? (← raw.get "type")
  return ⟨name, payload, docsOfJson (← raw.get "docs")⟩

def handleOfJson (raw body : Json) : Except Error Kind := do
  if ← body.has "own" then return .handle .own (← body.item "own")
  if ← body.has "borrow" then return .handle .borrow (← body.item "borrow")
  .error (.unsupportedKind raw)

def Kind.ofTagged (raw : Json) (tag : String) (body : Json) : Except Error Kind :=
  match tag with
  | "record" => do
    return .record (← (← (← body.item "fields").elements).mapM Field.ofJson)
  | "handle" => handleOfJson raw body
  | "flags" => do
    return .flags (← (← (← body.item "flags").elements).mapM Label.ofJson)
  | "tuple" => do
    return .tuple (← (← (← body.item "types").elements).mapM TypeRef.ofJson)
  | "variant" => do
    return .variant (← (← (← body.item "cases").elements).mapM Case.ofJson)
  | "enum" => do
    return .enum (← (← (← body.item "cases").elements).mapM Label.ofJson)
  | "option" => (TypeRef.ofJson body).map .option
  | "result" => do
    let ok ← TypeRef.ofJson? (← body.get "ok")
    return .result ok (← TypeRef.ofJson? (← body.get "err"))
  | "list" => (TypeRef.ofJson body).map .list
  | "future" => (TypeRef.ofJson? body).map .future
  | "stream" => (TypeRef.ofJson? body).map .stream
  | "type" => (TypeRef.ofJson body).map .alias
  | _ => .error (.unsupportedKind raw)

def Kind.ofJson : Json → Except Error Kind
  | .str "resource" => .ok .resource
  | .obj [(tag, body)] => Kind.ofTagged (.obj [(tag, body)]) tag body
  | raw => .error (.unsupportedKind raw)

def Owner.ofJson? (raw : Json) : Except Error (Option Owner) := do
  if !raw.isTruthy then return none
  if ← raw.has "world" then return some ⟨.world, ← raw.item "world"⟩
  return some ⟨.interface, ← raw.item "interface"⟩

/-- A stability is a text, or a container whose first element is taken. -/
def stabilityOfJson (raw : Json) : Except Error Json :=
  match raw with
  | .null => .ok .null
  | .str s => .ok (.str s)
  | _ => raw.elements.map fun items => items.head?.getD .null

def TypeDef.ofJson (raw : Json) : Except Error TypeDef := do
  let kind ← Kind.ofJson (← raw.item "kind")
  let name ← raw.get "name"
  let owner ← Owner.ofJson? (← raw.get "owner")
  let docs := docsOfJson (← raw.get "docs")
  return ⟨kind, name, owner, docs, ← stabilityOfJson (← raw.get "stability")⟩

def Param.ofJson (raw : Json) : Except Error Param := do
  match raw with
  | .obj _ =>
    let name ← raw.item "name"
    return ⟨name, ← TypeRef.ofJson (← raw.item "type")⟩
  | _ =>
    let (name, type) ← raw.pair
    return ⟨name, ← TypeRef.ofJson type⟩

def resultOfJson (raw : Json) : Except Error (Option TypeRef) := do
  let result ← raw.get "result"
  if !result.isNull then return some (← TypeRef.ofJson result)
  match ← raw.get "results" with
  | .obj members => TypeRef.ofJson? ((members.lookup "anon").getD .null)
  | _ => return none

def taggedResource (raw : Json) : Except Error (Json × Json) :=
  match raw with
  | .obj _ => raw.onlyEntry.map fun e => (.str e.1, e.2)
  | _ => .ok (raw, .null)

def FunctionKind.ofJson (raw : Json) : Except Error FunctionKind :=
  match raw with
  | .str tag => (FunctionKind.ofTag? tag).elim (.error (.unknownFunctionKind raw)) .ok
  | _ => .error (.unknownFunctionKind raw)

def Function.ofJson (raw : Json) : Except Error Function := do
  let (tag, resource) ← taggedResource ((← raw.find "kind").getD (.str "freestanding"))
  let name ← raw.item "name"
  let params ← (← (← raw.get "params").elementsIfAny).mapM Param.ofJson
  let result ← resultOfJson raw
  let kind ← FunctionKind.ofJson tag
  let docs := docsOfJson (← raw.get "docs")
  return ⟨name, params, result, kind, resource, docs, ← stabilityOfJson (← raw.get "stability")⟩

def WorldItem.ofJson (raw : Json) : Except Error WorldItem := do
  if ← raw.has "function" then return .function (← Function.ofJson (← raw.item "function"))
  if ← raw.has "interface" then
    match ← raw.item "interface" with
    | .obj members => return .interface (← (Json.obj members).item "id")
    | index => return .interface index
  return .type (← raw.get "type")

def readEntries (read : Json → Except Error α) (members : List (String × Json)) :
    Except Error (List (String × α)) :=
  members.mapM fun m => (read m.2).map fun v => (m.1, v)

def World.ofJson (raw : Json) : Except Error World := do
  let name ← raw.item "name"
  let exports ← readEntries WorldItem.ofJson (← (← raw.get "exports").entriesIfAny)
  let imports ← readEntries WorldItem.ofJson (← (← raw.get "imports").entriesIfAny)
  let package ← raw.get "package"
  return ⟨name, exports, imports, package, docsOfJson (← raw.get "docs")⟩

def Interface.ofJson (raw : Json) : Except Error Interface := do
  let name ← raw.get "name"
  let types ← (← raw.get "types").mapping
  let functions ← readEntries Function.ofJson (← (← raw.get "functions").entriesIfAny)
  return ⟨name, types, functions, ← raw.get "package"⟩

def Package.ofJson (raw : Json) : Except Error Package := do
  let name ← raw.item "name"
  let interfaces ← (← raw.get "interfaces").mapping
  return ⟨name, interfaces, ← (← raw.get "worlds").mapping⟩

def Graph.ofJson (raw : Json) : Except Error Graph := do
  let types ← (← (← raw.get "types").elementsIfAny).mapM TypeDef.ofJson
  let worlds ← (← (← raw.get "worlds").elementsIfAny).mapM World.ofJson
  let interfaces ← (← (← raw.get "interfaces").elementsIfAny).mapM Interface.ofJson
  let packages ← (← (← raw.get "packages").elementsIfAny).mapM Package.ofJson
  return ⟨types, worlds, interfaces, packages⟩

end WitSchema.Wit
