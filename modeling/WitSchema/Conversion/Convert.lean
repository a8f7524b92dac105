import WitSchema.Conversion.State
import WitSchema.Name
import WitSchema.Wit.Graph

/-! Conversion of type references. A node is converted once in each direction
and then found in the cache. Aggregates enter the cache before their members
are converted, so that a recursive type finds itself there; lists, options and
tuples enter it when they are complete, so a cycle through them alone is an
error. The nodes that may still be built shrink with each nested construction,
which bounds the depth. A failure leaves the state as far as it got. The two
directions of a converter do not share state. -/

namespace WitSchema.Conversion

open GraphQL Wit

abbrev Converts := Side → TypeRef → Side × Except Error Ty

/-- A member of an aggregate before conversion; without a reference it gets the fallback. -/
structure Slot where
  name : String
  type : Option TypeRef
  fallback : Scalar
  docs : Json

def camelOf : Json → Except Error String
  | .str s => .ok (Name.camel s)
  | _ => .error (.shape .notText)

def pascalOf : Json → Except Error String
  | .str s => .ok (Name.pascal s)
  | _ => .error (.shape .notText)

def aggregateName (direction : Direction) (sort : String) (id : Nat) (name : Json) :
    Except Error String :=
  if name.isTruthy then
    (pascalOf name).map (· ++ match direction with | .input => "Input" | .output => "")
  else .ok (sort ++ "_" ++ toString id ++ match direction with | .input => "_Input" | .output => "")

def resultName (direction : Direction) (id : Nat) : String :=
  "Result_" ++ toString id ++ match direction with | .input => "_Input" | .output => ""

def checkTypeName (name : String) : Except Error Unit :=
  if reservedNames.contains name then .error (.reservedType name)
  else match checkName name with
    | .ok () => .ok ()
    | .error fault => .error (.illegalName fault)

def fieldSlot (f : Field) : Except Error Slot :=
  (camelOf f.name).map fun name => ⟨name, some f.type, .string, f.docs⟩

def discriminator : Slot := ⟨"type", none, .string, .str "Name of the active case."⟩

/-- The cases that carry a payload. One that would be called `type` is left out with a warning. -/
def caseSlots (id : Nat) (node : Json) : List Case → List Notice × Except Error (List Slot)
  | [] => ([], .ok [])
  | c :: rest =>
    match c.payload with
    | none => caseSlots id node rest
    | some ref =>
      match camelOf c.name with
      | .error e => ([], .error e)
      | .ok name =>
        let (notices, slots) := caseSlots id node rest
        if name = discriminator.name then (.hiddenCase id node :: notices, slots)
        else (notices, slots.map (⟨name, some ref, .string, c.docs⟩ :: ·))

def resultSlots (ok err : Option TypeRef) : List Slot :=
  [⟨"ok", ok, .boolean, .null⟩, ⟨"error", err, .string, .null⟩]

/-- Converts the members in order; each enters the aggregate as soon as it is converted. -/
def fill (convert : Converts) (index : Nat) : Side → List Slot → Side × Except Error Unit
  | s, [] => (s, .ok ())
  | s, slot :: rest =>
    match slot.type with
    | none =>
      fill convert index (s.addField index slot.name ⟨.scalar slot.fallback, slot.docs⟩) rest
    | some ref =>
      match convert s ref with
      | (s, .error e) => (s, .error e)
      | (s, .ok t) => fill convert index (s.addField index slot.name ⟨t, slot.docs⟩) rest

def aggregate (convert : Converts) (direction : Direction) (id : Nat) (name : String) (docs : Json)
    (slots : List Slot) (s : Side) : Side × Except Error Ty :=
  match checkTypeName name with
  | .error e => (s, .error e)
  | .ok () =>
    let index := s.aggregates.length
    let t := Ty.aggregate direction index
    match fill convert index ((s.allocate ⟨direction, name, docs, []⟩).put id t) slots with
    | (s, .error e) => (s, .error e)
    | (s, .ok ()) => (s, .ok t)

def convertAll (convert : Converts) : Side → List TypeRef → Side × Except Error (List Ty)
  | s, [] => (s, .ok [])
  | s, ref :: rest =>
    match convert s ref with
    | (s, .error e) => (s, .error e)
    | (s, .ok t) =>
      match convertAll convert s rest with
      | (s, .error e) => (s, .error e)
      | (s, .ok ts) => (s, .ok (t :: ts))

/-- A tuple is a list of its first element's type, though all its elements are converted. -/
def tuple (convert : Converts) (direction : Direction) (id : Nat) (types : List TypeRef)
    (s : Side) : Side × Except Error Ty :=
  match convertAll convert s types with
  | (s, .error e) => (s, .error e)
  | (s, .ok []) => let (s, t) := s.newList direction (.scalar .string); (s, .ok t)
  | (s, .ok [t]) => let (s, t) := s.newList direction t; (s, .ok t)
  | (s, .ok (t :: ts)) =>
    let (s, t) := (s.report [.tupleCut id (ts.length + 1)]).newList direction t
    (s, .ok t)

def recordParts (direction : Direction) (id : Nat) (name : Json) (fields : List Field) :
    Except Error (String × List Slot) := do
  let name ← aggregateName direction "Record" id name
  return (name, ← fields.mapM fieldSlot)

def build (convert : Converts) (direction : Direction) (id : Nat) (node : TypeDef) (s : Side) :
    Side × Except Error Ty :=
  match node.kind with
  | .alias (.primitive p) => (s, .ok (.scalar (Scalar.ofPrimitive p)))
  | .alias target => convert s target
  | .record fields =>
    match recordParts direction id node.name fields with
    | .error e => (s, .error e)
    | .ok (name, slots) => aggregate convert direction id name node.docs slots s
  | .variant cases =>
    match aggregateName direction "Variant" id node.name with
    | .error e => (s, .error e)
    | .ok name =>
      let (notices, slots) := caseSlots id node.name cases
      match slots with
      | .error e => (s.report notices, .error e)
      | .ok slots =>
        aggregate convert direction id name node.docs (discriminator :: slots) (s.report notices)
  | .result ok err =>
    aggregate convert direction id (resultName direction id) node.docs (resultSlots ok err) s
  | .list element =>
    match convert s element with
    | (s, .error e) => (s, .error e)
    | (s, .ok t) => let (s, t) := s.newList direction t; (s, .ok t)
  | .option inner => convert s inner
  | .tuple types => tuple convert direction id types s
  | .enum _ | .flags _ | .handle .. | .resource | .future _ | .stream _ =>
    (s, .ok (.scalar .string))
  | .unrecognised raw => (s, .error (.unsupportedKind raw))

/-- Converts a reference; `fresh` holds the nodes that are not under construction. -/
def convertWithin (g : Graph) (direction : Direction) (fresh : List Nat) (s : Side)
    (ref : TypeRef) : Side × Except Error Ty :=
  match ref with
  | .primitive p => (s, .ok (.scalar (Scalar.ofPrimitive p)))
  | .node index =>
    match g.denoted index with
    | .error e => (s, .error e)
    | .ok id =>
      match s.cached? id with
      | some t => (s, .ok t)
      | none =>
        if _member : id ∈ fresh then
          match g.typeDef id with
          | .error e => (s, .error e)
          | .ok node =>
            match build (fun s ref => convertWithin g direction (fresh.erase id) s ref) direction id
                node (s.enter direction id node.name) with
            | (s, .error e) => (s.leave, .error e)
            | (s, .ok t) => (s.leave.put id t, .ok t)
        else (s, .error (.typeCycle (s.building.dropWhile (· != id) ++ [id])))
termination_by fresh.length
decreasing_by
  have := List.length_erase_of_mem _member
  have := List.length_pos_of_mem _member
  omega

def Side.convert (g : Graph) (direction : Direction) (s : Side) (ref : TypeRef) :
    Side × Except Error Ty :=
  convertWithin g direction (g.ids.filter (!s.building.contains ·)) s ref

open GraphQL Wit

structure Converter where
  output : Side
  input : Side

namespace Converter

def empty : Converter := ⟨.empty, .empty⟩

def side (c : Converter) : Direction → Side
  | .output => c.output
  | .input => c.input

def set (c : Converter) (direction : Direction) (s : Side) : Converter :=
  match direction with
  | .output => { c with output := s }
  | .input => { c with input := s }

def store (c : Converter) : Store := ⟨c.output.aggregates, c.input.aggregates⟩

def convert (g : Graph) (c : Converter) (direction : Direction) (ref : TypeRef) :
    Converter × List Notice × Except Error Ty :=
  let (s, r) := (c.side direction).convert g direction ref
  (c.set direction { s with notices := [] }, s.notices, r)

end Converter

end WitSchema.Conversion
