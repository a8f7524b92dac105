import WitSchema.Binding.Resolver
import WitSchema.Error
import WitSchema.GraphQL.Description
import WitSchema.GraphQL.Type

/-! A schema: the fields of its query type, each with a resolver, and the
aggregates they lead to. Assembling one collects the aggregates depth first
and checks field names and the uniqueness of type names on the way. In the
schema definition language the query type and the aggregates stand in this
order, with a blank line between them. -/

namespace WitSchema.GraphQL

structure QueryField where
  type : Ty
  argument : Option (String × Ty)
  description : Json
  resolver : Binding.Resolver

def legalName (name : String) : Except Error Unit := (checkName name).mapError .illegalName

def Aggregate.legalFields (a : Aggregate) : Except Error (List (String × Member)) := do
  a.fields.forM fun f => legalName f.1
  return a.fields

def Store.ids (s : Store) : List (Direction × Nat) :=
  (List.range s.outputs.length).map (.output, ·) ++ (List.range s.inputs.length).map (.input, ·)

/-- The aggregates met from the types of `work` on, in depth-first order. `fresh` holds the ones
not met yet. -/
def collect (s : Store) (fresh : List (Direction × Nat)) (work : List Ty) :
    Except Error (List (Direction × Nat)) :=
  match work with
  | [] => .ok []
  | t :: rest =>
    match t.named with
    | .aggregate direction index =>
      if _member : (direction, index) ∈ fresh then
        match s.get? direction index with
        | none => collect s fresh rest
        | some a =>
          match a.legalFields with
          | .error e => .error e
          | .ok fields =>
            (collect s (fresh.erase (direction, index)) (fields.map (·.2.type) ++ rest)).map
              ((direction, index) :: ·)
      else collect s fresh rest
    | _ => collect s fresh rest
termination_by (fresh.length, work.length)
decreasing_by
  all_goals first
    | exact Prod.Lex.right _ (by simp)
    | exact Prod.Lex.left _ _ (by
        have := List.length_erase_of_mem _member
        have := List.length_pos_of_mem _member
        omega)

structure Schema where
  queryType : String
  fields : List (String × QueryField)
  store : Store
  types : List (Direction × Nat)

def QueryField.mentions (f : QueryField) : List Ty :=
  f.type :: (f.argument.map (·.2)).toList

def firstRepeated : List String → List String → Option String
  | _, [] => none
  | seen, name :: rest =>
    if seen.contains name then some name else firstRepeated (name :: seen) rest

def Schema.assemble (queryType : String) (fields : List (String × QueryField)) (store : Store) :
    Except Error Schema := do
  fields.forM fun f => legalName f.1
  let types ← collect store store.ids (fields.flatMap (·.2.mentions))
  let names := queryType :: types.map fun t => store.nameOf t.1 t.2
  match firstRepeated [] names with
  | some name => .error (.duplicateType name)
  | none => return ⟨queryType, fields, store, types⟩

def Schema.aggregates (s : Schema) : List Aggregate :=
  s.types.filterMap fun t => s.store.get? t.1 t.2

/-- Names that belong to introspection and types without fields make every query invalid. -/
def Schema.isExecutable (s : Schema) : Bool :=
  !isIntrospective s.queryType && !s.fields.isEmpty &&
    (s.fields.all fun f =>
      !isIntrospective f.1 && f.2.argument.all fun a => !isIntrospective a.1) &&
    s.aggregates.all fun a =>
      !isIntrospective a.name && !a.fields.isEmpty && a.fields.all fun f => !isIntrospective f.1

/-- Fields on lines of their own. A blank line precedes a described field that is not the first. -/
def fieldLines (isFirst : Bool) : List (Json × String) → List String
  | [] => []
  | (description, line) :: rest =>
    let above := String.ofList (Description.above "  ".toList description)
    ((if isFirst || description.isNull then "" else "\n") ++ above ++ "  " ++ line) ::
      fieldLines false rest

def definitionText (keyword name : String) (description : Json) (fields : List (Json × String)) :
    String :=
  let body := if fields.isEmpty then ""
    else " \x7b\n" ++ String.intercalate "\n" (fieldLines true fields) ++ "\n\x7d"
  String.ofList (Description.above [] description) ++ keyword ++ " " ++ name ++ body

def argumentText (store : Store) : Option (String × Ty) → String
  | some (name, t) => "(" ++ name ++ ": " ++ t.text store ++ ")"
  | none => ""

def Schema.queryText (s : Schema) : String :=
  definitionText "type" s.queryType .null <| s.fields.map fun (name, f) =>
    (f.description, name ++ argumentText s.store f.argument ++ ": " ++ f.type.text s.store)

def Aggregate.text (store : Store) (a : Aggregate) : String :=
  let keyword := match a.direction with | .output => "type" | .input => "input"
  definitionText keyword a.name a.description <| a.fields.map fun (name, m) =>
    (m.description, name ++ ": " ++ m.type.text store)

/-- The query type needs no introduction if it is called `Query` and no other type bears the name
of another operation. -/
def Schema.needsHeader (s : Schema) : Bool :=
  s.queryType != "Query" ||
    s.aggregates.any fun a => a.name == "Mutation" || a.name == "Subscription"

def Schema.sdl (s : Schema) : String :=
  let header := if s.needsHeader then ["schema \x7b\n  query: " ++ s.queryType ++ "\n\x7d"] else []
  String.intercalate "\n\n" (header ++ s.queryText :: s.aggregates.map (·.text s.store))

end WitSchema.GraphQL
