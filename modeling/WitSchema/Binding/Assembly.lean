import WitSchema.Conversion.Convert
import WitSchema.GraphQL.Schema
import WitSchema.Settings.Basic

/-! Building the schema of a world: one query field for each exported function.
The parameters of a function become the members of one input type, each of them
required unless it is an option and the settings allow it to be left out.
Exports are bound in order with one converter, and the first error ends the
build. -/

namespace WitSchema.Binding

open Conversion GraphQL Wit

def fieldName (exportName : String) : String := Name.camel exportName

def isOption (g : Graph) (ref : TypeRef) : Bool :=
  match g.resolveAlias ref with
  | .ok (some id) =>
    match g.node? id with
    | some node => match node.kind with | .option _ => true | _ => false
    | none => false
  | _ => false

structure Step (α : Type) where
  converter : Converter
  notices : List Notice
  result : Except Error α

def bindParams (g : Graph) (nullableOptions : Bool) (c : Converter) (notices : List Notice)
    (fields : List (String × Member)) : List Param → Step (List (String × Member))
  | [] => ⟨c, notices, .ok fields⟩
  | p :: rest =>
    match c.convert g .input p.type with
    | (c, new, .error e) => ⟨c, notices ++ new, .error e⟩
    | (c, new, .ok t) =>
      let t := if nullableOptions && isOption g p.type then t else .nonNull t
      match camelOf p.name with
      | .error e => ⟨c, notices ++ new, .error e⟩
      | .ok name =>
        bindParams g nullableOptions c (notices ++ new) (insertPair name ⟨t, .null⟩ fields) rest

/-- The required argument that carries the parameters; a function without any has none. -/
def bindArgument (g : Graph) (settings : Settings) (c : Converter) (exportName : String)
    (params : List Param) : Step (Option (String × Ty)) :=
  if params.isEmpty then ⟨c, [], .ok none⟩
  else
    let step := bindParams g settings.nullableOptions c [] [] params
    match step.result with
    | .error e => ⟨step.converter, step.notices, .error e⟩
    | .ok fields =>
      let name := Name.pascal exportName ++ "Input"
      match checkTypeName name with
      | .error e => ⟨step.converter, step.notices, .error e⟩
      | .ok () =>
        let side := step.converter.input
        let t := Ty.aggregate .input side.aggregates.length
        ⟨step.converter.set .input (side.allocate ⟨.input, name, .null, fields⟩), step.notices,
          .ok (some (settings.inputArgumentName, .nonNull t))⟩

def bindResult (g : Graph) (c : Converter) (result : Option TypeRef) : Step Ty :=
  match result with
  | none => ⟨c, [], .ok (.scalar .boolean)⟩
  | some ref => let (c, notices, r) := c.convert g .output ref; ⟨c, notices, r⟩

def resolver (settings : Settings) (exportName : String) (f : Function) :
    Except Error Resolver := do
  let params ← f.params.mapM fun p => camelOf p.name
  return ⟨f.name, fieldName exportName, params, settings.inputArgumentName⟩

def bindField (settings : Settings) (exportName : String) (f : Function) (type : Ty)
    (argument : Option (String × Ty)) : Except Error QueryField := do
  let resolver ← resolver settings exportName f
  argument.forM fun a => legalName a.1
  return ⟨type, argument, f.docs, resolver⟩

def bind (g : Graph) (settings : Settings) (c : Converter) (exportName : String) (f : Function) :
    Step QueryField :=
  let first := bindArgument g settings c exportName f.params
  match first.result with
  | .error e => ⟨first.converter, first.notices, .error e⟩
  | .ok argument =>
    let second := bindResult g first.converter f.result
    let notices := first.notices ++ second.notices
    match second.result with
    | .error e => ⟨second.converter, notices, .error e⟩
    | .ok type =>
      ⟨second.converter, notices ++ [.bound exportName f.params.length],
        bindField settings exportName f type argument⟩

open Conversion GraphQL Wit

/-- Binds the exports of a world. Of exports with one field name the last counts. -/
def bindExports (g : Graph) (settings : Settings) (world : World) (c : Converter)
    (notices : List Notice) (fields : List (String × QueryField)) :
    List (String × WorldItem) → Step (List (String × QueryField))
  | [] => ⟨c, notices, .ok fields⟩
  | (name, item) :: rest =>
    match item.function? with
    | none =>
      bindExports g settings world c (notices ++ [.skipped name world.name]) fields rest
    | some f =>
      let step := bind g settings c name f
      match step.result with
      | .error e => ⟨step.converter, notices ++ step.notices, .error e⟩
      | .ok field =>
        bindExports g settings world step.converter (notices ++ step.notices)
          (insertPair (fieldName name) field fields) rest

/-- The schema of the world that the settings select, and what was reported on the way. -/
def createSchema (g : Graph) (settings : Settings) : List Notice × Except Error Schema :=
  match g.world? ((settings.worldName.map Json.str).getD .null) with
  | none => ([], .error (.noWorld settings.worldName))
  | some world =>
    let step := bindExports g settings world .empty [] [] world.exports
    match step.result with
    | .error e => (step.notices, .error e)
    | .ok fields =>
      if fields.isEmpty then (step.notices, .error (.noFunctions world.name))
      else match checkTypeName settings.queryTypeName with
        | .error e => (step.notices, .error e)
        | .ok () =>
          (step.notices ++ [.built world.name fields.length],
            Schema.assemble settings.queryTypeName fields step.converter.store)

end WitSchema.Binding
