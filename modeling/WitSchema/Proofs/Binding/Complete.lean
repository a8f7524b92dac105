import WitSchema.Proofs.Binding.Exports
import WitSchema.Proofs.Conversion.Independence
import WitSchema.Proofs.Conversion.Shape
import WitSchema.Proofs.GraphQL.Assembly

/-! A schema is built of complete parts or not at all. When all exports have been
bound, what their references reach resolves, and each aggregate that the query
type leads to has all its members. An export that reaches something faulty
therefore leaves no schema behind. -/

namespace WitSchema

open Wit

namespace GraphQL

/-- The aggregates that the query type leads to through arguments and fields. -/
inductive Schema.Reaches (s : Schema) : Direction → Nat → Prop
  | root {f t direction index} (field : f ∈ s.fields) (mentioned : t ∈ f.2.mentions)
      (named : t.named = .aggregate direction index) : Reaches s direction index
  | member {outer place a m direction index} (reached : Reaches s outer place)
      (found : s.store.get? outer place = some a) (field : m ∈ a.fields)
      (named : m.2.type.named = .aggregate direction index) : Reaches s direction index

end GraphQL

def Wit.Function.refs (f : Function) : List TypeRef := f.params.map (·.type) ++ f.result.toList

namespace Binding

open Conversion GraphQL

def converterOf (g : Graph) (settings : Settings) (world : World) : Converter :=
  (bindExports g settings world .empty [] [] world.exports).converter

/-- The aggregate is that of a node, with the fields that the kind of the node asks for, or it is
the input type of an exported function, with one field for each parameter. -/
def HoldsMembers (g : Graph) (settings : Settings) (world : World) (direction : Direction)
    (index : Nat) : Prop :=
  (∃ id node, g.types[id]? = some node ∧ node.kind.isAggregate = true ∧
    Equation g direction ((converterOf g settings world).side direction) id node
      (.aggregate direction index)) ∨
  direction = .input ∧ ∃ e ∈ world.functionExports,
    IsAggregate .input ((converterOf g settings world).side .input) (.aggregate .input index)
      (Name.pascal e.1 ++ "Input") .null
      (e.2.params.map (paramField g settings.nullableOptions
        (((converterOf g settings world).side .input).look? g)))

section Build

variable {g : Graph} {settings : Settings} {world : World} {schema : Schema}

theorem createSchema_built
    (selected : g.world? ((settings.worldName.map Json.str).getD .null) = some world)
    (ok : (createSchema g settings).2 = .ok schema) :
    ∃ fields, Bound g settings world.functionExports (converterOf g settings world) fields ∧
      fields ≠ [] ∧ checkTypeName settings.queryTypeName = .ok () ∧
      Schema.assemble settings.queryTypeName fields (converterOf g settings world).store =
        .ok schema := by
  have ends := createSchema_ends g settings
  rw [ok] at ends
  cases ends with
  | @assembled _ fields _ selected' bound nonempty checked same =>
    cases selected.symm.trans selected'
    rcases made : bindExports g settings world .empty [] [] world.exports with ⟨c, notices, r⟩
    rw [made] at bound same
    cases bound
    have own : converterOf g settings world = c := by rw [converterOf, made]
    have all := bindExports_ok (bound_empty g settings) made
    exact ⟨fields, own ▸ all, nonempty, checked, own ▸ same⟩

theorem createSchema_ok
    (selected : g.world? ((settings.worldName.map Json.str).getD .null) = some world)
    (ok : (createSchema g settings).2 = .ok schema) :
    Bound g settings world.functionExports (converterOf g settings world) schema.fields ∧
      schema.store = (converterOf g settings world).store := by
  obtain ⟨fields, bound, -, -, assembled⟩ := createSchema_built selected ok
  obtain ⟨types, rfl, -⟩ := assemble_ok assembled
  exact ⟨bound, rfl⟩

end Build

section Aggregates

variable {g : Graph} {settings : Settings} {world : World} {schema : Schema} {c : Converter}
  {direction other : Direction} {t : Ty} {index : Nat}

theorem Steady.houses (h : Steady g c) {ref : TypeRef}
    (hl : (c.side direction).look? g ref = some t) : Houses g direction (c.side direction) t :=
  houses_of_looked (h.settled.sound direction) (h.settled.idle direction) (h.layered direction) hl

def OwnedBy (g : Graph) (c : Converter) (direction : Direction) (index id : Nat) : Prop :=
  Makes g direction id ∧ (c.side direction).cached? id = some (.aggregate direction index)

theorem Steady.describes (h : Steady g c) {id : Nat} (owned : OwnedBy g c direction index id) :
    ∃ node, g.types[id]? = some node ∧ (recipe direction id node).isAggregate = true ∧
      (recipe direction id node).Describes g direction (c.side direction)
        (.aggregate direction index) := by
  have hidle := h.settled.idle direction
  obtain ⟨node, found, hdesc⟩ :=
    h.settled.sound direction id _ owned.2 (hidle ▸ List.not_mem_nil)
  exact ⟨node, found, owned.1.recipe found, hdesc⟩

theorem Steady.aggregate (h : Steady g c) {id : Nat} (owned : OwnedBy g c direction index id) :
    ∃ node, g.types[id]? = some node ∧ node.kind.isAggregate = true ∧
      c.store.get? direction index = some ⟨direction, node.typeName direction id, node.docs,
        insertPairs (node.kind.slots.map (Slot.entry ((c.side direction).look? g)))⟩ ∧
      ∀ ref ∈ node.kind.slots.filterMap (·.type),
        ((c.side direction).look? g ref).isSome = true := by
  obtain ⟨node, found, aggregate, describes⟩ := h.describes owned
  refine ⟨node, found, kind_isAggregate aggregate, ?_⟩
  cases followed : recipe direction id node with
  | aggregate notices name docs slots =>
    obtain ⟨rfl, rfl, rfl⟩ := recipe_parts followed
    rw [followed] at describes
    obtain ⟨place, same, there, looked⟩ := describes
    cases same
    rw [c.holds_store direction]
    exact ⟨there, looked⟩
  | _ => simp [followed, Recipe.isAggregate] at aggregate

theorem Steady.houses_of_field (h : Steady g c) {id : Nat} (owned : OwnedBy g c direction index id)
    {a : Aggregate} (found : (c.side direction).aggregates[index]? = some a) {m : String × Member}
    (field : m ∈ a.fields) : Houses g direction (c.side direction) m.2.type := by
  obtain ⟨node, -, -, there, looked⟩ := h.aggregate owned
  rw [c.holds_store direction] at there
  cases found.symm.trans there
  exact Conversion.houses_of_field (h.settled.sound direction) (h.settled.idle direction)
    (h.layered direction) looked field

theorem Steady.owned_of_field (h : Steady g c) {id : Nat} (owned : OwnedBy g c direction index id)
    {a : Aggregate} (found : (c.side direction).aggregates[index]? = some a) {m : String × Member}
    (field : m ∈ a.fields) {place : Nat} (named : m.2.type.named = .aggregate other place) :
    other = direction ∧ ∃ id, OwnedBy g c direction place id :=
  (h.houses_of_field owned found field).owner named

theorem Steady.owned_of_param (h : Steady g c) {nullable : Bool} {params : List Param}
    {name : String} (made : IsAggregate .input (c.side .input) (.aggregate .input index) name .null
      (params.map (paramField g nullable ((c.side .input).look? g)))) {a : Aggregate}
    (found : c.input.aggregates[index]? = some a) {m : String × Member}
    (field : m ∈ a.fields) {place : Nat} (named : m.2.type.named = .aggregate other place) :
    other = .input ∧ ∃ id, OwnedBy g c .input place id := by
  obtain ⟨index', members, ht, hfields, hagg⟩ := made
  cases ht
  cases found.symm.trans hagg
  obtain ⟨p, -, -, t, looked, type⟩ := param_of_field hfields field
  rw [type, named_argumentType] at named
  exact (h.houses looked).owner named

theorem FieldBound.houses (steady : Steady g c) {exportName : String} {f : Function}
    {q : QueryField} (bound : FieldBound g settings c exportName f q) :
    Houses g .output (c.side .output) q.type := by
  have result := bound.result
  cases source : f.result with
  | none =>
    rw [source] at result
    rw [← Option.some.inj result]
    exact .scalar _
  | some ref =>
    rw [source] at result
    exact steady.houses result

theorem Bound.rooted {exports : List (String × Function)}
    (h : Bound g settings exports c schema.fields) (store : schema.store = c.store)
    (reached : schema.Reaches direction index) :
    (∃ id, OwnedBy g c direction index id) ∨ direction = .input ∧ ∃ f ∈ schema.fields,
      ∃ e ∈ exports, f.1 = fieldName e.1 ∧ e.2.params ≠ [] ∧
      f.2.argument = some (settings.inputArgumentName, .nonNull (.aggregate .input index)) ∧
      IsAggregate .input (c.side .input) (.aggregate .input index) (Name.pascal e.1 ++ "Input")
        .null (e.2.params.map (paramField g settings.nullableOptions ((c.side .input).look? g))) := by
  induction reached with
  | @root f t direction index field mentioned named =>
    obtain ⟨e, he, own, hbound⟩ := h.fields f field
    rcases List.mem_cons.mp mentioned with rfl | mentioned
    · obtain ⟨rfl, howned⟩ := (hbound.houses h.steady).owner named
      exact .inl howned
    · rcases hbound.argument with ⟨_, hnone⟩ | ⟨takes, t', hsome, hagg⟩
      · simp [hnone] at mentioned
      · simp only [hsome, Option.map_some, Option.toList_some, List.mem_singleton] at mentioned
        subst mentioned
        have hagg' := hagg
        obtain ⟨index', _, rfl, _⟩ := hagg'
        cases named
        exact .inr ⟨rfl, f, field, e, he, own, takes, hsome, hagg⟩
  | @member outer place a m direction index _ found field named ih =>
    rw [store, c.holds_store outer] at found
    rcases ih with ⟨id, howned⟩ | ⟨rfl, _, _, e, _, _, _, _, hagg⟩
    · obtain ⟨rfl, howned'⟩ := h.steady.owned_of_field howned found field named
      exact .inl howned'
    · obtain ⟨rfl, howned'⟩ := h.steady.owned_of_param hagg found field named
      exact .inl howned'

theorem Bound.origin {exports : List (String × Function)}
    (h : Bound g settings exports c schema.fields) (store : schema.store = c.store)
    (reached : schema.Reaches direction index) :
    (∃ id, OwnedBy g c direction index id) ∨ direction = .input ∧ ∃ e ∈ exports,
      IsAggregate .input (c.side .input) (.aggregate .input index) (Name.pascal e.1 ++ "Input")
        .null (e.2.params.map (paramField g settings.nullableOptions ((c.side .input).look? g))) := by
  rcases h.rooted store reached with owned | ⟨rfl, _, _, e, exported, _, _, _, made⟩
  · exact .inl owned
  · exact .inr ⟨rfl, e, exported, made⟩

end Aggregates

section Exported

variable {g : Graph} {settings : Settings} {c : Converter} {exports : List (String × Function)}
  {fields : List (String × QueryField)}

theorem FieldBound.result_looked {exportName : String} {f : Function} {q : QueryField}
    (h : FieldBound g settings c exportName f q) {ref : TypeRef} (href : f.result = some ref) :
    ((c.side .output).look? g ref).isSome = true := by
  have hresult := h.result
  rw [href] at hresult
  exact Option.isSome_iff_exists.mpr ⟨_, hresult⟩

theorem Bound.looked (h : Bound g settings exports c fields) {e : String × Function}
    (he : e ∈ exports) {ref : TypeRef} (href : ref ∈ e.2.refs) :
    ∃ direction, ((c.side direction).look? g ref).isSome = true := by
  obtain ⟨q, hbound⟩ := h.exports e he
  rcases List.mem_append.mp href with hparam | hresult
  · obtain ⟨p, hp, rfl⟩ := List.mem_map.mp hparam
    exact ⟨.input, hbound.argument.looked p hp⟩
  · exact ⟨.output, hbound.result_looked (Option.mem_toList.mp hresult)⟩

theorem Bound.resolves (h : Bound g settings exports c fields) {e : String × Function}
    (he : e ∈ exports) {ref ref' : TypeRef} (href : ref ∈ e.2.refs)
    (reached : g.Reaches ref ref') : g.Resolves ref' := by
  obtain ⟨direction, hlook⟩ := h.looked he href
  have hsound := h.steady.settled.sound direction
  have hidle := h.steady.settled.idle direction
  exact resolves_of_looked hsound hidle (looked_of_reaches hsound hidle hlook reached)

theorem Bound.not_faulty (h : Bound g settings exports c fields) {e : String × Function}
    (he : e ∈ exports) {ref : TypeRef} (href : ref ∈ e.2.refs) : ¬ g.Faulty ref := by
  obtain ⟨direction, hlook⟩ := h.looked he href
  exact not_faulty_of_looked (h.steady.settled.sound direction) (h.steady.settled.idle direction)
    (h.steady.layered direction) hlook

end Exported

/-- Whenever there is a schema, all that the exported functions reach resolves to nodes of known
kinds and all that the query type leads to has its members. If an exported function reaches a
missing node, a cycle of aliases, a cycle of lists, options and tuples, or a node of an unknown
kind, there is none. -/
theorem createSchema_complete {g : Graph} {settings : Settings} {world : World}
    (selected : g.world? ((settings.worldName.map Json.str).getD .null) = some world) :
    (∀ schema, (createSchema g settings).2 = .ok schema →
      (∀ e ∈ world.functionExports, ∀ ref ∈ e.2.refs, ∀ ref', g.Reaches ref ref' →
        g.Resolves ref') ∧
      schema.store = (converterOf g settings world).store ∧
      ∀ direction index, schema.Reaches direction index →
        HoldsMembers g settings world direction index) ∧
    ((∃ e ∈ world.functionExports, ∃ ref ∈ e.2.refs, g.Faulty ref) →
      ∃ e, (createSchema g settings).2 = .error e) := by
  refine ⟨fun schema ok => ?_, fun ⟨e, he, ref, href, faulty⟩ => ?_⟩
  · obtain ⟨hbound, hstore⟩ := createSchema_ok selected ok
    refine ⟨fun e he ref href ref' => hbound.resolves he href, hstore, fun direction index h => ?_⟩
    refine (hbound.origin hstore h).imp_left fun ⟨id, howned⟩ => ?_
    obtain ⟨node, found, hagg, hdesc⟩ := hbound.steady.describes howned
    exact ⟨id, node, found, kind_isAggregate hagg, equation_of_describes hdesc⟩
  · cases hr : (createSchema g settings).2 with
    | error e => exact ⟨e, rfl⟩
    | ok schema => exact ((createSchema_ok selected hr).1.not_faulty he href faulty).elim

def clubWorld : World :=
  ⟨.str "clubs", [("join", .function ⟨.str "join", [⟨.str "club", .node 0⟩], some (.node 0),
    .freestanding, .null, .null, .null⟩)], [], .null, .null⟩

def loopWorld : World :=
  ⟨.str "loops", [("loop", .function ⟨.str "loop", [], some (.node 2), .freestanding, .null, .null,
    .null⟩)], [], .null, .null⟩

def club : Graph :=
  { types :=
      [⟨.record [⟨.str "members", .node 1, .null⟩], .str "club", none, .null, .null⟩,
        ⟨.list (.node 0), .null, none, .null, .null⟩, ⟨.list (.node 2), .null, none, .null, .null⟩]
    worlds := [clubWorld, loopWorld]
    interfaces := []
    packages := [] }

def clubStore : Store where
  outputs :=
    [⟨.output, "Club", .null, [("members", ⟨.list .output 0 (.aggregate .output 0), .null⟩)]⟩]
  inputs :=
    [⟨.input, "ClubInput", .null, [("members", ⟨.list .input 0 (.aggregate .input 0), .null⟩)]⟩,
      ⟨.input, "JoinInput", .null, [("club", ⟨.nonNull (.aggregate .input 0), .null⟩)]⟩]

def clubFields : List (String × QueryField) :=
  [("join", ⟨.aggregate .output 0, some ("input", .nonNull (.aggregate .input 1)), .null,
    ⟨.str "join", "join", ["club"], "input"⟩⟩)]

def clubSchema : Schema := ⟨"Query", clubFields, clubStore, [(.output, 0), (.input, 1), (.input, 0)]⟩

theorem club_bound :
    (bindExports club .default clubWorld .empty [] [] clubWorld.exports).result = .ok clubFields ∧
      (bindExports club .default clubWorld .empty [] [] clubWorld.exports).converter.store =
        clubStore := by
  simp only [bindExports, WorldItem.function?, List.isEmpty_cons, Bool.false_eq_true, if_false, bind,
    bindArgument, bindParams, bindResult, Converter.convert, convert_eq_evaluated, clubWorld]
  exact ⟨rfl, rfl⟩

theorem createSchema_club : (createSchema club .default).2 = .ok clubSchema := by
  have hworld : club.world? ((Settings.default.worldName.map Json.str).getD .null) =
      some clubWorld := rfl
  have hids : clubStore.ids = [(.output, 0), (.input, 0), (.input, 1)] := rfl
  have hmentions : clubFields.flatMap (·.2.mentions) =
      [.aggregate .output 0, .nonNull (.aggregate .input 1)] := rfl
  have hmembers : checkName "members" = .ok () := rfl
  have hclub : checkName "club" = .ok () := rfl
  have hcollect : collect clubStore clubStore.ids (clubFields.flatMap (·.2.mentions)) =
      .ok [(.output, 0), (.input, 1), (.input, 0)] := by
    rw [hids, hmentions]
    simp [collect, clubStore, Ty.named, Store.get?, Aggregate.legalFields, legalName, hmembers, hclub,
      Except.mapError, Except.map]
  unfold createSchema
  simp only [hworld, club_bound, Schema.assemble, hcollect]
  rfl

theorem club_complete :
    (createSchema club .default).2 = .ok clubSchema ∧ clubSchema.Reaches .input 0 ∧
      HoldsMembers club .default clubWorld .input 0 ∧
      club.Faulty (.node 2) ∧
      ∃ e, (createSchema club { Settings.default with worldName := some "loops" }).2 = .error e := by
  have hreaches : clubSchema.Reaches .input 0 :=
    .member (.root (t := .nonNull (.aggregate .input 1)) (List.mem_singleton_self _)
      (List.mem_cons_of_mem _ (List.mem_singleton_self _)) rfl) rfl (List.mem_singleton_self _) rfl
  have hdenoted : club.resolveAlias (.node 2) = .ok (some 2) := by cbv
  have hcycle : club.WrapperCycle 2 [] :=
    ⟨.cons_cons ⟨.node 2, List.mem_singleton_self _, hdenoted⟩ (.singleton _),
      fun a ha => List.mem_singleton.mp ha ▸ ⟨_, rfl, rfl⟩⟩
  have hfaulty : club.Faulty (.node 2) := .wrapperCycle .refl hdenoted hcycle
  have hselected : club.world? ((Settings.default.worldName.map Json.str).getD .null) =
      some clubWorld := rfl
  have hloop : club.world? ((({ Settings.default with worldName := some "loops" } :
      Settings).worldName.map Json.str).getD .null) = some loopWorld := rfl
  obtain ⟨hcomplete, _⟩ := createSchema_complete hselected
  obtain ⟨_, hnone⟩ := createSchema_complete hloop
  exact ⟨createSchema_club, hreaches, (hcomplete _ createSchema_club).2.2 _ _ hreaches, hfaulty,
    hnone ⟨_, List.mem_singleton_self _, _, List.mem_singleton_self _, hfaulty⟩⟩

end Binding

end WitSchema
