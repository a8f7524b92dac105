import WitSchema.GraphQL.Input
import WitSchema.Proofs.Binding.Source

/-! A schema that is built can be executed. Its types are the aggregates that
the query type leads to; their names are legal, they have fields, and what
stands where something is given or taken can stand there. Only the type of an
argument asks for members that have to be there, and no member refers to such
a type, so every input type has a value that ends. -/

namespace WitSchema

open Wit

namespace GraphQL

def IsTypeName (name : String) : Prop := IsFreeName name ∧ name ∉ reservedNames

inductive Ty.IsOf (s : Schema) (direction : Direction) : Ty → Prop
  | scalar (x) : IsOf s direction (.scalar x)
  | list {serial item} (inner : IsOf s direction item) :
      IsOf s direction (.list direction serial item)
  | aggregate {index} (there : (direction, index) ∈ s.types) :
      IsOf s direction (.aggregate direction index)
  | nonNull {t} (inner : IsOf s direction t) (nullable : t.isNonNull = false) :
      IsOf s direction (.nonNull t)

structure Aggregate.Valid (s : Schema) (direction : Direction) (a : Aggregate) : Prop where
  side : a.direction = direction
  name : IsTypeName a.name
  nonempty : a.fields ≠ []
  distinct : (a.fields.map (·.1)).Nodup
  names : ∀ m ∈ a.fields, IsFreeName m.1
  types : ∀ m ∈ a.fields, m.2.type.IsOf s direction

/-- Each value of the first input type holds one of the second. -/
def Schema.Requires (s : Schema) (i j : Nat) : Prop :=
  ∃ a, s.store.get? .input i = some a ∧ ∃ m ∈ a.fields, m.2.type = .nonNull (.aggregate .input j)

/-- What is checked of a schema before a query is executed. -/
structure Schema.Valid (s : Schema) : Prop where
  queryType : IsTypeName s.queryType
  nonempty : s.fields ≠ []
  names : ∀ f ∈ s.fields, IsFreeName f.1
  results : ∀ f ∈ s.fields, f.2.type.IsOf s .output
  arguments : ∀ f ∈ s.fields, ∀ a ∈ f.2.argument, IsFreeName a.1 ∧ a.2.IsOf s .input
  types : ∀ t ∈ s.types, ∃ a, s.store.get? t.1 t.2 = some a ∧ a.Valid s t.1
  distinct : (s.queryType :: s.types.map fun t => s.store.nameOf t.1 t.2).Nodup
  finite : ∀ index, (Direction.input, index) ∈ s.types → ¬ Relation.TransGen s.Requires index index

theorem Schema.Valid.isExecutable {s : Schema} (h : s.Valid) : s.isExecutable = true := by
  have fields : s.fields.all (fun f => !isIntrospective f.1 &&
      f.2.argument.all fun a => !isIntrospective a.1) = true := by
    rw [List.all_eq_true]
    intro f field
    rw [Bool.and_eq_true, (h.names f field).2]
    refine ⟨rfl, ?_⟩
    cases argument : f.2.argument with
    | none => rfl
    | some a => rw [Option.all_some, (h.arguments f field a argument).1.2, Bool.not_false]
  have types : s.aggregates.all (fun a => !isIntrospective a.name && !a.fields.isEmpty &&
      a.fields.all fun f => !isIntrospective f.1) = true := by
    rw [List.all_eq_true]
    intro a member
    obtain ⟨t, there, found⟩ := List.mem_filterMap.mp member
    obtain ⟨a', found', valid⟩ := h.types t there
    cases found.symm.trans found'
    have names : a.fields.all (fun f => !isIntrospective f.1) = true :=
      List.all_eq_true.mpr fun m field => by rw [(valid.names m field).2, Bool.not_false]
    rw [valid.name.1.2, names, List.isEmpty_eq_false_iff.mpr valid.nonempty]
    rfl
  rw [Schema.isExecutable, h.queryType.1.2, List.isEmpty_eq_false_iff.mpr h.nonempty, fields, types]
  rfl

end GraphQL

def Wit.Graph.HasFields (g : Graph) : Prop :=
  ∀ node ∈ g.types, ∀ fields, node.kind = .record fields → fields ≠ []

theorem Wit.Graph.HasFields.slots {g : Graph} (h : g.HasFields) {id : Nat} {node : TypeDef}
    (found : g.types[id]? = some node) (aggregate : node.kind.isAggregate = true) :
    node.kind.slots ≠ [] := by
  cases kind : node.kind with
  | record fields =>
    rw [Kind.slots, ne_eq, List.map_eq_nil_iff]
    exact h node (List.mem_of_getElem? found) fields kind
  | variant cases => exact List.cons_ne_nil _ _
  | result ok err => exact List.cons_ne_nil _ _
  | _ => simp [kind, Kind.isAggregate] at aggregate

namespace Binding

open Conversion GraphQL

structure Built (g : Graph) (settings : Settings) (w : World) (c : Converter) (schema : Schema) :
    Prop where
  bound : Bound g settings w.functionExports c schema.fields
  store : schema.store = c.store
  collected : collect schema.store schema.store.ids (schema.fields.flatMap (·.2.mentions)) =
    .ok schema.types

section Built

variable {g : Graph} {settings : Settings} {w : World} {c : Converter} {schema : Schema}
  {direction : Direction} {index : Nat} {t : Ty} {source : Source}

def Met (schema : Schema) (t : Ty) : Prop :=
  t.Within fun direction index => (schema.store.get? direction index).isSome = true →
    (direction, index) ∈ schema.types

theorem met_of_covered (h : t.Within (Covers schema.store schema.store.ids schema.types)) :
    Met schema t := by
  intro direction index named there
  exact h direction index named (Store.mem_ids.mpr there) there

theorem Built.met_mentions (b : Built g settings w c schema) :
    ∀ f ∈ schema.fields, ∀ t ∈ f.2.mentions, Met schema t := by
  intro f field t mentioned
  apply met_of_covered
  apply (collects_of_ok b.collected).covers.1
  exact List.mem_flatMap.mpr ⟨f, field, mentioned⟩

theorem Built.met_fields (b : Built g settings w c schema) :
    ∀ t ∈ schema.types, ∀ a, schema.store.get? t.1 t.2 = some a → ∀ m ∈ a.fields,
      Met schema m.2.type := by
  intro t member a found m field
  exact met_of_covered ((collects_of_ok b.collected).covers.2 t member a found m field)

theorem Built.found (b : Built g settings w c schema) (reached : schema.Reaches direction index) :
    (schema.store.get? direction index).isSome = true := by
  obtain ⟨source, stood⟩ := b.bound.stands b.store reached
  obtain ⟨a, found, -⟩ := stood.aggregate b.bound.steady
  rw [b.store, found]
  rfl

theorem Built.mem_types_iff (b : Built g settings w c schema) :
    (direction, index) ∈ schema.types ↔ schema.Reaches direction index := by
  have mentioned : ∀ t ∈ schema.fields.flatMap (·.2.mentions), t.Within schema.Reaches := by
    intro t member
    obtain ⟨f, field, member⟩ := List.mem_flatMap.mp member
    exact schema.reaches_mentions f field t member
  constructor
  · exact (collects_of_ok b.collected).within schema.reaches_closed mentioned _
  · intro reached
    have there := b.found reached
    induction reached with
    | root field mentioned named => exact b.met_mentions _ field _ mentioned _ _ named there
    | member outer own field named ih =>
      exact b.met_fields _ (ih (b.found outer)) _ own _ field _ _ named there

theorem Built.stands (b : Built g settings w c schema) (there : (direction, index) ∈ schema.types) :
    ∃ source, Stands g settings w c schema.fields source direction index :=
  b.bound.stands b.store (b.mem_types_iff.mp there)

theorem Built.isOf (b : Built g settings w c schema)
    (houses : Houses g direction (c.side direction) t) (met : Met schema t) :
    t.IsOf schema direction := by
  induction houses with
  | scalar x => exact .scalar x
  | list _ ih => exact .list (ih met)
  | aggregate made cached =>
    obtain ⟨node, -, -, there, -⟩ := b.bound.steady.aggregate ⟨made, cached⟩
    refine .aggregate (met _ _ rfl ?_)
    rw [b.store, there]
    rfl

theorem nullable_of_houses (houses : Houses g direction (c.side direction) t) :
    t.isNonNull = false := by
  cases houses with
  | scalar _ => rfl
  | list _ => rfl
  | aggregate _ _ => rfl

theorem Built.isOf_argumentType (b : Built g settings w c schema) {nullable : Bool} {p : Param}
    (looked : (c.side .input).look? g p.type = some t)
    (met : Met schema (argumentType g nullable p t)) :
    (argumentType g nullable p t).IsOf schema .input := by
  have houses := b.bound.steady.houses looked
  rw [argumentType] at met ⊢
  split at met
  · rename_i option
    rw [if_pos option]
    exact b.isOf houses met
  · rename_i required
    rw [if_neg required]
    exact .nonNull (b.isOf houses met) (nullable_of_houses houses)

theorem Stands.isTypeName (h : Stands g settings w c schema.fields source direction index)
    (steady : Steady g c) (kebab : g.IsKebab) (world : w ∈ g.worlds) {a : Aggregate}
    (found : c.store.get? direction index = some a) : IsTypeName a.name := by
  cases h with
  | node owned =>
    obtain ⟨node, there, aggregate, own, -⟩ := steady.aggregate owned
    cases found.symm.trans own
    refine ⟨typeName_free direction _ (kebab.node there) aggregate, ?_⟩
    obtain ⟨node', there', made, -⟩ := steady.describes owned
    cases there.symm.trans there'
    exact typeName_unreserved (kebab.node there) made
  | @params _ e _ _ exported _ _ _ made =>
    obtain ⟨place, members, same, -, own⟩ := made
    cases same
    cases found.symm.trans own
    have word := kebab.exports w world e exported
    have free := word.append_input.pascal_free
    rw [word.pascal_append_input] at free
    exact ⟨free, (checkTypeName_ok_iff.mp (checkTypeName_input word)).1⟩

theorem Stands.valid (h : Stands g settings w c schema.fields source direction index)
    (b : Built g settings w c schema) (kebab : g.IsKebab) (world : w ∈ g.worlds)
    (records : g.HasFields) (there : (direction, index) ∈ schema.types) :
    ∃ a, schema.store.get? direction index = some a ∧ a.Valid schema direction := by
  have steady := b.bound.steady
  obtain ⟨a, found, -⟩ := h.aggregate steady
  have name := h.isTypeName steady kebab world found
  have names := h.names_free steady kebab world found
  have met := b.met_fields _ there a (b.store ▸ found)
  refine ⟨a, b.store ▸ found, ?_⟩
  cases h with
  | node owned =>
    obtain ⟨node, known, aggregate, own, -⟩ := steady.aggregate owned
    cases found.symm.trans own
    refine ⟨rfl, name, insertPairs_ne_nil ?_, keys_insertPairs _, names, ?_⟩
    · rw [ne_eq, List.map_eq_nil_iff]
      exact records.slots known aggregate
    · intro m field
      rw [c.holds_store direction] at own
      exact b.isOf (steady.houses_of_field owned own field) (met m field)
  | params field exported own takes argument made =>
    obtain ⟨place, members, same, typed, own⟩ := made
    cases same
    cases found.symm.trans own
    refine ⟨rfl, name, insertPairs_ne_nil ?_, keys_insertPairs _, names, ?_⟩
    · rintro rfl
      exact takes (List.map_eq_nil_iff.mp typed)
    · intro m field
      obtain ⟨p, -, -, t, looked, type⟩ := param_of_field typed field
      have own := met m field
      rw [type] at own ⊢
      exact b.isOf_argumentType looked own

/-! ### Values that end -/

theorem Built.required (b : Built g settings w c schema) (there : (.input, index) ∈ schema.types)
    {place : Nat} (requires : schema.Requires index place) :
    ∃ id, OwnedBy g c .input place id := by
  obtain ⟨a, found, m, field, type⟩ := requires
  have named : m.2.type.named = .aggregate .input place := by rw [type]; rfl
  rw [b.store, c.holds_store .input] at found
  obtain ⟨source, stood⟩ := b.stands there
  cases stood with
  | node owned => exact (b.bound.steady.owned_of_field owned found field named).2
  | params _ _ _ _ _ made => exact (b.bound.steady.owned_of_param made found field named).2

theorem Built.not_requires (b : Built g settings w c schema) {id : Nat}
    (owned : OwnedBy g c .input index id) (place : Nat) : ¬ schema.Requires index place := by
  rintro ⟨a, found, m, field, type⟩
  rw [b.store, c.holds_store .input] at found
  have nullable := nullable_of_houses (b.bound.steady.houses_of_field owned found field)
  rw [type] at nullable
  cases nullable

theorem Built.finite (b : Built g settings w c schema) (there : (.input, index) ∈ schema.types) :
    ¬ Relation.TransGen schema.Requires index index := by
  intro cycle
  obtain ⟨place, requires, path⟩ := Relation.TransGen.head'_iff.mp cycle
  obtain ⟨id, owned⟩ := b.required there requires
  rcases path.cases_head with rfl | ⟨next, requires', -⟩
  · exact b.not_requires owned place requires
  · exact b.not_requires owned next requires'

theorem Built.arguments (b : Built g settings w c schema)
    (free : IsFreeName settings.inputArgumentName) :
    ∀ f ∈ schema.fields, ∀ a ∈ f.2.argument, IsFreeName a.1 ∧ a.2.IsOf schema .input := by
  intro f field a given
  obtain ⟨e, -, -, own⟩ := b.bound.fields f field
  rcases own.argument with ⟨-, none⟩ | ⟨-, t, some, index, members, rfl, -, there⟩
  · rw [none] at given
    cases given
  · have mentioned : .nonNull (.aggregate .input index) ∈ f.2.mentions := by
      simp [QueryField.mentions, some]
    rw [some] at given
    cases given
    refine ⟨free, .nonNull (.aggregate ?_) rfl⟩
    apply b.met_mentions f field _ mentioned _ _ rfl
    rw [b.store, c.holds_store .input, there]
    rfl

end Built

/-- If all names in the graph are hyphenated, every record has a field, and the settings name the
query type and the argument freely, then every schema that is built is valid, so that none of its
queries is rejected on its account. -/
theorem createSchema_valid {g : Graph} {settings : Settings} {schema : Schema} (kebab : g.IsKebab)
    (records : g.HasFields) (query : IsFreeName settings.queryTypeName)
    (argument : IsFreeName settings.inputArgumentName)
    (ok : (createSchema g settings).2 = .ok schema) :
    (∀ direction index, (direction, index) ∈ schema.types ↔ schema.Reaches direction index) ∧
      schema.Valid ∧ schema.isExecutable = true := by
  cases selected : g.world? ((settings.worldName.map Json.str).getD .null) with
  | none => simp [createSchema, selected] at ok
  | some w =>
    have world := mem_of_world? selected
    obtain ⟨fields, bound, nonempty, checked, assembled⟩ := createSchema_built selected ok
    obtain ⟨types, rfl, collected, distinct⟩ := assemble_ok assembled
    have b : Built g settings w (converterOf g settings w)
        ⟨settings.queryTypeName, fields, (converterOf g settings w).store, types⟩ :=
      ⟨bound, rfl, collected⟩
    have valid : Schema.Valid ⟨settings.queryTypeName, fields, (converterOf g settings w).store, types⟩ :=
      { queryType := ⟨query, (checkTypeName_ok_iff.mp checked).1⟩
        nonempty := nonempty
        names := fun f field => by
          obtain ⟨e, exported, own, -⟩ := bound.fields f field
          rw [own]
          exact (kebab.exports w world e exported).camel_free
        results := fun f field => by
          obtain ⟨e, -, -, own⟩ := bound.fields f field
          exact b.isOf (own.houses bound.steady) (b.met_mentions f field _ List.mem_cons_self)
        arguments := b.arguments argument
        types := fun t there => by
          obtain ⟨source, stood⟩ := b.stands there
          exact stood.valid b kebab world records there
        distinct := distinct
        finite := fun index there => b.finite there }
    exact ⟨fun direction index => b.mem_types_iff, valid, valid.isExecutable⟩

theorem club_kebab : club.IsKebab := by
  have word (text : String) (h : Name.isWord text.toList = true) : (Json.str text).IsKebab :=
    ⟨text, rfl, Name.kebab_of_isWord h⟩
  have exports : ∀ w ∈ club.worlds, ∀ e ∈ w.functionExports, Name.Kebab e.1 ∧
      ∀ p ∈ e.2.params, p.name.IsKebab := by
    intro w world e exported
    simp only [club, List.mem_cons, List.not_mem_nil, or_false] at world
    rcases world with rfl | rfl
    · cases List.mem_singleton.mp exported
      refine ⟨Name.kebab_of_isWord (by decide), ?_⟩
      exact List.forall_mem_singleton.mpr (word "club" (by decide))
    · cases List.mem_singleton.mp exported
      exact ⟨Name.kebab_of_isWord (by decide), fun p member => absurd member List.not_mem_nil⟩
  refine ⟨?_, fun w world e exported => (exports w world e exported).1,
    fun w world e exported => (exports w world e exported).2⟩
  intro node member
  simp only [club, List.mem_cons, List.not_mem_nil, or_false] at member
  rcases member with rfl | rfl | rfl
  · apply TypeDef.isKebab_of_record rfl (word "club" (by decide))
    exact List.forall_mem_singleton.mpr (word "members" (by decide))
  · exact ⟨.inl rfl, nofun, nofun⟩
  · exact ⟨.inl rfl, nofun, nofun⟩

theorem club_hasFields : club.HasFields := by
  intro node member fields kind
  simp only [club, List.mem_cons, List.not_mem_nil, or_false] at member
  rcases member with rfl | rfl | rfl
  · cases kind
    exact List.cons_ne_nil _ _
  · cases kind
  · cases kind

theorem club_valid :
    club.IsKebab ∧ club.HasFields ∧ IsFreeName "Query" ∧ IsFreeName "input" ∧
      (createSchema club .default).2 = .ok clubSchema ∧ clubSchema.Valid ∧
      clubSchema.isExecutable = true := by
  have query : IsFreeName Settings.default.queryTypeName := ⟨rfl, rfl⟩
  have argument : IsFreeName Settings.default.inputArgumentName := ⟨rfl, rfl⟩
  obtain ⟨-, valid, executable⟩ :=
    createSchema_valid club_kebab club_hasFields query argument createSchema_club
  exact ⟨club_kebab, club_hasFields, query, argument, createSchema_club, valid, executable⟩

end Binding

end WitSchema
