import WitSchema.Proofs.Binding.Complete
import WitSchema.Proofs.Conversion.Naming
import WitSchema.Proofs.GraphQL.Assembly

/-! What the types of a schema are made from. Each aggregate that the query type
leads to is made from a node, in one direction, or from the parameters of an
export, and no two are made from the same. -/

namespace WitSchema

open GraphQL

namespace GraphQL

theorem Schema.reaches_closed (s : Schema) : s.store.Closed s.Reaches :=
  fun _ _ _ reached found _ field _ _ named => .member reached found field named

theorem Schema.reaches_mentions (s : Schema) :
    ∀ f ∈ s.fields, ∀ t ∈ f.2.mentions, t.Within s.Reaches :=
  fun _ field _ mentioned _ _ named => .root field mentioned named

end GraphQL

namespace Wit

def Function.refsTo (f : Function) : Direction → List TypeRef
  | .input => f.params.map (·.type)
  | .output => f.result.toList

/-- The exports of the world lead to the node, from their parameters or from their results. -/
def World.Uses (w : World) (g : Graph) (direction : Direction) (id : Nat) : Prop :=
  ∃ e ∈ w.functionExports, ∃ ref ∈ e.2.refsTo direction, ∃ start,
    g.resolveAlias ref = .ok (some start) ∧ Relation.ReflTransGen g.Edge start id

theorem World.Uses.member {w : World} {g : Graph} {direction : Direction} {a b : Nat}
    (h : w.Uses g direction a) (edge : g.Edge a b) : w.Uses g direction b := by
  obtain ⟨e, exported, ref, there, start, denoted, path⟩ := h
  exact ⟨e, exported, ref, there, start, denoted, path.tail edge⟩

inductive Source
  | node (direction : Direction) (id : Nat)
  | params (exportName : String)

namespace Source

def typeName (g : Graph) : Source → String
  | node direction id => (g.types[id]?.map (·.typeName direction id)).getD ""
  | params exportName => Name.pascal exportName ++ "Input"

def text? (g : Graph) : Source → Option String
  | node direction id => g.types[id]?.bind (·.text? direction)
  | params exportName => some (exportName ++ "-input")

def IsUsed (w : World) (g : Graph) : Source → Prop
  | node direction id => w.Uses g direction id ∧
      ∃ node, g.types[id]? = some node ∧ node.kind.isAggregate = true
  | params exportName => ∃ f, (exportName, f) ∈ w.functionExports ∧ f.params ≠ []

section Names

variable {w : World} {g : Graph} {a b : Source}

theorem typeName_cases (kebab : g.IsKebab) (world : w ∈ g.worlds) (used : a.IsUsed w g) :
    (∃ text, a.text? g = some text ∧ Name.Kebab text ∧ a.typeName g = Name.pascal text) ∨
    ∃ direction id, a = .node direction id ∧ ∃ sort ∈ Conversion.sorts,
      a.typeName g = Conversion.numbered direction sort id := by
  cases a with
  | params exportName =>
    obtain ⟨f, exported, -⟩ := used
    have word := kebab.exports w world _ exported
    exact .inl ⟨_, rfl, word.append_input, word.pascal_append_input.symm⟩
  | node direction id =>
    obtain ⟨-, node, found, aggregate⟩ := used
    rw [typeName, text?, found]
    rcases Conversion.typeName_cases direction id (kebab.node found) aggregate with spelled | numbered
    · exact .inl spelled
    · exact .inr ⟨direction, id, rfl, numbered⟩

/-- Two types have one name only if they spell one hyphenated name. -/
theorem text_of_typeName (kebab : g.IsKebab) (world : w ∈ g.worlds) (used : a.IsUsed w g)
    (used' : b.IsUsed w g) (different : a ≠ b) (same : a.typeName g = b.typeName g) :
    ∃ text, a.text? g = some text ∧ b.text? g = some text ∧ a.typeName g = Name.pascal text := by
  rcases typeName_cases kebab world used with
    ⟨text, spelled, word, own⟩ | ⟨direction, id, rfl, sort, member, own⟩
  · rcases typeName_cases kebab world used' with
      ⟨text', spelled', word', own'⟩ | ⟨direction', id', rfl, sort', member', own'⟩
    · have equal : text = text' := word.pascal_injective word' (own.symm.trans (same.trans own'))
      exact ⟨text, spelled, equal ▸ spelled', own⟩
    · exact absurd (own.symm.trans (same.trans own')) (Conversion.pascal_ne_numbered word)
  · rcases typeName_cases kebab world used' with
      ⟨text', spelled', word', own'⟩ | ⟨direction', id', rfl, sort', member', own'⟩
    · exact absurd (own'.symm.trans (same.symm.trans own)) (Conversion.pascal_ne_numbered word')
    · obtain ⟨rfl, -, rfl⟩ :=
        Conversion.numbered_injective member member' (own.symm.trans (same.trans own'))
      exact absurd rfl different

end Names

end Source

end Wit

namespace Binding

open Conversion Wit

/-- The aggregate is the one of the node, or the type of the argument of the field of the export. -/
inductive Stands (g : Graph) (settings : Settings) (w : World) (c : Converter)
    (fields : List (String × QueryField)) : Source → Direction → Nat → Prop
  | node {direction id index} (owned : OwnedBy g c direction index id) :
      Stands g settings w c fields (.node direction id) direction index
  | params {f e index} (field : f ∈ fields) (exported : e ∈ w.functionExports)
      (own : f.1 = fieldName e.1) (takes : e.2.params ≠ [])
      (argument : f.2.argument = some (settings.inputArgumentName, .nonNull (.aggregate .input index)))
      (made : IsAggregate .input (c.side .input) (.aggregate .input index)
        (Name.pascal e.1 ++ "Input") .null
        (e.2.params.map (paramField g settings.nullableOptions ((c.side .input).look? g)))) :
      Stands g settings w c fields (.params e.1) .input index

def Confined (g : Graph) (w : World) (c : Converter) : Prop :=
  ∀ direction id, ((c.side direction).cached? id).isSome = true → w.Uses g direction id

theorem mem_of_world? {g : Graph} {w : World} {name : Json} (selected : g.world? name = some w) : w ∈ g.worlds := by
  rw [Graph.world?] at selected
  split at selected
  · exact List.mem_of_mem_head? selected
  · exact List.mem_of_find?_eq_some selected

theorem bindExports_keys {g : Graph} {settings : Settings} {w : World} {c : Converter}
    {notices : List Notice} {fields fields' : List (String × QueryField)}
    {exports : List (String × WorldItem)} (keys : (fields.map (·.1)).Nodup)
    (ok : (bindExports g settings w c notices fields exports).result = .ok fields') :
    (fields'.map (·.1)).Nodup := by
  induction exports generalizing c notices fields with
  | nil =>
    cases ok
    exact keys
  | cons entry rest ih =>
    obtain ⟨name, item⟩ := entry
    rw [bindExports] at ok
    cases function : item.function? with
    | none =>
      simp only [function] at ok
      exact ih keys ok
    | some f =>
      simp only [function] at ok
      cases bound : (bind g settings c name f).result with
      | error e => simp [bound] at ok
      | ok field =>
        simp only [bound] at ok
        exact ih (keys_insertPair keys) ok

section Stands

variable {g : Graph} {settings : Settings} {w : World} {c : Converter}
  {fields : List (String × QueryField)} {source : Source} {direction : Direction} {index : Nat}

theorem Bound.stands {schema : Schema} (h : Bound g settings w.functionExports c schema.fields)
    (store : schema.store = c.store) (reached : schema.Reaches direction index) :
    ∃ source, Stands g settings w c schema.fields source direction index := by
  rcases h.rooted store reached with ⟨id, owned⟩ | ⟨rfl, f, field, e, exported, own, takes, argument, made⟩
  · exact ⟨_, .node owned⟩
  · exact ⟨_, .params field exported own takes argument made⟩

theorem Stands.used (h : Stands g settings w c fields source direction index) (steady : Steady g c)
    (confined : Confined g w c) : source.IsUsed w g := by
  cases h with
  | @node direction id index owned =>
    obtain ⟨node, found, aggregate, -⟩ := steady.describes owned
    refine ⟨confined direction id ?_, node, found, kind_isAggregate aggregate⟩
    rw [owned.2]
    rfl
  | @params f e index field exported own takes argument made => exact ⟨e.2, exported, takes⟩

theorem Stands.unique {other : Direction} {place : Nat} (keys : (fields.map (·.1)).Nodup)
    (h : Stands g settings w c fields source direction index)
    (h' : Stands g settings w c fields source other place) : (direction, index) = (other, place) := by
  cases h with
  | node owned =>
    cases h' with
    | node owned' =>
      have same := owned.2.symm.trans owned'.2
      cases same
      rfl
  | @params f e index field exported own takes argument made =>
    generalize name : Source.params e.1 = source at h'
    cases h' with
    | node => cases name
    | @params f' e' place field' exported' own' takes' argument' made' =>
      have named : e.1 = e'.1 := Source.params.inj name
      obtain rfl : f = f' := by
        apply List.inj_on_of_nodup_map keys field field'
        rw [own, own', named]
      cases argument.symm.trans argument'
      rfl

theorem Stands.aggregate (h : Stands g settings w c fields source direction index)
    (steady : Steady g c) :
    ∃ a, c.store.get? direction index = some a ∧ a.name = source.typeName g := by
  cases h with
  | node owned =>
    obtain ⟨node, found, -, there, -⟩ := steady.aggregate owned
    refine ⟨_, there, ?_⟩
    rw [Source.typeName, found]
    rfl
  | params field exported own takes argument made =>
    obtain ⟨place, members, same, -, there⟩ := made
    cases same
    exact ⟨_, there, rfl⟩

theorem Stands.nameOf (h : Stands g settings w c fields source direction index)
    (steady : Steady g c) : c.store.nameOf direction index = source.typeName g := by
  obtain ⟨a, found, named⟩ := h.aggregate steady
  rw [Store.nameOf, found, ← named]
  rfl

theorem Stands.names_free (h : Stands g settings w c fields source direction index)
    (steady : Steady g c) (kebab : g.IsKebab) (world : w ∈ g.worlds) {a : Aggregate}
    (found : c.store.get? direction index = some a) : ∀ m ∈ a.fields, IsFreeName m.1 := by
  intro m field
  cases h with
  | node owned =>
    obtain ⟨node, there, -, own, -⟩ := steady.aggregate owned
    cases found.symm.trans own
    obtain ⟨slot, member, rfl⟩ := List.mem_map.mp (mem_of_mem_insertPairs field)
    exact slots_free (kebab.node there) slot member
  | params field' exported own takes argument made =>
    obtain ⟨place, members, same, typed, there⟩ := made
    cases same
    cases found.symm.trans there
    obtain ⟨p, member, named, -⟩ := param_of_field typed field
    rw [named]
    exact (kebab.params w world _ exported p member).camel_free

end Stands

end Binding

end WitSchema
