import WitSchema.Proofs.Conversion.Frame
import WitSchema.Proofs.Conversion.History
import WitSchema.Proofs.Conversion.Layers
import WitSchema.Proofs.Conversion.Numbering
import WitSchema.Proofs.Conversion.Reduction

/-! When two conversions give the same type. A reference has the type of what it
reduces to. A node that becomes a list or an aggregate has one type in each
direction, and no other such node has that type, whatever has failed before. -/

namespace WitSchema

open GraphQL

namespace GraphQL

inductive Ty.Same : Ty → Ty → Prop
  | scalar (x : Scalar) : Same (.scalar x) (.scalar x)
  | list (direction : Direction) (serial : Nat) (item item' : Ty) :
      Same (.list direction serial item) (.list direction serial item')
  | aggregate (direction : Direction) (index : Nat) :
      Same (.aggregate direction index) (.aggregate direction index)

inductive Ty.Contains (s : Store) : Ty → Ty → Prop
  | self (t : Ty) : Contains s t t
  | item {direction serial item u} (rest : Contains s item u) :
      Contains s (.list direction serial item) u
  | nonNull {inner u} (rest : Contains s inner u) : Contains s (.nonNull inner) u
  | field {direction index a m u} (found : s.get? direction index = some a) (field : m ∈ a.fields)
      (rest : Contains s m.2.type u) : Contains s (.aggregate direction index) u

end GraphQL

namespace Conversion

open Wit Wit.Graph

def Side.typeOf? (s : Side) : Core → Option Ty
  | .scalar x => some (.scalar x)
  | .node id => s.cached? id

namespace Converter

section Leftovers

variable {g : Graph} {direction : Direction} {calls : List (Direction × TypeRef)} {s : Side}
  {stalled : List Nat} {id : Nat} {node : TypeDef} {t : Ty}

theorem Leftovers.entry (h : Leftovers g calls direction s stalled)
    (cached : s.cached? id = some t) :
    ∃ node, g.types[id]? = some node ∧ ((recipe direction id node).Describes g direction s t ∨
      Makes g direction id ∧ ∃ index, t = .aggregate direction index) := by
  by_cases stall : id ∈ stalled
  · obtain ⟨t', before, slot, after, moment, e, cached', leftover, -⟩ := h.stopped id stall
    cases cached.symm.trans cached'
    obtain ⟨node, notices, name, docs, found, recipe, index, same, -⟩ := leftover
    exact ⟨node, found, .inr ⟨⟨node, found, by rw [recipe]; rfl⟩, index, same⟩⟩
  · have idle : id ∉ (s.stall stalled).building := by simpa [Side.stall, h.idle] using stall
    obtain ⟨node, found, describes⟩ := h.sound id t cached idle
    exact ⟨node, found, .inl (describes.mono List.prefix_rfl List.prefix_rfl)⟩

theorem Leftovers.aggregate (h : Leftovers g calls direction s stalled)
    (found : g.types[id]? = some node) (kind : node.kind.isAggregate = true)
    (cached : s.cached? id = some t) :
    Makes g direction id ∧ ∃ index, t = .aggregate direction index := by
  obtain ⟨node', found', describes | stopped⟩ := h.entry cached
  · cases found.symm.trans found'
    rcases recipe_of_isAggregate direction id kind with ⟨_, _, recipe, _⟩ | ⟨_, _, _, recipe, _⟩
    · rw [recipe] at describes
      exact describes.elim
    · rw [recipe] at describes
      obtain ⟨index, same, -⟩ := describes
      exact ⟨⟨node, found, by rw [recipe]; rfl⟩, index, same⟩
  · exact stopped

theorem reduces_of_look {ref : TypeRef} (looked : s.look? g ref = some t)
    (below : ∀ id, g.resolveAlias ref = .ok (some id) → s.cached? id = some t →
      ∃ core, g.Reduces (.node id) core ∧ s.typeOf? core = some t) :
    ∃ core, g.Reduces ref core ∧ s.typeOf? core = some t := by
  cases ref with
  | primitive p => exact ⟨.scalar _, .primitive p, looked⟩
  | node index =>
    cases hd : g.denoted index with
    | error e => simp [Side.look?, hd] at looked
    | ok id =>
      simp only [Side.look?, hd] at looked
      obtain ⟨core, reduces, typed⟩ := below id (resolveAlias_eq_some.mpr ⟨index, rfl, hd⟩) looked
      exact ⟨core, reduces_of_denoted hd reduces, typed⟩

theorem Leftovers.reduces_of_cached (h : Leftovers g calls direction s stalled)
    (layered : Layered g direction s) (cached : s.cached? id = some t) :
    ∃ core, g.Reduces (.node id) core ∧ s.typeOf? core = some t := by
  -- on the place in the cache: what an alias or an option leads to comes before it
  induction hn : s.place id using Nat.strongRecOn generalizing id t with
  | _ n ih =>
    obtain ⟨node, found, entry⟩ := h.entry cached
    have here : g.node? (id : Int) = some node := (node?_natCast g id).trans found
    cases aggregate : node.kind.isAggregate with
    | true => exact ⟨.node id, .core here (Kind.core?_of_hasType _ (.inr aggregate)), cached⟩
    | false =>
      have apart : ¬ Makes g direction id := fun makes => by
        rw [kind_isAggregate (makes.recipe found)] at aggregate
        cases aggregate
      have describes := entry.resolve_right fun stopped => apart stopped.1
      have onward {ref : TypeRef} (kind : node.kind.onward? = some ref)
          (member : ref ∈ node.kind.members) (looked : s.look? g ref = some t) :
          ∃ core, g.Reduces (.node id) core ∧ s.typeOf? core = some t := by
        obtain ⟨core, reduces, typed⟩ := reduces_of_look looked fun inner denotes cached' => by
          have before := (layered id inner (by rw [cached]; rfl) apart
            ⟨ref, by rwa [members_eq found], denotes⟩).2
          exact ih _ (hn ▸ before) cached' rfl
        exact ⟨core, .onward here kind reduces, typed⟩
      unfold recipe at describes
      cases kind : node.kind with
      | «alias» target =>
        rw [kind] at describes onward
        cases target with
        | primitive p =>
          exact ⟨.scalar _, .onward here (by rw [kind]; rfl) (.primitive p),
            congrArg some describes.symm⟩
        | node target => exact onward rfl (List.mem_singleton_self _) describes
      | option inner =>
        rw [kind] at describes onward
        exact onward rfl (List.mem_singleton_self _) describes
      | list | tuple => exact ⟨.node id, .core here (by rw [kind]; rfl), cached⟩
      | enum | flags | handle | resource | future | stream =>
        rw [kind] at describes
        exact ⟨.scalar .string, .core here (by rw [kind]; rfl), congrArg some describes.symm⟩
      | record | variant | result => simp [kind, Kind.isAggregate] at aggregate
      | unrecognised raw =>
        rw [kind] at describes
        exact describes.elim

theorem Leftovers.shape (h : Leftovers g calls direction s stalled)
    (numbered : Numbered g direction s) (has : g.HasType id) (cached : s.cached? id = some t) :
    (∃ serial item, t = .list direction serial item) ∨ ∃ index, t = .aggregate direction index := by
  obtain ⟨node, found, list | aggregate⟩ := has
  · exact .inl (numbered.list_of_lists ⟨node, found, list⟩ cached)
  · exact .inr (h.aggregate found aggregate cached).2

theorem Leftovers.unshared (h : Leftovers g calls direction s stalled)
    (numbered : Numbered g direction s) {a b : Nat} {t t' : Ty} (hasA : g.HasType a)
    (hasB : g.HasType b) (cachedA : s.cached? a = some t) (cachedB : s.cached? b = some t')
    (same : t.Same t') : a = b := by
  obtain ⟨nodeA, foundA, listA | aggregateA⟩ := hasA
  · obtain ⟨serial, item, rfl⟩ := numbered.list_of_lists ⟨nodeA, foundA, listA⟩ cachedA
    obtain ⟨nodeB, foundB, listB | aggregateB⟩ := hasB
    · cases same
      exact numbered.tallied.unique ⟨nodeA, foundA, listA⟩ ⟨nodeB, foundB, listB⟩ cachedA cachedB
        ⟨_, rfl⟩ ⟨_, rfl⟩
    · obtain ⟨-, index, rfl⟩ := h.aggregate foundB aggregateB cachedB
      cases same
  · obtain ⟨makesA, index, rfl⟩ := h.aggregate foundA aggregateA cachedA
    obtain ⟨nodeB, foundB, listB | aggregateB⟩ := hasB
    · obtain ⟨serial, item, rfl⟩ := numbered.list_of_lists ⟨nodeB, foundB, listB⟩ cachedB
      cases same
    · obtain ⟨makesB, index', rfl⟩ := h.aggregate foundB aggregateB cachedB
      cases same
      exact h.owned.unique makesA makesB cachedA cachedB

variable {ref ref' : TypeRef} {core core' : Core} {t' : Ty}

theorem Leftovers.same_self (h : Leftovers g calls direction s stalled)
    (numbered : Numbered g direction s) (reduces : g.Reduces ref core)
    (typed : s.typeOf? core = some t) : t.Same t := by
  cases core with
  | scalar x =>
    cases typed
    exact .scalar x
  | node id =>
    rcases h.shape numbered reduces.hasType typed with ⟨serial, item, rfl⟩ | ⟨index, rfl⟩
    · exact .list ..
    · exact .aggregate ..

theorem Leftovers.core_unique (h : Leftovers g calls direction s stalled)
    (numbered : Numbered g direction s) (reduces : g.Reduces ref core)
    (reduces' : g.Reduces ref' core') (typed : s.typeOf? core = some t)
    (typed' : s.typeOf? core' = some t') (same : t.Same t') : core = core' := by
  cases core with
  | scalar x =>
    cases typed
    cases core' with
    | scalar y =>
      cases typed'
      cases same
      rfl
    | node id =>
      rcases h.shape numbered reduces'.hasType typed' with ⟨serial, item, rfl⟩ | ⟨index, rfl⟩
      · cases same
      · cases same
  | node id =>
    cases core' with
    | scalar y =>
      cases typed'
      rcases h.shape numbered reduces.hasType typed with ⟨serial, item, rfl⟩ | ⟨index, rfl⟩
      · cases same
      · cases same
    | node id' =>
      rw [h.unshared numbered reduces.hasType reduces'.hasType typed typed' same]

end Leftovers

/-- The run converts the reference to the type, by a call or in the course of one. -/
def Yields (g : Graph) (calls : List (Direction × TypeRef)) (direction : Direction)
    (ref : TypeRef) (t : Ty) : Prop :=
  ∃ s, Made g calls direction (s, ref) ∧ (s.convert g direction ref).2 = .ok t

section Yields

variable {g : Graph} {direction : Direction} {calls : List (Direction × TypeRef)}
  {ref ref' : TypeRef} {t t' u : Ty}

theorem within_entries {outer inner : Call} (h : Within g direction outer inner) :
    (inner.1.convert g direction inner.2).1.cache.entries <+:
      (outer.1.convert g direction outer.2).1.cache.entries := by
  induction h with
  | refl => exact List.prefix_rfl
  | tail _ nests ih => exact nests.entries.trans ih

theorem Yields.looked (h : Yields g calls direction ref t) :
    ((empty.run g calls).1.side direction).look? g ref = some t := by
  obtain ⟨s, ⟨earlier, outer, later, rfl, within⟩, ok⟩ := h
  have looked := look?_of_isPrefix (within_entries within) (look?_of_convert (Prod.ext rfl ok))
  rw [← look?_convert] at looked
  rw [run_append]
  exact look?_of_isPrefix (run_entries g _ later direction) looked

theorem Yields.typed (h : Yields g calls direction ref t) : ∃ core, g.Reduces ref core ∧
    ((empty.run g calls).1.side direction).typeOf? core = some t := by
  obtain ⟨stalled, leftovers⟩ := run_leftovers g calls direction
  exact reduces_of_look h.looked fun id _ =>
    leftovers.reduces_of_cached (run_layered g calls direction)

theorem Yields.same_iff (h : Yields g calls direction ref t)
    (h' : Yields g calls direction ref' t') :
    (t.Same t' ↔ ∃ core, g.Reduces ref core ∧ g.Reduces ref' core) ∧ (t.Same t' ↔ t = t') := by
  obtain ⟨stalled, leftovers⟩ := run_leftovers g calls direction
  have numbered := run_numbered g calls direction
  obtain ⟨core, reduces, typed⟩ := h.typed
  obtain ⟨core', reduces', typed'⟩ := h'.typed
  have unique := leftovers.core_unique numbered reduces reduces' typed typed'
  refine ⟨⟨fun same => ⟨core, reduces, unique same ▸ reduces'⟩, ?_⟩, fun same => ?_, ?_⟩
  · rintro ⟨common, toCommon, toCommon'⟩
    obtain rfl := reduces.unique toCommon
    obtain rfl := reduces'.unique toCommon'
    cases typed.symm.trans typed'
    exact leftovers.same_self numbered reduces typed
  · cases unique same
    exact Option.some.inj (typed.symm.trans typed')
  · rintro rfl
    exact leftovers.same_self numbered reduces typed

theorem directed_of_look {s : Side} (h : s.Directed direction) (looked : s.look? g ref = some t) :
    t.toward direction = t := by
  cases ref with
  | primitive p =>
    cases looked
    rfl
  | node index =>
    cases hd : g.denoted index with
    | error e => simp [Side.look?, hd] at looked
    | ok id =>
      simp only [Side.look?, hd] at looked
      have turned : (s.toward direction).cached? id = (s.cached? id).map (Ty.toward direction) :=
        cached?_toward s id
      rw [show s.toward direction = s from h, looked] at turned
      exact (Option.some.inj turned).symm

theorem contains_directed {c : Converter} (h : ∀ d, (c.side d).Directed d)
    (contains : t.Contains c.store u) (directed : t.toward direction = t) :
    u.toward direction = u := by
  induction contains with
  | self t => exact directed
  | item _ ih =>
    simp only [Ty.toward, Ty.list.injEq] at directed
    exact ih directed.2.2
  | nonNull _ ih =>
    simp only [Ty.toward, Ty.nonNull.injEq] at directed
    exact ih directed
  | @field own index a m u found field _ ih =>
    simp only [Ty.toward, Ty.aggregate.injEq] at directed
    obtain ⟨rfl, -⟩ := directed
    rw [c.holds_store direction index] at found
    exact ih ((h direction).member found field)

theorem Yields.contains_directed (h : Yields g calls direction ref t)
    (contains : t.Contains (empty.run g calls).1.store u) : u.toward direction = u := by
  have directed := (@run_directed g .empty direction directed_empty calls).1
  exact Converter.contains_directed directed contains
    (directed_of_look (directed direction) h.looked)

end Yields

end Converter

/-- In a run, whatever its calls come to, two conversions in one direction give the same type
exactly if aliases and options lead from both references to the same list, tuple, record, variant or
result, or to the same scalar. Different nodes of these kinds never have the same list or aggregate
in the cache. Conversions in different directions have no list and no aggregate in common, neither
as their types nor in what these contain. -/
theorem types_identified (g : Graph) (calls : List (Direction × TypeRef)) :
    (∀ direction ref ref' t t', Converter.Yields g calls direction ref t →
      Converter.Yields g calls direction ref' t' →
        (t.Same t' ↔ ∃ core, g.Reduces ref core ∧ g.Reduces ref' core) ∧ (t.Same t' ↔ t = t')) ∧
    (∀ direction a b t t', g.HasType a → g.HasType b →
      ((Converter.empty.run g calls).1.side direction).cached? a = some t →
      ((Converter.empty.run g calls).1.side direction).cached? b = some t' →
        t.Same t' → a = b) ∧
    ∀ direction direction' ref ref' t t' u, direction ≠ direction' →
      Converter.Yields g calls direction ref t → Converter.Yields g calls direction' ref' t' →
      t.Contains (Converter.empty.run g calls).1.store u →
      t'.Contains (Converter.empty.run g calls).1.store u →
        (∀ d serial item, u ≠ .list d serial item) ∧ ∀ d index, u ≠ .aggregate d index := by
  refine ⟨fun direction ref ref' t t' => Converter.Yields.same_iff, ?_, ?_⟩
  · intro direction a b t t' hasA hasB cachedA cachedB same
    obtain ⟨stalled, leftovers⟩ := Converter.run_leftovers g calls direction
    have numbered := Converter.run_numbered g calls direction
    exact leftovers.unshared numbered hasA hasB cachedA cachedB same
  · intro direction direction' ref ref' t t' u other h h' contains contains'
    have own := h.contains_directed contains
    have own' := h'.contains_directed contains'
    constructor
    · rintro d serial item rfl
      simp only [Ty.toward, Ty.list.injEq] at own own'
      exact other (own.1.trans own'.1.symm)
    · rintro d index rfl
      simp only [Ty.toward, Ty.aggregate.injEq] at own own'
      exact other (own.1.trans own'.1.symm)

def shelf : Graph :=
  { types :=
      [⟨.list (.primitive .string), .null, none, .null, .null⟩,
        ⟨.list (.primitive .string), .null, none, .null, .null⟩,
        ⟨.option (.node 0), .null, none, .null, .null⟩,
        ⟨.alias (.node 2), .null, none, .null, .null⟩]
    worlds := []
    interfaces := []
    packages := [] }

def shelfCalls : List (Direction × TypeRef) :=
  [(.output, .node 0), (.output, .node 3), (.output, .node 1)]

/-- The alias leads to the first list and has its type; the second list has another one. -/
theorem shelf_identified :
    Converter.Yields shelf shelfCalls .output (.node 0) (.list .output 0 (.scalar .string)) ∧
    Converter.Yields shelf shelfCalls .output (.node 3) (.list .output 0 (.scalar .string)) ∧
    Converter.Yields shelf shelfCalls .output (.node 1) (.list .output 1 (.scalar .string)) ∧
    (∃ core, shelf.Reduces (.node 0) core ∧ shelf.Reduces (.node 3) core) ∧
    ¬ ∃ core, shelf.Reduces (.node 0) core ∧ shelf.Reduces (.node 1) core := by
  have first : Converter.Yields shelf shelfCalls .output (.node 0)
      (.list .output 0 (.scalar .string)) := by
    refine ⟨_, ⟨[], _, [(.output, .node 3), (.output, .node 1)], rfl, .refl⟩, ?_⟩
    simp only [Converter.run, convert_eq_evaluated]
    rfl
  have again : Converter.Yields shelf shelfCalls .output (.node 3)
      (.list .output 0 (.scalar .string)) := by
    refine ⟨_, ⟨[(.output, .node 0)], _, [(.output, .node 1)], rfl, .refl⟩, ?_⟩
    simp only [Converter.run, Converter.convert, convert_eq_evaluated]
    rfl
  have second : Converter.Yields shelf shelfCalls .output (.node 1)
      (.list .output 1 (.scalar .string)) := by
    refine ⟨_, ⟨[(.output, .node 0), (.output, .node 3)], _, [], rfl, .refl⟩, ?_⟩
    simp only [Converter.run, Converter.convert, convert_eq_evaluated]
    rfl
  have identified := (types_identified shelf shelfCalls).1 .output
  refine ⟨first, again, second, ?_, fun common => ?_⟩
  · exact (identified _ _ _ _ first again).1.mp (.list ..)
  · cases (identified _ _ _ _ first second).1.mpr common

end Conversion

end WitSchema
