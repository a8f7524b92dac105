import WitSchema.Proofs.Binding.Complete
import WitSchema.Proofs.Conversion.Purity

/-! Types of one direction stay among themselves, whatever calls have been made
on a converter. What binding adds to the types of conversion is one input type
for each function, whose fields may be required. -/

namespace WitSchema

open Wit

namespace GraphQL

inductive Ty.Belongs (store : Store) (direction : Direction) : Ty → Prop
  | scalar (x) : Belongs store direction (.scalar x)
  | list (serial item) : Belongs store direction (.list direction serial item)
  | aggregate {index a} (found : store.get? direction index = some a)
      (own : a.direction = direction) : Belongs store direction (.aggregate direction index)

def Ty.PureIn (store : Store) (direction : Direction) (t : Ty) : Prop :=
  ∀ u, t.Contains store u → u.Belongs store direction

/-- A required input type. Its fields have input types, which may be required in turn. -/
def Ty.PureArgument (store : Store) (t : Ty) : Prop :=
  ∃ index a, t = .nonNull (.aggregate .input index) ∧ store.get? .input index = some a ∧
    a.direction = .input ∧ ∀ m ∈ a.fields, ∃ u : Ty, u.PureIn store .input ∧
      (m.2.type = u ∨ m.2.type = .nonNull u)

end GraphQL

namespace Binding

open Conversion GraphQL

/-- The converters that calls lead to, failed ones included, and those at the moments when a
conversion makes a nested one. -/
inductive Reachable (g : Graph) : Converter → Prop
  | empty : Reachable g .empty
  | convert {c} (h : Reachable g c) (direction ref) :
      Reachable g (c.convert g direction ref).1
  | bind {c} (h : Reachable g c) (settings exportName f) :
      Reachable g (bind g settings c exportName f).converter
  | nested {c direction ref inner} (h : Reachable g c)
      (within : Within g direction (c.side direction, ref) inner) :
      Reachable g (c.set direction inner.1)

def Separate (g : Graph) (c : Converter) : Prop :=
  ∀ direction, Unmixed g direction (c.side direction)

section Separate

variable {g : Graph} {c c' : Converter} {direction : Direction} {t u : Ty}

theorem separate_empty (g : Graph) : Separate g .empty := by
  intro direction
  cases direction <;> exact unmixed_empty g _

theorem Separate.convert (h : Separate g c) (direction : Direction) (ref : TypeRef) :
    Separate g (c.convert g direction ref).1 :=
  Converter.convert_keeps (fun _ _ unmixed => unmixed.of_cache rfl List.prefix_rfl)
    (fun _ _ ref unmixed => unmixed.convert ref) h direction ref

theorem Separate.set {s : Side} (h : Separate g c) (unmixed : Unmixed g direction s) :
    Separate g (c.set direction s) := by
  intro other
  by_cases same : other = direction
  · subst same
    rwa [Converter.side_set_self]
  · rw [Converter.side_set_of_ne same]
    exact h other

theorem Separate.houses (h : Separate g c) {ref : TypeRef}
    (ok : (c.convert g direction ref).2.2 = .ok t) :
    Houses g direction ((c.convert g direction ref).1.side direction) t := by
  have looked : ((c.convert g direction ref).1.side direction).look? g ref = some t := by
    rw [Converter.look?_convert]
    exact look?_of_convert (Prod.ext rfl ok)
  exact (h.convert direction ref direction).look looked

theorem Separate.belongs (h : Separate g c) (houses : Houses g direction (c.side direction) t) :
    t.Belongs c.store direction := by
  cases houses with
  | scalar x => exact .scalar x
  | list => exact .list _ _
  | @aggregate id index made cached =>
    obtain ⟨a, found, own, -⟩ := (h direction).owned made cached
    rw [← c.holds_store direction index] at found
    exact .aggregate found own

theorem Separate.pureIn (h : Separate g c) (houses : Houses g direction (c.side direction) t) :
    t.PureIn c.store direction :=
  fun _ contains => h.belongs (houses.contains (h direction) contains)

end Separate

section Bind

variable {g : Graph} {settings : Settings} {c : Converter}

def Argued (g : Graph) (s : Side) (t : Ty) : Prop :=
  ∃ u, Houses g .input s u ∧ (t = u ∨ t = .nonNull u)

theorem Argued.mono {s s' : Side} {t : Ty} (h : Argued g s t)
    (entries : s.cache.entries <+: s'.cache.entries) : Argued g s' t := by
  obtain ⟨u, houses, same⟩ := h
  exact ⟨u, houses.mono entries, same⟩

def RequiredInput (g : Graph) (s : Side) (t : Ty) : Prop :=
  ∃ index a, t = .nonNull (.aggregate .input index) ∧ s.aggregates[index]? = some a ∧
    a.direction = .input ∧ ∀ m ∈ a.fields, Argued g s m.2.type

theorem Separate.pureArgument {t : Ty} (h : Separate g c) (passed : RequiredInput g c.input t) :
    t.PureArgument c.store := by
  obtain ⟨index, a, rfl, found, own, argued⟩ := passed
  refine ⟨index, a, rfl, found, own, fun m field => ?_⟩
  obtain ⟨u, houses, same⟩ := argued m field
  exact ⟨u, h.pureIn houses, same⟩

theorem bindParams_separate {nullable : Bool} {notices : List Notice} {params : List Param}
    {fields : List (String × Member)} (h : Separate g c)
    (argued : ∀ m ∈ fields, Argued g c.input m.2.type) :
    Separate g (bindParams g nullable c notices fields params).converter ∧
      ∀ members, (bindParams g nullable c notices fields params).result = .ok members →
        ∀ m ∈ members,
          Argued g (bindParams g nullable c notices fields params).converter.input m.2.type := by
  induction params generalizing c notices fields with
  | nil =>
    refine ⟨h, fun members ok => ?_⟩
    cases ok
    exact argued
  | cons p rest ih =>
    have separate := h.convert .input p.type
    have old : ∀ m ∈ fields, Argued g (c.convert g .input p.type).1.input m.2.type :=
      fun m field => (argued m field).mono (Converter.convert_entries g c .input p.type .input)
    have houses {t : Ty} := @Separate.houses g c .input t h p.type
    unfold bindParams
    rcases hc : c.convert g .input p.type with ⟨c₁, new, e | t⟩
    · rw [hc] at separate
      exact ⟨separate, fun members ok => by cases ok⟩
    · rw [hc] at separate old houses
      cases hn : camelOf p.name with
      | error e => exact ⟨separate, fun members ok => by cases ok⟩
      | ok name =>
        refine ih separate fun m field => ?_
        rcases mem_of_mem_insertPair field with rfl | field
        · refine ⟨t, houses rfl, ?_⟩
          dsimp only
          split
          · exact .inl rfl
          · exact .inr rfl
        · exact old m field

theorem bindArgument_separate {exportName : String} {params : List Param} (h : Separate g c) :
    Separate g (bindArgument g settings c exportName params).converter ∧
      ∀ argument, (bindArgument g settings c exportName params).result = .ok argument →
        ∀ a ∈ argument,
          RequiredInput g (bindArgument g settings c exportName params).converter.input a.2 := by
  unfold bindArgument
  split
  · refine ⟨h, fun argument ok a there => ?_⟩
    cases ok
    cases there
  · obtain ⟨separate, argued⟩ := @bindParams_separate g c settings.nullableOptions [] params [] h
      fun m field => nomatch field
    rcases hp : bindParams g settings.nullableOptions c [] [] params with ⟨c₁, notices, e | members⟩
    · rw [hp] at separate
      exact ⟨separate, fun argument ok => by cases ok⟩
    · rw [hp] at separate argued
      dsimp only at separate argued ⊢
      cases checkTypeName (Name.pascal exportName ++ "Input") with
      | error e => exact ⟨separate, fun argument ok => by cases ok⟩
      | ok _ =>
        let own : Aggregate := ⟨.input, Name.pascal exportName ++ "Input", .null, members⟩
        have added : Separate g (c₁.set .input (c₁.input.allocate own)) :=
          separate.set ((separate .input).of_cache rfl (List.prefix_append ..))
        refine ⟨added, fun argument ok a there => ?_⟩
        cases ok
        cases there
        refine ⟨c₁.input.aggregates.length, own, rfl, ?_, rfl, fun m field => ?_⟩
        · simp [Converter.set, Side.allocate, own]
        · exact (argued members rfl m field).mono List.prefix_rfl

theorem bindResult_separate {result : Option TypeRef} (h : Separate g c) :
    Separate g (bindResult g c result).converter ∧
      (bindResult g c result).converter.input = c.input ∧
      ∀ t, (bindResult g c result).result = .ok t →
        Houses g .output ((bindResult g c result).converter.side .output) t := by
  cases result with
  | none =>
    refine ⟨h, rfl, fun t ok => ?_⟩
    cases ok
    exact .scalar .boolean
  | some ref => exact ⟨h.convert .output ref, rfl, fun t ok => h.houses ok⟩

theorem bind_separate {exportName : String} {f : Function} (h : Separate g c) :
    Separate g (bind g settings c exportName f).converter ∧
      ∀ q, (bind g settings c exportName f).result = .ok q →
        q.type.PureIn (bind g settings c exportName f).converter.store .output ∧
        ∀ a ∈ q.argument, a.2.PureArgument (bind g settings c exportName f).converter.store := by
  obtain ⟨first, passed⟩ := @bindArgument_separate g settings c exportName f.params h
  unfold bind
  rcases ha : bindArgument g settings c exportName f.params with ⟨c₁, notices, e | argument⟩
  · rw [ha] at first
    exact ⟨first, fun q ok => by cases ok⟩
  · rw [ha] at first passed
    obtain ⟨second, input, houses⟩ := @bindResult_separate g c₁ f.result first
    dsimp only
    rcases hr : bindResult g c₁ f.result with ⟨c₂, notices', e | t⟩
    · rw [hr] at second
      exact ⟨second, fun q ok => by cases ok⟩
    · rw [hr] at second input houses
      refine ⟨second, fun q ok => ?_⟩
      obtain ⟨type, same⟩ := bindField_ok ok
      rw [type, same]
      refine ⟨second.pureIn (houses t rfl), fun a there => second.pureArgument ?_⟩
      rw [input]
      exact passed argument rfl a there

end Bind

theorem Reachable.separate {g : Graph} {c : Converter} (h : Reachable g c) : Separate g c := by
  induction h with
  | empty => exact separate_empty g
  | convert _ direction ref ih => exact ih.convert direction ref
  | bind _ settings exportName f ih => exact (bind_separate ih).1
  | nested _ within ih => exact ih.set ((ih _).within within)

/-- However calls have succeeded and failed, what the types of one direction lead to are scalars and
lists and aggregates of that direction, none of them required, so the directions share no aggregate.
A binding passes on a type of the output direction and takes an input type with fields of input
types, which it makes required at most once. -/
theorem directions_stay_apart {g : Graph} {c : Converter} (h : Reachable g c) :
    (∀ direction id t, (c.side direction).cached? id = some t → t.PureIn c.store direction) ∧
    (∀ id id' t t' direction index, c.output.cached? id = some t → c.input.cached? id' = some t' →
      t.Contains c.store (.aggregate direction index) →
        ¬ t'.Contains c.store (.aggregate direction index)) ∧
    (∀ direction ref t, (c.convert g direction ref).2.2 = .ok t →
      t.PureIn (c.convert g direction ref).1.store direction) ∧
    ∀ settings exportName f q, (bind g settings c exportName f).result = .ok q →
      q.type.PureIn (bind g settings c exportName f).converter.store .output ∧
      ∀ a ∈ q.argument, a.2.PureArgument (bind g settings c exportName f).converter.store := by
  have separate := h.separate
  have cached (direction : Direction) (id : Nat) (t : Ty)
      (there : (c.side direction).cached? id = some t) : t.PureIn c.store direction :=
    separate.pureIn ((separate direction).cached there)
  refine ⟨cached, ?_, ?_, ?_⟩
  · intro id id' t t' direction index there there' contains contains'
    have output := cached .output id t there _ contains
    have input := cached .input id' t' there' _ contains'
    cases output with
    | aggregate => cases input
  · intro direction ref t ok
    exact (separate.convert direction ref).pureIn (separate.houses ok)
  · intro settings exportName f q
    exact (bind_separate separate).2 q

theorem club_stays_apart :
    let failed := (Converter.empty.convert club .output (.node 2)).1
    Reachable club failed ∧ (∃ e, (Converter.empty.convert club .output (.node 2)).2.2 = .error e) ∧
      (failed.convert club .input (.node 0)).2.2 = .ok (.aggregate .input 0) ∧
      (Ty.aggregate .input 0).PureIn (failed.convert club .input (.node 0)).1.store .input := by
  have reachable := Reachable.convert (.empty (g := club)) .output (.node 2)
  have ok : ((Converter.empty.convert club .output (.node 2)).1.convert club .input
      (.node 0)).2.2 = .ok (.aggregate .input 0) := by
    simp only [Converter.convert, convert_eq_evaluated]
    rfl
  refine ⟨reachable, ⟨.typeCycle [2, 2], ?_⟩, ok, ?_⟩
  · simp only [Converter.convert, convert_eq_evaluated]
    rfl
  · exact (directions_stay_apart reachable).2.2.1 .input (.node 0) _ ok

end Binding

end WitSchema
