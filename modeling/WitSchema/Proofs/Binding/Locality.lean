import WitSchema.Proofs.Binding.Complete
import WitSchema.Proofs.GraphQL.Separation

/-! Failures stay where they happen. The fields of a built schema have types
with `null`, at every depth of their lists and at every depth of the objects
they lead to. So a failure costs its own value and nothing beside it, and what
a query answers under one key does not depend on the others. A query is what
was collected from a document, whatever the document is made of. -/

namespace WitSchema

namespace GraphQL

def Ty.AllowsNull : Ty → Prop
  | scalar _ => True
  | list _ _ item => item.AllowsNull
  | aggregate _ _ => True
  | nonNull _ => False

/-- The fields of the query type allow `null`, and so do those of every object type it leads to. -/
structure Schema.AllowsNull (s : Schema) : Prop where
  fields : ∀ f ∈ s.fields, f.2.type.AllowsNull
  objects : ∀ index a, s.Reaches .output index → s.store.get? .output index = some a →
    ∀ m ∈ a.fields, m.2.type.AllowsNull

theorem Ty.Soft.allowsNull {within : Nat → Prop} {t : Ty} (soft : t.Soft within) :
    t.AllowsNull := by
  induction t with
  | scalar _ => trivial
  | list _ _ item ih => exact ih soft
  | aggregate _ _ => trivial
  | nonNull _ => exact soft

theorem Schema.Soft.allowsNull {s : Schema} {within : Nat → Prop} (soft : s.Soft within)
    (reached : ∀ index, s.Reaches .output index → within index) : s.AllowsNull :=
  ⟨fun f field => (soft.fields f field).allowsNull, fun index a reach found m field =>
    (soft.store index a (reached index reach) found m field).allowsNull⟩

end GraphQL

namespace Binding

open Conversion GraphQL Wit

section Shape

variable {g : Graph} {settings : Settings} {c : Converter} {schema : Schema}
  {exports : List (String × Function)}

def Made (g : Graph) (c : Converter) (index : Nat) : Prop := ∃ id, OwnedBy g c .output index id

theorem soft_of_houses {t : Ty} (houses : Houses g .output (c.side .output) t) :
    t.Soft (Made g c) := by
  induction houses with
  | scalar _ => trivial
  | list _ ih => exact ih
  | aggregate made cached => exact ⟨_, made, cached⟩

theorem Bound.soft (bound : Bound g settings exports c schema.fields)
    (store : schema.store = c.store) : schema.Soft (Made g c) := by
  constructor
  · intro f field
    obtain ⟨e, -, -, own⟩ := bound.fields f field
    exact soft_of_houses (own.houses bound.steady)
  · rintro index a ⟨id, owned⟩ found m field
    rw [store, c.holds_store .output] at found
    exact soft_of_houses (bound.steady.houses_of_field owned found field)

theorem Bound.made (bound : Bound g settings exports c schema.fields)
    (store : schema.store = c.store) {index : Nat} (reached : schema.Reaches .output index) :
    Made g c index := by
  rcases bound.origin store reached with owned | ⟨other, -⟩
  · exact owned
  · cases other

theorem createSchema_soft (ok : (createSchema g settings).2 = .ok schema) :
    ∃ within, schema.Soft within ∧ ∀ index, schema.Reaches .output index → within index := by
  cases selected : g.world? ((settings.worldName.map Json.str).getD .null) with
  | none => simp [createSchema, selected] at ok
  | some world =>
    obtain ⟨bound, store⟩ := createSchema_ok selected ok
    exact ⟨_, bound.soft store, fun index => bound.made store⟩

end Shape

/-- All fields of a built schema, and of what it leads to, allow `null`. Therefore every query that
is executed fails locally. What it answers under a key depends on the field collected under the key,
on the variables in its arguments and on the answer of the native, and on nothing else that is
selected or fails. In a plain document this field comes from the selections with the key alone. -/
theorem failures_stay_local {g : Graph} {settings : Settings} {schema : Schema}
    (ok : (createSchema g settings).2 = .ok schema) :
    schema.AllowsNull ∧
    (∀ (q : Query schema) host, q.FailsLocally host) ∧
    (∀ (p q : Query schema) (host other : Host), ∀ f ∈ p.plan, p.SameUnder q host other f →
      ((p.response host).under f.key).moved (fun _ => 0) =
        ((q.response other).under f.key).moved (fun _ => 0)) ∧
    ∀ operation given (q : Query schema), schema.query? operation given = some q →
      (∀ key, key ∈ q.plan.map (·.key) ↔ key ∈ operation.selections.map (·.key)) ∧
      ∀ f ∈ q.plan, Plan.ofSelections? (operation.own f.key) = some [f.moved fun _ => 0] := by
  obtain ⟨within, soft, reached⟩ := createSchema_soft ok
  refine ⟨soft.allowsNull reached, fun q host => q.failsLocally soft host, ?_, ?_⟩
  · intro p q host other f member same
    exact p.under_congr soft q host other member same
  · exact fun operation given q => schema.query?_own

def typeNameAt (offset : Nat) : PlannedField :=
  ⟨"__typename", "__typename", [], [offset], false, []⟩

def joinAt (key : String) (offset below : Nat) : PlannedField :=
  ⟨key, "join", [("input", .object [("club", .object [("members", .list [])])])], [offset], true,
    [typeNameAt below]⟩

theorem distinct_joinAt (key : String) (offset below : Nat) :
    Plan.Distinct (joinAt key offset below).children :=
  Plan.distinct_leaves (List.nodup_singleton _) (List.forall_mem_singleton.mpr rfl)

/-- Collected from `{ join(input: {club: {members: []}}) { __typename } }`. -/
def joinAlone : Query clubSchema where
  plan := [joinAt "join" 2 39]
  values := []
  described _ := .null
  distinct := ⟨by decide, List.forall_mem_singleton.mpr (distinct_joinAt ..)⟩
  executable := rfl

/-- The same field after another one of the same function, and after one about the schema. -/
def joinTwice : Query clubSchema where
  plan := [joinAt "a" 1 40, ⟨"__schema", "__schema", [], [52], true, [typeNameAt 63]⟩,
    joinAt "join" 76 112]
  values := []
  described _ := .obj [("__typename", .str "__Schema")]
  distinct := by
    refine ⟨by decide, List.forall_mem_cons.mpr ⟨distinct_joinAt .., List.forall_mem_cons.mpr
      ⟨Plan.distinct_leaves (by decide) (by decide), ?_⟩⟩⟩
    exact List.forall_mem_singleton.mpr (distinct_joinAt ..)
  executable := rfl

def fullClub : Host :=
  ⟨[("join", .function fun _ _ => .error (.raised "ValueError" "full"))], ⟨1, .none, 0.0⟩, false⟩

theorem join_fails_locally :
    (createSchema club .default).2 = .ok clubSchema ∧ clubSchema.AllowsNull ∧
    (joinTwice.response fullClub).FailsAt ⟨[.str "join"], [76], "Error executing join: full"⟩ ∧
    ((joinAlone.response fullClub).under "join").moved (fun _ => 0) =
      ((joinTwice.response fullClub).under "join").moved (fun _ => 0) := by
  obtain ⟨shape, contained, separate, -⟩ := failures_stay_local createSchema_club
  refine ⟨createSchema_club, shape, ?_, ?_⟩
  · obtain ⟨-, errors, alone⟩ := contained joinTwice fullClub
    apply alone
    rw [errors]
    have last : (joinAt "join" 76 112, _) ∈ joinTwice.results fullClub :=
      List.mem_cons_of_mem _ (List.mem_cons_of_mem _ List.mem_cons_self)
    exact ⟨_, ⟨_, last, nofun, .refl⟩, rfl⟩
  · have selected : joinAt "join" 2 39 ∈ joinAlone.plan := List.mem_singleton_self _
    have collected : joinAt "join" 76 112 ∈ joinTwice.plan :=
      List.mem_cons_of_mem _ (List.mem_cons_of_mem _ List.mem_cons_self)
    apply separate joinAlone joinTwice fullClub fullClub _ selected
    refine ⟨⟨_, collected, rfl⟩, fun _ _ => rfl, nofun, ?_, rfl⟩
    rintro r args ⟨field, arguments, found, rfl, -, -⟩
    cases found
    exact ⟨_, fun _ _ => rfl, fun _ _ => rfl⟩

end Binding

end WitSchema
