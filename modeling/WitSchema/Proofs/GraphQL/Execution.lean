import WitSchema.GraphQL.Execution
import WitSchema.Proofs.GraphQL.Completion
import WitSchema.Proofs.GraphQL.Turns

/-! The response to a query that is executed. On a schema with soft types it
has an entry for every key, and its errors are the faults of the questions the
query asks, each at a `null` of its own. -/

namespace WitSchema.GraphQL

open Binding

def Schema.question (s : Schema) (f : PlannedField) (outcome : Except RootFault Json) : Question :=
  ⟨s.rootType f.name, outcome.mapError (·.message),
    ⟨[.str f.key], f.offsets, s.queryType ++ "." ++ f.name⟩, f.children⟩

theorem Schema.answer_cases (s : Schema) (f : PlannedField) (outcome : Except RootFault Json) :
    ((f.isMeta = true → ∃ fault, outcome = .error fault) ∧
      s.answer f outcome = (s.question f outcome).complete s.store) ∨
    f.isMeta = true ∧ ∃ v, outcome = .ok v ∧ s.answer f outcome = .ok v := by
  cases outcome with
  | error fault => exact .inl ⟨fun _ => ⟨fault, rfl⟩, rfl⟩
  | ok v =>
    cases own : f.isMeta with
    | true => exact .inr ⟨rfl, v, rfl, by rw [answer, own]; rfl⟩
    | false =>
      refine .inl ⟨nofun, ?_⟩
      rw [answer, own]
      rfl

structure Schema.Soft (s : Schema) (within : Nat → Prop) : Prop where
  fields : ∀ f ∈ s.fields, f.2.type.Soft within
  store : s.store.Soft within

namespace Schema

variable {s : Schema} {within : Nat → Prop}

theorem rootType_cases (soft : s.Soft within) (name : String) :
    (s.rootType name).Soft within ∨
      name = "__typename" ∧ s.rootType name = .nonNull (.scalar .string) := by
  rw [rootType]
  by_cases own : name = "__typename"
  · rw [if_pos own]
    exact .inr ⟨own, rfl⟩
  · rw [if_neg own]
    cases found : s.fields.lookup name with
    | none => exact .inl trivial
    | some f => exact .inl (soft.fields _ (mem_of_lookup found))

end Schema

namespace Query

variable {s : Schema}

theorem outcomes_spec (q : Query s) (host : Host) (calls : List Call) :
    let results := (q.outcomes host calls).2
    results.map (·.1) = q.plan ∧
      ∀ r ∈ results, (q.begin host r.1).Comes
        (host.policy.further host.retryAvailable).isSome r.2 := by
  have settle : ∀ settled, List.Forall₂ (Attempted.Comes
        (host.policy.further host.retryAvailable).isSome) (q.plan.map (q.begin host)) settled →
      (q.plan.zip settled).map (·.1) = q.plan ∧ ∀ r ∈ q.plan.zip settled,
        (q.begin host r.1).Comes (host.policy.further host.retryAvailable).isSome r.2 := by
    intro settled comes
    rw [List.forall₂_map_left_iff] at comes
    exact ⟨List.map_fst_zip (Nat.le_of_eq comes.length_eq), fun r member =>
      List.forall₂_zip comes member⟩
  simp only [outcomes]
  apply settle
  cases host.policy.further host.retryAvailable with
  | some left => exact Turns.run_comes left 1 calls _
  | none =>
    rw [List.forall₂_map_right_iff, List.forall₂_same]
    intro a _
    cases a with
    | settled t => exact .known t
    | waiting c => exact .unable c rfl

theorem keys (q : Query s) : (q.plan.map (·.key)).Nodup := by
  obtain ⟨keys, -⟩ := q.distinct
  exact keys

def results (q : Query s) (host : Host) : List (PlannedField × Settled) :=
  (q.outcomes host []).2

def response (q : Query s) (host : Host) : Response := (q.execute host).2

theorem response_eq (q : Query s) (host : Host) :
    q.response host = s.respond (q.results host) := rfl

theorem results_fields (q : Query s) (host : Host) : (q.results host).map (·.1) = q.plan :=
  (q.outcomes_spec host []).1

/-- The questions that a query asks: those of its fields and all below them. A field about the
schema asks none unless its argument is at fault. -/
def Asks (q : Query s) (host : Host) (question : Question) : Prop :=
  ∃ r ∈ q.results host, (r.1.isMeta = true → ∃ fault, r.2.result = .error fault) ∧
    Question.Reaches s.store (s.question r.1 r.2.result) question

section Soft

variable {within : Nat → Prop} (soft : s.Soft within) (q : Query s) (host : Host)

include soft

theorem contained : ∀ r ∈ q.results host, (s.question r.1 r.2.result).Contained s.store := by
  intro r member
  obtain ⟨fields, comes⟩ := q.outcomes_spec host []
  have selected : r.1 ∈ q.plan := fields ▸ List.mem_map_of_mem member
  have distinct : Plan.Distinct r.1.children := by
    obtain ⟨-, below⟩ := q.distinct
    exact below _ selected
  rcases Schema.rootType_cases soft r.1.name with here | ⟨own, type⟩
  · exact Question.contained_of_soft soft.store distinct _ _ _ here
  -- The name of the query type has a type without `null`, and it is always there.
  · have known := comes r member
    rw [begin, if_pos own] at known
    obtain ⟨f, settled⟩ := r
    cases known
    rw [Schema.question, type]
    apply Question.contained_of_leaf rfl
    · intro q ask
      cases ask
    · rfl

end Soft

end Query

/-- An error stands at a `null`, and no other error stands at the same place. -/
def Response.FailsAt (response : Response) (e : FieldError) : Prop :=
  response.data.at? e.path = some .null ∧
    ∃ before after, response.errors = before ++ e :: after ∧
      ∀ d ∈ before ++ after, d.path ≠ e.path

/-- The data is an object with one entry for each field, under its key and in its place, and the
errors are the faults of the resolvers and values that the query asks for, each alone at a `null`. -/
structure Query.FailsLocally {s : Schema} (q : Query s) (host : Host) : Prop where
  entries : ∃ entries, (q.response host).data = .obj entries ∧
    entries.map (·.1) = q.plan.map (·.key) ∧ (entries.map (·.1)).Nodup
  errors : ∀ e, e ∈ (q.response host).errors ↔ ∃ question, q.Asks host question ∧
    question.error? = some e
  alone : ∀ e ∈ (q.response host).errors, (q.response host).FailsAt e

theorem failsAt_of_apart {response : Response} {e : FieldError}
    (apart : (response.errors.map (·.path)).Nodup) (member : e ∈ response.errors)
    (value : response.data.at? e.path = some .null) : response.FailsAt e := by
  obtain ⟨before, after, split⟩ := List.append_of_mem member
  refine ⟨value, before, after, split, ?_⟩
  rw [split, List.map_append, List.map_cons, List.nodup_middle, List.nodup_cons] at apart
  intro d there same
  rw [← List.map_append] at apart
  exact apart.1 (same ▸ List.mem_map_of_mem there)

section Respond

variable {s : Schema} {results : List (PlannedField × Settled)}

def Schema.answers (s : Schema) (results : List (PlannedField × Settled)) :
    List (String × Completion) :=
  results.map fun r => (r.1.key, s.answer r.1 r.2.result)

/-- Which answers come first depends on the turns; nothing else does. -/
theorem Schema.respond_eq
    (owned : ∀ p ∈ s.answers results, p.2.Owned ([] ++ [.str p.1])) :
    (s.respond results).data =
        .obj ((s.answers results).map fun p => (p.1, p.2.value.getD .null)) ∧
      (s.respond results).errors.Perm ((s.answers results).flatMap (·.2.errors)) := by
  constructor
  · have whole := Completion.answerObject_of_owned owned
    simp only [answers, List.map_map, Function.comp_def] at whole
    simp only [respond, whole, Option.getD_some, answers, List.map_map, Function.comp_def]
  · rw [answers, List.flatMap_map]
    exact (List.mergeSort_perm ..).flatMap_right _

theorem Schema.respond_failsAt (keys : ((s.answers results).map (·.1)).Nodup)
    (owned : ∀ p ∈ s.answers results, p.2.Owned ([] ++ [.str p.1])) {e : FieldError}
    (member : e ∈ (s.respond results).errors) : (s.respond results).FailsAt e := by
  obtain ⟨data, errors⟩ := Schema.respond_eq owned
  have whole := Completion.owned_object keys owned
  rw [Completion.answerObject_of_owned owned] at whole
  apply failsAt_of_apart _ member
  · obtain ⟨v, value, located⟩ := whole.located
    obtain ⟨rest, place, here⟩ := located e (errors.mem_iff.mp member)
    rw [data, place, List.nil_append, Option.some.inj value]
    exact here
  · exact (errors.map _).nodup_iff.mpr whole.apart

end Respond

namespace Query

variable {s : Schema} {within : Nat → Prop} (soft : s.Soft within) (q : Query s) (host : Host)

theorem answers_keys : (s.answers (q.results host)).map (·.1) = q.plan.map (·.key) := by
  rw [Schema.answers, ← q.results_fields host, List.map_map, List.map_map]
  rfl

include soft

theorem owned : ∀ a ∈ s.answers (q.results host), a.2.Owned ([] ++ [.str a.1]) := by
  intro a member
  obtain ⟨r, there, rfl⟩ := List.mem_map.mp member
  obtain ⟨-, asked⟩ | ⟨-, v, -, told⟩ := s.answer_cases r.1 r.2.result
  · rw [asked]
    exact (q.contained soft host r there).owned
  · rw [told]
    exact Completion.owned_of_clean rfl rfl

theorem response_entries :
    ∃ entries, (q.response host).data = .obj entries ∧
      entries.map (·.1) = q.plan.map (·.key) ∧ (entries.map (·.1)).Nodup := by
  have keys : ((s.answers (q.results host)).map fun a => (a.1, a.2.value.getD .null)).map (·.1) =
      q.plan.map (·.key) := by
    rw [List.map_map, Function.comp_def, q.answers_keys host]
  exact ⟨_, (Schema.respond_eq (q.owned soft host)).1, keys, keys ▸ q.keys⟩

theorem mem_response_errors (e : FieldError) :
    e ∈ (q.response host).errors ↔ ∃ question, q.Asks host question ∧ question.error? = some e := by
  rw [response_eq, (Schema.respond_eq (q.owned soft host)).2.mem_iff, Schema.answers,
    List.flatMap_map, List.mem_flatMap]
  constructor
  · rintro ⟨r, member, there⟩
    obtain ⟨posed, asked⟩ | ⟨-, v, -, told⟩ := s.answer_cases r.1 r.2.result
    · rw [asked] at there
      obtain ⟨question, reached, fault⟩ := ((q.contained soft host r member).exact e).mp there
      exact ⟨question, ⟨r, member, posed, reached⟩, fault⟩
    · rw [told] at there
      exact absurd there List.not_mem_nil
  · rintro ⟨question, ⟨r, member, posed, reached⟩, fault⟩
    refine ⟨r, member, ?_⟩
    obtain ⟨-, asked⟩ | ⟨own, v, found, -⟩ := s.answer_cases r.1 r.2.result
    · rw [asked]
      exact ((q.contained soft host r member).exact e).mpr ⟨question, reached, fault⟩
    · obtain ⟨fault, failed⟩ := posed own
      cases found.symm.trans failed

theorem response_failsAt {e : FieldError} (member : e ∈ (q.response host).errors) :
    (q.response host).FailsAt e := by
  apply Schema.respond_failsAt _ (q.owned soft host) member
  rw [q.answers_keys host]
  exact q.keys

theorem failsLocally : q.FailsLocally host :=
  ⟨q.response_entries soft host, q.mem_response_errors soft host,
    fun _ => q.response_failsAt soft host⟩

end Query

end WitSchema.GraphQL
