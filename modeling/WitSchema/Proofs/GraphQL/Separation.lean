import WitSchema.GraphQL.Validity
import WitSchema.Proofs.GraphQL.Argument
import WitSchema.Proofs.GraphQL.Execution

/-! One key of a response by itself. What a query answers under a key comes
from the field collected under it, the values of the variables in its arguments
and the answer of the native it needs. Two queries that agree in these agree
under the key, whatever else they select and whatever becomes of it. -/

namespace WitSchema.GraphQL

open Binding

def FieldError.moved (place : Nat → Nat) (e : FieldError) : FieldError :=
  { e with offsets := e.offsets.map place }

def Completion.moved (place : Nat → Nat) (c : Completion) : Completion :=
  ⟨c.errors.map (·.moved place), c.value⟩

def Spot.moved (place : Nat → Nat) (spot : Spot) : Spot :=
  { spot with offsets := spot.offsets.map place }

/-! ### The same selections at other places -/

section Moved

variable (place : Nat → Nat)

@[simp]
theorem Completion.moved_value (c : Completion) : (c.moved place).value = c.value := rfl

theorem Completion.moved_settle (t : Ty) (c : Completion) :
    (c.moved place).settle t = (c.settle t).moved place := by
  rw [settle, settle]
  split <;> rfl

theorem Completion.all_moved (parts : List Completion) :
    all (parts.map (·.moved place)) =
      ((all parts).1.map (·.moved place), (all parts).2) := by
  induction parts with
  | nil => rfl
  | cons c rest ih =>
    rw [List.map_cons, all, ih, all, List.map_append]
    rfl

theorem answerObject_moved (keys : List String) (parts : List Completion) :
    answerObject keys (parts.map (·.moved place)) = (answerObject keys parts).moved place := by
  rw [answerObject, Completion.all_moved]
  rfl

/-- By induction on the type; what is asked of objects has to commute with moving. -/
theorem completeWith_moved {object moved : Nat → Json → Spot → Completion}
    (commutes : ∀ i v spot, moved i v (spot.moved place) = (object i v spot).moved place)
    (t : Ty) (v : Json) (spot : Spot) :
    completeWith moved t v (spot.moved place) = (completeWith object t v spot).moved place := by
  induction t generalizing v spot with
  | nonNull inner ih =>
    rw [completeWith, completeWith, ih, Completion.moved_value]
    split
    · simp [Completion.moved, Spot.moved, FieldError.moved]
    · rfl
  | scalar scalar =>
    rw [completeWith, completeWith]
    split
    · rfl
    · cases scalar.output v <;> rfl
  | list _ _ item ih =>
    cases v with
    | arr items =>
      have parts : (items.mapIdx fun i v =>
          (completeWith moved item v ((spot.moved place).element i)).settle item) =
          (items.mapIdx fun i v =>
            (completeWith object item v (spot.element i)).settle item).map (·.moved place) := by
        apply List.ext_getElem?
        intro i
        simp only [List.getElem?_map, List.getElem?_mapIdx, Option.map_map]
        congr 1
        funext v
        rw [Function.comp_apply, ← Completion.moved_settle, ← ih]
        rfl
      simp only [completeWith, parts, Completion.all_moved]
      rfl
    | _ => rfl
  | aggregate _ index =>
    rw [completeWith, completeWith, commutes]
    split <;> rfl

mutual

theorem answerMember_moved (s : Store) (index : Nat) (source : Json) (path : List Json) :
    ∀ f : PlannedField,
      answerMember s index source path (f.moved place) =
        (answerMember s index source path f).moved place
  | ⟨key, name, arguments, offsets, hasBraces, children⟩ => by
    rw [PlannedField.moved, answerMember, answerMember]
    split
    · rfl
    · split
      · rfl
      · split
        · rfl
        · rename_i m _
          split
          · rw [← Completion.moved_settle]
            rfl
          · rename_i v _
            rw [← Completion.moved_settle, ← completeWith_moved]
            · rfl
            · intro i v spot
              rw [planMoved_keys, ← answerObject_moved, ← answerMembers_moved]
              rfl

theorem answerMembers_moved (s : Store) (index : Nat) (source : Json) (path : List Json) :
    ∀ fields : List PlannedField,
      answerMembers s index source path (planMoved place fields) =
        (answerMembers s index source path fields).map (·.moved place)
  | [] => rfl
  | f :: rest => by
    rw [planMoved, answerMembers, answerMembers, answerMember_moved, answerMembers_moved,
      List.map_cons]

end

@[simp]
theorem PlannedField.moved_isMeta (f : PlannedField) : (f.moved place).isMeta = f.isMeta := by
  rw [isMeta, isMeta, moved_name]

theorem Schema.answer_moved (s : Schema) (f : PlannedField) (outcome : Except RootFault Json) :
    s.answer (f.moved place) outcome = (s.answer f outcome).moved place := by
  simp only [answer, PlannedField.moved_isMeta, PlannedField.moved_name]
  cases outcome with
  | error fault =>
    simp only [PlannedField.moved_key, PlannedField.moved_offsets]
    rw [← Completion.moved_settle]
    rfl
  | ok v =>
    simp only [PlannedField.moved_key, PlannedField.moved_offsets, PlannedField.moved_children,
      planMoved_keys]
    cases f.isMeta with
    | true => rfl
    | false =>
      simp only [Bool.false_eq_true, if_false]
      rw [← Completion.moved_settle, ← completeWith_moved place _ _ v]
      · rfl
      · intro i v spot
        rw [← answerObject_moved, ← answerMembers_moved]
        rfl

end Moved

/-! ### Fields that begin alike -/

namespace Query

variable {s : Schema}

def Passes (q : Query s) (f : PlannedField) (r : Resolver) (args : List Json) : Prop :=
  ∃ field arguments, s.fields.lookup f.name = some field ∧ field.resolver = r ∧
    argumentValues s.store q.values field.argument f.arguments = .ok arguments ∧
      r.positional arguments = .ok args

theorem begin_alike {p q : Query s} {host other : Host} {f g : PlannedField}
    (key : g.key = f.key) (name : g.name = f.name) (arguments : g.arguments = f.arguments)
    (agree : Values.Agree (Literal.fieldVariables f.arguments) p.values q.values)
    (described : f.isMeta = true → p.described f.key = q.described f.key)
    (natives : ∀ r args, p.Passes f r args → host.AnswersAlike other r.field args) :
    (p.begin host f).Alike (q.begin other g) := by
  rw [begin, begin, key, name, arguments]
  split
  · exact .known rfl
  · cases asked : metaFields.lookup f.name with
    | some argument =>
      have own : f.isMeta = true := by rw [PlannedField.isMeta, asked]; rfl
      simp only [← argumentValues_congr argument agree, ← described own]
      split <;> exact .known rfl
    | none =>
      cases found : s.fields.lookup f.name with
      | none => exact .known rfl
      | some field =>
        simp only [← argumentValues_congr field.argument agree]
        cases passed : argumentValues s.store p.values field.argument f.arguments with
        | error fault => exact .known rfl
        | ok given =>
          simp only [Resolver.ready]
          cases ownParameters.find? fun p => (given.lookup p).isSome with
          | some p => exact .known rfl
          | none =>
            cases positional : field.resolver.positional given with
            | error e => exact .known rfl
            | ok args =>
              have alike := natives field.resolver args
                ⟨field, given, found, rfl, passed, positional⟩
              simp only [Host.AnswersAlike] at alike
              cases left : host.natives.find? field.resolver.field <;>
                cases right : other.natives.find? field.resolver.field <;>
                  simp only [left, right] at alike
              · exact .known rfl
              · obtain ⟨answer, first, second⟩ := alike
                exact .waiting rfl first second

end Query

/-! ### The part of a response under a key -/

def FieldError.isUnder (key : String) (e : FieldError) : Bool :=
  match e.path with
  | .str k :: _ => k == key
  | _ => false

def Response.under (response : Response) (key : String) : Completion :=
  ⟨response.errors.filter (·.isUnder key), response.data.at? [.str key]⟩

theorem isUnder_of_owned {c : Completion} {key : String} (owned : c.Owned ([] ++ [.str key]))
    (other : String) {e : FieldError} (member : e ∈ c.errors) :
    e.isUnder other = (key == other) := by
  obtain ⟨v, -, located⟩ := owned.located
  obtain ⟨rest, place, -⟩ := located e member
  rw [FieldError.isUnder, place]
  rfl

theorem filter_flatMap_isUnder {parts : List (String × Completion)}
    (owned : ∀ p ∈ parts, p.2.Owned ([] ++ [.str p.1])) (key : String) :
    (parts.flatMap (·.2.errors)).filter (·.isUnder key) =
      (parts.filter (·.1 == key)).flatMap (·.2.errors) := by
  induction parts with
  | nil => rfl
  | cons p rest ih =>
    have own := fun e => isUnder_of_owned (owned p List.mem_cons_self) key (e := e)
    rw [List.flatMap_cons, List.filter_append,
      ih fun q member => owned q (List.mem_cons_of_mem _ member)]
    cases here : p.1 == key with
    | true =>
      rw [List.filter_cons_of_pos (by exact here), List.flatMap_cons,
        List.filter_eq_self.mpr fun e member => (own e member).trans here]
    | false =>
      rw [List.filter_cons_of_neg (by simp [here]),
        List.filter_eq_nil_iff.mpr fun e member => by simp [own e member, here], List.nil_append]

namespace Schema

variable {s : Schema} {results : List (PlannedField × Settled)}

theorem respond_under (keys : ((s.answers results).map (·.1)).Nodup)
    (owned : ∀ p ∈ s.answers results, p.2.Owned ([] ++ [.str p.1]))
    {r : PlannedField × Settled} (member : r ∈ results) :
    (s.respond results).under r.1.key = s.answer r.1 r.2.result := by
  have sorted : (s.answers (results.mergeSort fun a b => a.2.turn ≤ b.2.turn)).Perm
      (s.answers results) := (List.mergeSort_perm ..).map _
  have there : (r.1.key, s.answer r.1 r.2.result) ∈ s.answers results :=
    List.mem_map.mpr ⟨r, member, rfl⟩
  have errors : (s.respond results).errors.filter (·.isUnder r.1.key) =
      (s.answer r.1 r.2.result).errors := by
    have split : (s.respond results).errors =
        (s.answers (results.mergeSort fun a b => a.2.turn ≤ b.2.turn)).flatMap (·.2.errors) := by
      rw [answers, List.flatMap_map]
      rfl
    rw [split, filter_flatMap_isUnder fun p h => owned p (sorted.mem_iff.mp h),
      filter_key_eq ((sorted.map _).nodup_iff.mpr keys) (sorted.mem_iff.mpr there)]
    simp
  have value : (s.respond results).data.at? [.str r.1.key] =
      (s.answer r.1 r.2.result).value := by
    rw [(respond_eq owned).1, Completion.value_of_owned (owned _ there), Json.at?,
      lookup_map_values (fun c : Completion => c.value.getD .null), lookup_of_mem keys there]
    rfl
  rw [Response.under, errors, value]

end Schema

namespace Query

variable {s : Schema} {within : Nat → Prop}

theorem exists_result (q : Query s) (host : Host) {f : PlannedField} (member : f ∈ q.plan) :
    ∃ settled, (f, settled) ∈ q.results host := by
  rw [← q.results_fields host] at member
  obtain ⟨r, there, rfl⟩ := List.mem_map.mp member
  exact ⟨r.2, there⟩

theorem under_eq (soft : s.Soft within) (q : Query s) (host : Host)
    {r : PlannedField × Settled} (member : r ∈ q.results host) :
    (q.response host).under r.1.key = s.answer r.1 r.2.result := by
  apply Schema.respond_under _ (q.owned soft host) member
  rw [q.answers_keys host]
  exact q.keys

/-- Two queries have the same field under the key of `f`, with the same values for the variables in
its arguments and natives that give the same answer; if it is one about the schema, they are told
the same. Either both hosts can make attempts or none of them can. -/
structure SameUnder (p q : Query s) (host other : Host) (f : PlannedField) : Prop where
  collected : ∃ g ∈ q.plan, g.moved (fun _ => 0) = f.moved (fun _ => 0)
  values : Values.Agree (Literal.fieldVariables f.arguments) p.values q.values
  described : f.isMeta = true → p.described f.key = q.described f.key
  natives : ∀ r args, p.Passes f r args → host.AnswersAlike other r.field args
  attempts : (host.policy.further host.retryAvailable).isSome =
    (other.policy.further other.retryAvailable).isSome

/-- What is the same under a key has the same value and the same errors there, up to places in the
text. -/
theorem under_congr (soft : s.Soft within) (p q : Query s) (host other : Host) {f : PlannedField}
    (member : f ∈ p.plan) (same : p.SameUnder q host other f) :
    ((p.response host).under f.key).moved (fun _ => 0) =
      ((q.response other).under f.key).moved (fun _ => 0) := by
  obtain ⟨g, there, alike⟩ := same.collected
  have key : g.key = f.key := by simpa using congrArg PlannedField.key alike
  obtain ⟨a, left⟩ := p.exists_result host member
  obtain ⟨b, right⟩ := q.exists_result other there
  have begun : (p.begin host f).Alike (q.begin other g) := by
    apply begin_alike key _ _ same.values same.described same.natives
    · simpa using congrArg PlannedField.name alike
    · simpa using congrArg PlannedField.arguments alike
  have first := (p.outcomes_spec host []).2 _ left
  have second := (q.outcomes_spec other []).2 _ right
  rw [← same.attempts] at second
  have result : a.result = b.result := first.result_eq begun second
  rw [p.under_eq soft host left, ← key, q.under_eq soft other right, ← s.answer_moved,
    ← s.answer_moved, alike, result]

end Query

/-! ### The selections of a document under a key -/

def Operation.own (operation : Operation) (key : String) : List Selection :=
  selectionsMoved (fun _ => 0) (operation.selections.filter (·.key == key))

/-- A plain query has the fields that its document selects, and what it has under a key is what the
selections with this key come to by themselves. -/
theorem Schema.query?_own {s : Schema} {operation : Operation} {given : List (String × Json)}
    {q : Query s} (ready : s.query? operation given = some q) :
    (∀ key, key ∈ q.plan.map (·.key) ↔ key ∈ operation.selections.map (·.key)) ∧
      ∀ f ∈ q.plan, Plan.ofSelections? (operation.own f.key) = some [f.moved fun _ => 0] := by
  have merged : Plan.ofSelections? operation.selections = some q.plan := by
    unfold query? at ready
    split at ready
    · cases ready
    · rename_i scope plan valid
      obtain ⟨values, -, rfl⟩ := Option.map_eq_some_iff.mp ready
      exact (plan?_ok valid).1
  refine ⟨Plan.ofSelections?_mem_keys merged, fun f member => ?_⟩
  rw [Operation.own, Plan.ofSelections?_moved, Plan.ofSelections?_own merged member]
  rfl

end WitSchema.GraphQL
