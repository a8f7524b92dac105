import WitSchema.GraphQL.Input
import WitSchema.Proofs.Binding.Exports

/-! From the input of a field to the arguments of its native. The members of the
input object go to the parameters by name, in the order of the parameters and
not of the object. The type that binding generates for the input sees to it
that only an option that may be left out is passed as `null`. -/

namespace WitSchema

namespace GraphQL

/-- The values of an input type. An object has members the type declares, in any order, and all of
them that may not be `null`. A value that is no list stands for a list of one. -/
inductive Conforms (s : Store) : Ty → Json → Prop
  | null {t} (optional : t.isNonNull = false) : Conforms s t .null
  | nonNull {t v} (value : Conforms s t v) (given : v ≠ .null) : Conforms s (.nonNull t) v
  | scalar {kind : Scalar} {v} (value : (kind.ofJson? v).isSome = true) :
      Conforms s (.scalar kind) v
  | list {direction serial item items} (each : ∀ v ∈ items, Conforms s item v) :
      Conforms s (.list direction serial item) (.arr items)
  | single {direction serial item v} (value : Conforms s item v) (given : v ≠ .null)
      (alone : ∀ items, v ≠ .arr items) : Conforms s (.list direction serial item) v
  | object {index a members} (found : s.get? .input index = some a)
      (keys : (members.map Prod.fst).Nodup)
      (declared : ∀ m ∈ members, ∃ d, a.fields.lookup m.1 = some d)
      (each : ∀ m ∈ members, ∀ d, a.fields.lookup m.1 = some d → Conforms s d.type m.2)
      (required : ∀ f ∈ a.fields, f.2.type.isNonNull = true → ∃ v, (f.1, v) ∈ members) :
      Conforms s (.aggregate .input index) (.obj members)

inductive Passed (s : Store) : Option (String × Ty) → List (String × Json) → Prop
  | nothing : Passed s none []
  | one {name t v} (value : Conforms s t v) : Passed s (some (name, t)) [(name, v)]

theorem Conforms.ne_null {s : Store} {t : Ty} {v : Json} (h : Conforms s t v)
    (required : t.isNonNull = true) : v ≠ .null := by
  cases h with
  | null optional => simp [optional] at required
  | nonNull _ given => exact given
  | _ => simp [Ty.isNonNull] at required

theorem Conforms.object_of_nonNull {s : Store} {index : Nat} {v : Json}
    (h : Conforms s (.nonNull (.aggregate .input index)) v) :
    ∃ members, v = .obj members ∧ Conforms s (.aggregate .input index) (.obj members) := by
  cases h with
  | null optional => cases optional
  | nonNull value given =>
    cases value with
    | null _ => exact absurd rfl given
    | object found keys declared each required =>
      exact ⟨_, rfl, .object found keys declared each required⟩

theorem Conforms.member {s : Store} {index : Nat} {a : Aggregate} {members : List (String × Json)}
    (h : Conforms s (.aggregate .input index) (.obj members))
    (found : s.get? .input index = some a) {name : String} {d : Member}
    (declared : a.fields.lookup name = some d) (required : d.type.isNonNull = true) :
    ∃ v, members.lookup name = some v ∧ v ≠ .null := by
  cases h with
  | object found' keys _ each needed =>
    cases found.symm.trans found'
    obtain ⟨v, there⟩ := needed (name, d) (mem_of_lookup declared) required
    exact ⟨v, lookup_of_mem keys there, (each _ there d declared).ne_null required⟩

end GraphQL

namespace Binding

open Conversion GraphQL Wit

def DenotesOption (g : Graph) (ref : TypeRef) : Prop :=
  ∃ index id node type, ref = .node index ∧ g.Leads index (some id) ∧
    g.types[id]? = some node ∧ node.kind = .option type

theorem denotesOption_of_isOption {g : Graph} {ref : TypeRef} (h : isOption g ref = true) :
    DenotesOption g ref := by
  cases ref with
  | primitive p => simp [isOption, Graph.resolveAlias] at h
  | node index =>
    cases denoted : g.denoted index with
    | error e => simp [isOption, Graph.resolveAlias, denoted, Except.map] at h
    | ok id =>
      obtain ⟨node, found⟩ := Graph.denoted_found denoted
      simp only [isOption, Graph.resolveAlias, denoted, Except.map, Graph.node?_natCast, found] at h
      cases kind : node.kind with
      | option type =>
        refine ⟨index, id, node, type, rfl, ?_, found, kind⟩
        rcases Graph.denoted_leads denoted with leads | ⟨leads, rfl⟩
        · exact leads
        · obtain ⟨node', found', isAlias⟩ := leads.isAlias_of_none
          cases found.symm.trans found'
          simp [kind, Kind.isAlias] at isAlias
      | _ => simp [kind] at h

def paramNames (f : Function) : List String := f.params.map fun p => Name.camel p.name.text

section Attempts

variable {act : List Call → List Call × Except Failure Json} {pause : Nat → Float}
  {new : List Call}

theorem attempts_calls (adds : ∀ calls, (act calls).1 = calls ++ new) (left n : Nat)
    (calls : List Call) : ∃ rounds, (attempts act pause left n calls).calls =
      calls ++ (List.replicate (rounds + 1) new).flatten := by
  induction left generalizing n calls with
  | zero => exact ⟨0, by simp [attempts, adds]⟩
  | succ left ih =>
    rcases hact : act calls with ⟨after, failure | v⟩
    · obtain rfl : after = calls ++ new := by simpa [hact] using adds calls
      obtain ⟨rounds, later⟩ := ih (n + 1) (calls ++ new)
      refine ⟨rounds + 1, ?_⟩
      rw [List.replicate_succ, List.flatten_cons, ← List.append_assoc, ← later]
      simp only [attempts, hact]
    · obtain rfl : after = calls ++ new := by simpa [hact] using adds calls
      exact ⟨0, by simp [attempts, hact]⟩

theorem policy_calls (adds : ∀ calls, (act calls).1 = calls ++ new) (p : RetryPolicy)
    (available : Bool) (calls : List Call) : ∃ rounds, (p.run available act calls).calls =
      calls ++ (List.replicate rounds new).flatten ∧
      (p.maxAttempts ≤ 1 ∨ available = true → 0 < rounds) := by
  unfold RetryPolicy.run
  cases further : p.further available with
  | none =>
    refine ⟨0, by simp, fun allowed => ?_⟩
    unfold RetryPolicy.further at further
    split at further
    · cases further
    · rename_i many
      obtain few | rfl := allowed
      · exact (many few).elim
      · cases further
  | some left =>
    obtain ⟨rounds, all⟩ := attempts_calls adds left 1 calls
    exact ⟨rounds + 1, all, fun _ => Nat.succ_pos rounds⟩

end Attempts

def ReadyCall.recorded (c : ReadyCall) : List Call :=
  match c.native with
  | .value _ => []
  | .function _ => [⟨c.field, c.args⟩]

theorem ReadyCall.attempt_calls (c : ReadyCall) (calls : List Call) :
    (c.attempt calls).1 = calls ++ c.recorded := by
  unfold ReadyCall.attempt ReadyCall.recorded Native.invoke
  cases c.native with
  | value v => simp
  | function answer => rfl

section Resolver

variable {r : Resolver} {host : Host} {arguments : List (String × Json)} {args : List Json}

theorem free_of_own (own : ∀ p ∈ ownParameters, arguments.lookup p = none) :
    (ownParameters.find? fun p => (arguments.lookup p).isSome) = none := by
  rw [List.find?_eq_none]
  intro p member
  simp [own p member]

theorem ready_of_positional (own : ∀ p ∈ ownParameters, arguments.lookup p = none)
    (positional : r.positional arguments = .ok args) :
    r.ready host arguments = (host.natives.find? r.field).elim
      (.error (.missingBinding r.function r.field))
      fun native => .ok ⟨r.function, r.field, native, args⟩ := by
  simp only [Resolver.ready, free_of_own own, positional]
  cases host.natives.find? r.field <;> rfl

/-- Every call that is made has the positional arguments, and one is made if the native can be
called and retrying is at hand where it is wanted. -/
theorem run_calls (own : ∀ p ∈ ownParameters, arguments.lookup p = none)
    (positional : r.positional arguments = .ok args) (calls : List Call) :
    ∃ n, (r.run host arguments calls).calls = calls ++ List.replicate n ⟨r.field, args⟩ ∧
      ∀ answer, host.natives.find? r.field = some (.function answer) →
        host.policy.maxAttempts ≤ 1 ∨ host.retryAvailable = true → 0 < n := by
  rw [Resolver.run, ready_of_positional own positional]
  generalize host.natives.find? r.field = found
  cases found with
  | none => exact ⟨0, by simp, nofun⟩
  | some native =>
    obtain ⟨rounds, all, some⟩ := policy_calls
      (ReadyCall.attempt_calls ⟨r.function, r.field, native, args⟩) host.policy
      host.retryAvailable calls
    cases native with
    | value v => exact ⟨0, by simpa [ReadyCall.recorded] using all, nofun⟩
    | function answer =>
      exact ⟨rounds, by simpa [ReadyCall.recorded] using all, fun _ _ => some⟩

end Resolver

def Carries (g : Graph) (nullable : Bool) (p : Param) (m : String × Member) : Prop :=
  m.1 = Name.camel p.name.text ∧ ∃ t, m.2.type = argumentType g nullable p t

section Bind

variable {g : Graph} {settings : Settings} {c c' : Converter} {notices notices' : List Notice}
  {exportName : String}

theorem bindParams_carries {nullable : Bool} {params : List Param}
    {fields fields' : List (String × Member)}
    (ok : bindParams g nullable c notices fields params = ⟨c', notices', .ok fields'⟩) :
    ∃ members : List (String × Member),
      fields' = members.foldl (fun l m => insertPair m.1 m.2 l) fields ∧
        List.Forall₂ (Carries g nullable) params members := by
  induction params generalizing c notices fields with
  | nil =>
    cases ok
    exact ⟨[], rfl, .nil⟩
  | cons p rest ih =>
    unfold bindParams at ok
    rcases hc : c.convert g .input p.type with ⟨c₁, new, e | t⟩
    · simp [hc] at ok
    · cases hn : camelOf p.name with
      | error e => simp [hc, hn] at ok
      | ok name =>
        simp only [hc, hn] at ok
        obtain ⟨members, rfl, carried⟩ := ih ok
        exact ⟨(name, ⟨argumentType g nullable p t, .null⟩) :: members, rfl,
          .cons ⟨camelOf_ok hn, t, rfl⟩ carried⟩

def InputBound (g : Graph) (settings : Settings) (c : Converter) (params : List Param)
    (argument : Option (String × Ty)) : Prop :=
  params = [] ∧ argument = none ∨ ∃ index a members,
    argument = some (settings.inputArgumentName, .nonNull (.aggregate .input index)) ∧
      c.store.get? .input index = some a ∧ a.fields = insertPairs members ∧
      List.Forall₂ (Carries g settings.nullableOptions) params members

theorem bindArgument_bound {params : List Param} {argument : Option (String × Ty)}
    (ok : bindArgument g settings c exportName params = ⟨c', notices', .ok argument⟩) :
    InputBound g settings c' params argument := by
  unfold bindArgument at ok
  split at ok
  · rename_i none
    cases ok
    exact .inl ⟨List.isEmpty_iff.mp none, rfl⟩
  · rcases hp : bindParams g settings.nullableOptions c [] [] params with ⟨c₁, notices, e | fields⟩
    · simp [hp] at ok
    · obtain ⟨members, hfields, carried⟩ := bindParams_carries hp
      cases hn : checkTypeName (Name.pascal exportName ++ "Input") with
      | error e => simp [hp, hn] at ok
      | ok _ =>
        simp only [hp, hn, Step.mk.injEq, Except.ok.injEq] at ok
        obtain ⟨rfl, -, rfl⟩ := ok
        refine .inr ⟨_, ⟨.input, Name.pascal exportName ++ "Input", .null, fields⟩, members, rfl, ?_,
          hfields, carried⟩
        simp [Converter.store, Converter.set, Store.get?, Side.allocate]

theorem bindResult_input (g : Graph) (c : Converter) (result : Option TypeRef) :
    (bindResult g c result).converter.input = c.input := by
  cases result with
  | none => rfl
  | some ref => rfl

theorem mapM_camelOf {params : List Param} {names : List String}
    (ok : params.mapM (fun p => camelOf p.name) = .ok names) :
    names = params.map fun p => Name.camel p.name.text := by
  induction params generalizing names with
  | nil =>
    cases ok
    rfl
  | cons p rest ih =>
    rw [List.mapM_cons] at ok
    obtain ⟨name, first, ok⟩ := exists_of_bind_ok ok
    obtain ⟨others, later, ok⟩ := exists_of_bind_ok ok
    cases ok
    rw [List.map_cons, camelOf_ok first, ih later]

theorem bindField_resolver {f : Function} {t : Ty} {argument : Option (String × Ty)}
    {q : QueryField} (ok : bindField settings exportName f t argument = .ok q) :
    q.resolver = ⟨f.name, fieldName exportName, paramNames f, settings.inputArgumentName⟩ := by
  obtain ⟨r, made, ok⟩ := exists_of_bind_ok ok
  obtain ⟨_, _, ok⟩ := exists_of_bind_ok ok
  obtain ⟨names, params, made⟩ := exists_of_bind_ok made
  cases made
  cases ok
  rw [mapM_camelOf params]
  rfl

theorem bind_bound {f : Function} {q : QueryField}
    (ok : (bind g settings c exportName f).result = .ok q) :
    InputBound g settings (bind g settings c exportName f).converter f.params q.argument ∧
      q.resolver = ⟨f.name, fieldName exportName, paramNames f, settings.inputArgumentName⟩ := by
  unfold bind at ok ⊢
  rcases ha : bindArgument g settings c exportName f.params with ⟨c₁, n₁, e | argument⟩
  · simp [ha] at ok
  · have kept := bindResult_input g c₁ f.result
    rcases hr : bindResult g c₁ f.result with ⟨c₂, n₂, e | t⟩
    · simp [ha, hr] at ok
    · rw [hr] at kept
      simp only [ha, hr] at ok ⊢
      refine ⟨?_, bindField_resolver ok⟩
      rw [(bindField_ok ok).2]
      refine (bindArgument_bound ha).imp_right ?_
      rintro ⟨index, a, members, same, found, carried⟩
      refine ⟨index, a, members, same, ?_, carried⟩
      rw [← found, Converter.store, Converter.store, kept]
      rfl

end Bind

section Marshalling

variable {g : Graph} {settings : Settings} {c : Converter} {f : Function} {q : QueryField}
  {arguments : List (String × Json)}

/-- What the input has for a parameter; a member that is not there counts as `null`. -/
def inputFor (settings : Settings) (arguments : List (String × Json)) (p : Param) : Json :=
  (((arguments.lookup settings.inputArgumentName).bind
    (·.member? (Name.camel p.name.text))).getD .null)

theorem keys_of_carries {nullable : Bool} {params : List Param} {members : List (String × Member)}
    (carried : List.Forall₂ (Carries g nullable) params members) :
    members.map Prod.fst = params.map fun p => Name.camel p.name.text := by
  induction carried with
  | nil => rfl
  | cons first _ ih => rw [List.map_cons, List.map_cons, ih, first.1]

theorem carries_lookup {nullable : Bool} {params : List Param} {members : List (String × Member)}
    (carried : List.Forall₂ (Carries g nullable) params members)
    (distinct : (params.map fun p => Name.camel p.name.text).Nodup) {p : Param}
    (member : p ∈ params) :
    ∃ m t, (insertPairs members).lookup (Name.camel p.name.text) = some m ∧
      m.type = argumentType g nullable p t := by
  rw [← keys_of_carries carried] at distinct
  rw [insertPairs_of_nodup distinct]
  induction carried with
  | nil => cases member
  | @cons p' m' params members first _ ih =>
    have own : ((m' :: members).lookup m'.1) = some m'.2 :=
      lookup_of_mem distinct List.mem_cons_self
    rw [first.1] at own
    obtain rfl | later := List.mem_cons.mp member
    · obtain ⟨-, t, type⟩ := first
      exact ⟨m'.2, t, own, type⟩
    · obtain ⟨m, t, found, type⟩ := ih (List.nodup_cons.mp distinct).2 later
      exact ⟨m, t, lookup_of_mem distinct (List.mem_cons_of_mem _ (mem_of_lookup found)), type⟩

theorem positional_of_passed {s : Store} {params : List Param} {argument : Option (String × Ty)}
    (bound : InputBound g settings c params argument) (passed : Passed s argument arguments)
    (function : Json) (field : String) :
    Resolver.positional ⟨function, field, params.map fun p => Name.camel p.name.text,
      settings.inputArgumentName⟩ arguments = .ok (params.map (inputFor settings arguments)) := by
  obtain ⟨rfl, rfl⟩ | ⟨index, a, members, rfl, -, -, -⟩ := bound
  · cases passed
    rfl
  · cases passed with
    | one value =>
      obtain ⟨given, rfl, -⟩ := value.object_of_nonNull
      simp [Resolver.positional, inputFor, Json.member?, Function.comp_def]

theorem own_absent {s : Store} {params : List Param} {argument : Option (String × Ty)}
    (bound : InputBound g settings c params argument) (passed : Passed s argument arguments)
    (own : settings.inputArgumentName ∉ ownParameters) :
    ∀ p ∈ ownParameters, arguments.lookup p = none := by
  intro p member
  obtain ⟨-, rfl⟩ | ⟨index, a, members, rfl, -, -, -⟩ := bound
  · cases passed
    rfl
  · cases passed with
    | one _ =>
      have other : (p == settings.inputArgumentName) = false :=
        beq_false_of_ne fun same => own (same ▸ member)
      simp [List.lookup_cons, other]

theorem optional_of_null (distinct : (paramNames f).Nodup)
    (bound : InputBound g settings c f.params q.argument)
    (passed : Passed c.store q.argument arguments) {p : Param} (member : p ∈ f.params)
    (none : inputFor settings arguments p = .null) :
    settings.nullableOptions = true ∧ DenotesOption g p.type := by
  obtain ⟨empty, -⟩ | ⟨index, a, members, argument, found, fields, carried⟩ := bound
  · rw [empty] at member
    cases member
  · rw [argument] at passed
    cases passed with
    | one value =>
      obtain ⟨given, rfl, conforms⟩ := value.object_of_nonNull
      obtain ⟨m, t, declared, type⟩ := carries_lookup carried distinct member
      rw [← fields] at declared
      unfold argumentType at type
      split at type
      · rename_i optional
        rw [Bool.and_eq_true] at optional
        exact ⟨optional.1, denotesOption_of_isOption optional.2⟩
      · have required : m.type.isNonNull = true := by rw [type]; rfl
        obtain ⟨v, there, some⟩ := conforms.member found declared required
        simp [inputFor, Json.member?, there, some] at none

theorem Resolver.run_of_perm (r : Resolver) (host : Host) {members members' : List (String × Json)}
    (keys : (members.map Prod.fst).Nodup)
    (same : (members.filter fun m => r.params.contains m.1).Perm
      (members'.filter fun m => r.params.contains m.1)) (calls : List Call) :
    r.run host [(r.argument, .obj members)] calls =
      r.run host [(r.argument, .obj members')] calls := by
  have lookup : ∀ p ∈ r.params, members.lookup p = members'.lookup p := by
    intro p member
    have known : r.params.contains p = true := List.contains_iff_mem.mpr member
    rw [← lookup_filter_key known members, ← lookup_filter_key known members']
    exact lookup_of_perm same (keys.sublist (List.filter_sublist.map _)) p
  have positional : r.positional [(r.argument, .obj members)] =
      r.positional [(r.argument, .obj members')] := by
    simp only [Resolver.positional, List.lookup_cons_self, Option.getD_some]
    exact congrArg _ (List.map_congr_left fun p member => by rw [lookup p member])
  have own : ∀ p, ([(r.argument, Json.obj members)].lookup p).isSome =
      ([(r.argument, Json.obj members')].lookup p).isSome := by
    intro p
    cases h : p == r.argument <;> simp [List.lookup_cons, h]
  simp only [Resolver.run, Resolver.ready, positional, own]

/-- A call that is made has one argument for each parameter, in declared order: the member of the
parameter's name, and `null` only for an option where the settings allow options to be left out. An
input with other members besides, or with its members in another order, makes the same calls. -/
theorem arguments_marshalled {exportName : String}
    (ok : (bind g settings c exportName f).result = .ok q) (distinct : (paramNames f).Nodup)
    (own : settings.inputArgumentName ∉ ownParameters) :
    (∀ host arguments calls,
      Passed (bind g settings c exportName f).converter.store q.argument arguments →
      (∃ n, (q.resolver.run host arguments calls).calls = calls ++ List.replicate n
          ⟨fieldName exportName, f.params.map (inputFor settings arguments)⟩ ∧
        ∀ answer, host.natives.find? (fieldName exportName) = some (.function answer) →
          host.policy.maxAttempts ≤ 1 ∨ host.retryAvailable = true → 0 < n) ∧
      ∀ p ∈ f.params, inputFor settings arguments p = .null →
        settings.nullableOptions = true ∧ DenotesOption g p.type) ∧
    ∀ host members members' calls, (members.map Prod.fst).Nodup →
      (members.filter fun m => (paramNames f).contains m.1).Perm
        (members'.filter fun m => (paramNames f).contains m.1) →
      q.resolver.run host [(settings.inputArgumentName, .obj members)] calls =
        q.resolver.run host [(settings.inputArgumentName, .obj members')] calls := by
  obtain ⟨bound, resolver⟩ := bind_bound ok
  rw [resolver]
  constructor
  · intro host arguments calls passed
    have positional := positional_of_passed bound passed f.name (fieldName exportName)
    exact ⟨run_calls (own_absent bound passed own) positional calls,
      fun p => optional_of_null distinct bound passed⟩
  · intro host members members' calls keys same
    exact Resolver.run_of_perm ⟨_, _, paramNames f, settings.inputArgumentName⟩ host keys same calls

end Marshalling

def nicknames : Graph :=
  { types :=
      [⟨.alias (.node 1), .str "nickname", none, .null, .null⟩,
        ⟨.option (.primitive .string), .null, none, .null, .null⟩]
    worlds := []
    interfaces := []
    packages := [] }

def greet : Function :=
  ⟨.str "greet", [⟨.str "first-name", .primitive .string⟩, ⟨.str "nick", .node 0⟩], none,
    .freestanding, .null, .null, .null⟩

def lenient : Settings := { Settings.default with nullableOptions := true }

def greetField : QueryField :=
  ⟨.scalar .boolean, some ("input", .nonNull (.aggregate .input 0)), .null,
    ⟨.str "greet", "greet", ["firstName", "nick"], "input"⟩⟩

theorem bind_greet : (bind nicknames lenient .empty "greet" greet).result = .ok greetField ∧
    (bind nicknames lenient .empty "greet" greet).converter.store =
      ⟨[], [⟨.input, "GreetInput", .null, [("firstName", ⟨.nonNull (.scalar .string), .null⟩),
        ("nick", ⟨.scalar .string, .null⟩)]⟩]⟩ := by
  have first : Converter.convert nicknames .empty .input (.primitive .string) =
      (.empty, [], .ok (.scalar .string)) := by
    simp only [Converter.convert, convert_eq_evaluated]
    rfl
  have nick : Converter.convert nicknames .empty .input (.node 0) =
      (⟨.empty, ⟨⟨[(1, .scalar .string)]⟩, [], [], 0, []⟩⟩, [.converting .input 1 .null],
        .ok (.scalar .string)) := by
    simp only [Converter.convert, convert_eq_evaluated]
    rfl
  have denoted : nicknames.denoted 0 = .ok 1 := (Graph.denotedWithin_eq nicknames 0).symm
  have optional : isOption nicknames (.node 0) = true := by
    simp only [isOption, Graph.resolveAlias, denoted]
    rfl
  have required : isOption nicknames (.primitive .string) = false := rfl
  have bound : bindParams nicknames true .empty [] [] greet.params =
      ⟨⟨.empty, ⟨⟨[(1, .scalar .string)]⟩, [], [], 0, []⟩⟩, [.converting .input 1 .null],
        .ok [("firstName", ⟨.nonNull (.scalar .string), .null⟩),
          ("nick", ⟨.scalar .string, .null⟩)]⟩ := by
    simp only [bindParams, greet, first, nick, optional, required]
    rfl
  simp only [bind, bindArgument, lenient, bound]
  exact ⟨rfl, rfl⟩

def ada : List (String × Json) := [("nick", .null), ("firstName", .str "Ada")]

def adaAged : List (String × Json) := [("firstName", .str "Ada"), ("age", .int 36), ("nick", .null)]

/-- The name is given last and passed first; the nickname may be missing, and an age is not asked
for. -/
theorem greet_marshalled :
    (bind nicknames lenient .empty "greet" greet).result = .ok greetField ∧
    DenotesOption nicknames (.node 0) ∧ ∀ host calls,
      (∃ n, (greetField.resolver.run host [("input", .obj ada)] calls).calls =
        calls ++ List.replicate n ⟨"greet", [.str "Ada", .null]⟩) ∧
      greetField.resolver.run host [("input", .obj ada)] calls =
        greetField.resolver.run host [("input", .obj adaAged)] calls := by
  obtain ⟨field, store⟩ := bind_greet
  have distinct : paramNames greet = ["firstName", "nick"] := rfl
  obtain ⟨marshalled, blind⟩ := arguments_marshalled field (distinct ▸ by decide) (by decide)
  have passed : Passed (bind nicknames lenient .empty "greet" greet).converter.store
      greetField.argument [("input", .obj ada)] := by
    rw [store]
    refine .one (.nonNull (.object rfl (by decide) ?_ ?_ ?_) (by simp))
    · exact List.forall_mem_cons.mpr ⟨⟨_, rfl⟩, List.forall_mem_singleton.mpr ⟨_, rfl⟩⟩
    · refine List.forall_mem_cons.mpr ⟨?_, List.forall_mem_singleton.mpr ?_⟩
      · intro d declared
        cases declared
        exact .null rfl
      · intro d declared
        cases declared
        exact .nonNull (.scalar rfl) (by simp)
    · simp [ada, Ty.isNonNull]
  refine ⟨field, ?_, fun host calls => ⟨?_, ?_⟩⟩
  · have nick : (⟨.str "nick", .node 0⟩ : Param) ∈ greet.params :=
      List.mem_cons_of_mem _ (List.mem_singleton_self _)
    exact ((marshalled ⟨[], ⟨1, .none, 0.0⟩, false⟩ _ [] passed).2 _ nick rfl).2
  · obtain ⟨⟨n, made, -⟩, -⟩ := marshalled host _ calls passed
    exact ⟨n, made⟩
  · apply blind host ada adaAged calls (by decide)
    rw [distinct]
    exact .swap ..

end Binding

end WitSchema
