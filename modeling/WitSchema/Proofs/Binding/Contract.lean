import WitSchema.Proofs.Binding.Source

/-! What keeps a schema from being built. If the names in a graph are
hyphenated, a build ends with a schema, with an announced error, or because
names coincide: the query type or an object type is called like a type that
every schema has, or two types are called alike. -/

namespace WitSchema

open GraphQL Wit

/-- The names of two types coincide, or one of them is the name of a type that every schema has. -/
inductive Wit.World.Clash (w : World) (g : Graph) (queryTypeName : String) : Error → Prop
  | reservedQuery (reserved : queryTypeName ∈ reservedNames) :
      Clash w g queryTypeName (.reservedType queryTypeName)
  | reserved {id text} (used : (Source.node .output id).IsUsed w g)
      (spelled : (Source.node .output id).text? g = some text)
      (reserved : text ∈ Name.reservedTexts) :
      Clash w g queryTypeName (.reservedType (Name.pascal text))
  | query {source : Source} (used : source.IsUsed w g) (same : source.typeName g = queryTypeName) :
      Clash w g queryTypeName (.duplicateType queryTypeName)
  | shared {a b : Source} {text} (different : a ≠ b) (used : a.IsUsed w g) (used' : b.IsUsed w g)
      (spelled : a.text? g = some text) (spelled' : b.text? g = some text) :
      Clash w g queryTypeName (.duplicateType (Name.pascal text))

structure Wit.Graph.HasDistinctMembers (g : Graph) : Prop where
  fields : ∀ node ∈ g.types, ∀ fields, node.kind = .record fields →
    (fields.map (·.name.text)).Nodup
  cases : ∀ node ∈ g.types, ∀ cases, node.kind = .variant cases → (cases.map (·.name.text)).Nodup
  params : ∀ w ∈ g.worlds, ∀ e ∈ w.functionExports, (e.2.params.map (·.name.text)).Nodup

namespace Binding

open Conversion

def Excused (g : Graph) (settings : Settings) (w : World) (e : Error) : Prop :=
  e.IsDocumented ∨ w.Clash g settings.queryTypeName e

/-- What fails is excused, and what succeeds has converted only what the exports lead to. -/
def Step.IsFair (g : Graph) (settings : Settings) (w : World) {α : Type} (step : Step α) : Prop :=
  match step.result with
  | .ok _ => Confined g w step.converter
  | .error e => Excused g settings w e

section Steps

variable {g : Graph} {settings : Settings} {w : World} {c : Converter} {e : String × Function}

theorem convert_fair (kebab : g.IsKebab) (steady : Steady g c) (confined : Confined g w c)
    (exported : e ∈ w.functionExports) {direction : Direction} {ref : TypeRef}
    (member : ref ∈ e.2.refsTo direction) (notices : List Notice) :
    Step.IsFair g settings w
      ⟨(c.convert g direction ref).1, notices, (c.convert g direction ref).2.2⟩ := by
  have closed : ∀ a b, w.Uses g direction a → g.Edge a b → w.Uses g direction b :=
    fun a b => World.Uses.member
  have start : ∀ id, g.resolveAlias ref = .ok (some id) → w.Uses g direction id :=
    fun id denoted => ⟨e, exported, ref, member, id, denoted, .refl⟩
  have idle := steady.settled.idle direction
  rw [Step.IsFair]
  cases outcome : (c.convert g direction ref).2.2 with
  | error error =>
    rcases convert_error_kebab kebab closed start idle outcome with
      documented | ⟨rfl, id, node, used, found, aggregate, text, reserved, spelled, rfl⟩
    · exact .inl documented
    · refine .inr (.reserved ⟨used, node, found, aggregate⟩ ?_ reserved)
      rw [Source.text?, found]
      exact spelled
  | ok t =>
    intro other id there
    by_cases same : other = direction
    · subst same
      rw [Converter.convert_side] at there
      exact convert_cached_inside closed start idle (confined other) outcome id there
    · rw [Converter.convert_side_of_ne same] at there
      exact confined other id there

theorem bindParams_fair (kebab : g.IsKebab) (world : w ∈ g.worlds)
    (exported : e ∈ w.functionExports) {params : List Param} (own : ∀ p ∈ params, p ∈ e.2.params)
    (steady : Steady g c) (confined : Confined g w c) (nullable : Bool) (notices : List Notice)
    (fields : List (String × Member)) :
    (bindParams g nullable c notices fields params).IsFair g settings w := by
  induction params generalizing c notices fields with
  | nil => exact confined
  | cons p rest ih =>
    obtain ⟨first, others⟩ := List.forall_mem_cons.mp own
    have member : p.type ∈ e.2.refsTo .input := List.mem_map_of_mem first
    have fair := @convert_fair g settings w c e kebab steady confined exported _ _ member notices
    have kept := @Steady.convert g c steady .input p.type
    rw [bindParams]
    rcases converted : c.convert g .input p.type with ⟨c₁, new, error | t⟩
    · rw [converted] at fair
      exact fair
    · rw [converted] at fair kept
      simp only [camelOf_kebab (kebab.params w world e exported p first)]
      exact ih others (kept rfl).1 fair _ _

theorem bindArgument_fair (kebab : g.IsKebab) (world : w ∈ g.worlds)
    (exported : e ∈ w.functionExports) (steady : Steady g c) (confined : Confined g w c) :
    (bindArgument g settings c e.1 e.2.params).IsFair g settings w := by
  rw [bindArgument]
  split
  · exact confined
  · have fair := @bindParams_fair g settings w c e kebab world exported _ (fun _ member => member)
      steady confined settings.nullableOptions [] []
    rcases bound : bindParams g settings.nullableOptions c [] [] e.2.params with
      ⟨c₁, notices, error | fields⟩
    · rw [bound] at fair
      exact fair
    · rw [bound] at fair
      simp only [checkTypeName_input (kebab.exports w world e exported)]
      intro direction id there
      cases direction with
      | output => exact fair .output id there
      | input => exact fair .input id there

theorem bindResult_fair (kebab : g.IsKebab) (exported : e ∈ w.functionExports)
    (steady : Steady g c) (confined : Confined g w c) :
    (bindResult g c e.2.result).IsFair g settings w := by
  cases result : e.2.result with
  | none => exact confined
  | some ref =>
    have member : ref ∈ e.2.refsTo .output := by
      rw [Function.refsTo, result]
      exact List.mem_singleton_self ref
    exact convert_fair kebab steady confined exported member _

theorem bindField_kebab {f : Function} (params : ∀ p ∈ f.params, p.name.IsKebab)
    {argument : Option (String × Ty)} (legal : ∀ a ∈ argument, checkName a.1 = .ok ())
    (exportName : String) (type : Ty) :
    ∃ field, bindField settings exportName f type argument = .ok field := by
  have names : ∃ names, f.params.mapM (fun p => camelOf p.name) = .ok names := by
    generalize f.params = list at params
    induction list with
    | nil => exact ⟨[], rfl⟩
    | cons p rest ih =>
      obtain ⟨first, others⟩ := List.forall_mem_cons.mp params
      obtain ⟨names, known⟩ := ih others
      refine ⟨Name.camel p.name.text :: names, ?_⟩
      rw [List.mapM_cons, camelOf_kebab first, known]
      rfl
  obtain ⟨names, known⟩ := names
  have resolved : resolver settings exportName f = .ok ⟨f.name, fieldName exportName, names,
      settings.inputArgumentName⟩ := by
    rw [resolver, known]
    rfl
  refine ⟨⟨type, argument, f.docs, ⟨f.name, fieldName exportName, names,
    settings.inputArgumentName⟩⟩, ?_⟩
  rw [bindField, resolved]
  cases argument with
  | none => rfl
  | some a =>
    simp only [Option.forM, legalName_ok (legal a rfl)]
    rfl

theorem bind_fair (kebab : g.IsKebab) (world : w ∈ g.worlds)
    (legal : checkName settings.inputArgumentName = .ok ()) (exported : e ∈ w.functionExports)
    (steady : Steady g c) (confined : Confined g w c) :
    (bind g settings c e.1 e.2).IsFair g settings w := by
  have fair := @bindArgument_fair g settings w c e kebab world exported steady confined
  rw [bind]
  rcases first : bindArgument g settings c e.1 e.2.params with ⟨c₁, n₁, error | argument⟩
  · rw [first] at fair
    exact fair
  · rw [first] at fair
    obtain ⟨steady₁, -, bound⟩ := bindArgument_ok steady first
    have fair₁ := @bindResult_fair g settings w c₁ e kebab exported steady₁ fair
    rcases second : bindResult g c₁ e.2.result with ⟨c₂, n₂, error | type⟩
    · rw [second] at fair₁
      exact fair₁
    · rw [second] at fair₁
      have named : ∀ a ∈ argument, checkName a.1 = .ok () := by
        rcases bound with ⟨-, rfl⟩ | ⟨-, t, rfl, -⟩
        · intro a member
          cases member
        · intro a member
          cases member
          exact legal
      obtain ⟨field, made⟩ := @bindField_kebab settings e.2
        (kebab.params w world e exported) argument named e.1 type
      simp only [made]
      exact fair₁

theorem bindExports_fair (kebab : g.IsKebab) (world : w ∈ g.worlds)
    (legal : checkName settings.inputArgumentName = .ok ()) {exports : List (String × WorldItem)}
    (own : ∀ entry ∈ exports, ∀ f, entry.2.function? = some f → (entry.1, f) ∈ w.functionExports)
    (steady : Steady g c) (confined : Confined g w c) (notices : List Notice)
    (fields : List (String × QueryField)) :
    (bindExports g settings w c notices fields exports).IsFair g settings w := by
  induction exports generalizing c notices fields with
  | nil => exact confined
  | cons entry rest ih =>
    obtain ⟨name, item⟩ := entry
    obtain ⟨first, others⟩ := List.forall_mem_cons.mp own
    rw [bindExports]
    cases function : item.function? with
    | none => exact ih others steady confined _ _
    | some f =>
      have fair := @bind_fair g settings w c (name, f) kebab world legal (first f function) steady
        confined
      rcases bound : bind g settings c name f with ⟨c₁, n₁, error | field⟩
      · rw [bound] at fair
        simp only [bound]
        exact fair
      · rw [bound] at fair
        simp only [bound]
        exact ih others (bind_ok steady bound).1 fair _ _

end Steps

section Assembled

variable {g : Graph} {settings : Settings} {w : World} {c : Converter}
  {fields : List (String × QueryField)} {e : Error}

theorem assemble_excused (kebab : g.IsKebab) (world : w ∈ g.worlds)
    (bound : Bound g settings w.functionExports c fields) (confined : Confined g w c)
    (keys : (fields.map (·.1)).Nodup)
    (error : Schema.assemble settings.queryTypeName fields c.store = .error e) :
    Excused g settings w e := by
  -- what the fields lead to is known before the types are collected
  let schema : Schema := ⟨settings.queryTypeName, fields, c.store, []⟩
  have stands {direction : Direction} {index : Nat} (reached : schema.Reaches direction index) :
      ∃ source, Stands g settings w c fields source direction index :=
    @Bound.stands g settings w c _ _ schema bound rfl reached
  rcases assemble_error schema.reaches_closed schema.reaches_mentions error with
    ⟨f, field, illegal⟩ | ⟨direction, index, a, reached, found, illegal⟩ | ⟨name, rfl, clash⟩
  · obtain ⟨exporting, exported, own, -⟩ := bound.fields f field
    have legal := legalName_ok (kebab.exports w world _ exported).camel_free.1
    rw [own, fieldName, legal] at illegal
    cases illegal
  · obtain ⟨source, stood⟩ := stands reached
    obtain ⟨m, field, illegal⟩ := legalFields_error illegal
    rw [legalName_ok (stood.names_free bound.steady kebab world found m field).1] at illegal
    cases illegal
  · right
    cases clash with
    | query own met there same =>
      obtain ⟨source, stood⟩ := stands met
      rw [stood.nameOf bound.steady] at same
      exact own ▸ .query (stood.used bound.steady confined) (same.trans own.symm)
    | aggregates different met met' there there' own same =>
      obtain ⟨a, stood⟩ := stands met
      obtain ⟨b, stood'⟩ := stands met'
      rw [stood.nameOf bound.steady] at own
      rw [stood'.nameOf bound.steady] at same
      have used := stood.used bound.steady confined
      have used' := stood'.used bound.steady confined
      have apart : a ≠ b := by
        rintro rfl
        exact different (stood.unique keys stood')
      obtain ⟨text, spelled, spelled', named⟩ :=
        Source.text_of_typeName kebab world used used' apart (own.trans same.symm)
      rw [← own, named]
      exact .shared apart used used' spelled spelled'

end Assembled

/-- In a graph of hyphenated names, and with settings that name the query type and the argument
legally, a build fails for an announced reason, or because names coincide. -/
theorem createSchema_contract {g : Graph} {settings : Settings} (kebab : g.IsKebab)
    (query : checkName settings.queryTypeName = .ok ())
    (argument : checkName settings.inputArgumentName = .ok ()) {e : Error}
    (error : (createSchema g settings).2 = .error e) :
    e.IsDocumented ∨ ∃ w, g.world? ((settings.worldName.map Json.str).getD .null) = some w ∧
      w.Clash g settings.queryTypeName e := by
  rw [createSchema] at error
  cases selected : g.world? ((settings.worldName.map Json.str).getD .null) with
  | none =>
    rw [selected] at error
    cases error
    exact .inl (.noWorld _)
  | some w =>
    have world := mem_of_world? selected
    have empty : Confined g w .empty := by
      intro direction id there
      cases direction <;> cases there
    have own : ∀ entry ∈ w.exports, ∀ f, entry.2.function? = some f →
        (entry.1, f) ∈ w.functionExports := fun entry member f function =>
      List.mem_filterMap.mpr ⟨entry, member, by rw [function]; rfl⟩
    have fair := @bindExports_fair g settings w _ kebab world argument _ own (steady_empty g) empty
      [] []
    suffices excused : Excused g settings w e from excused.imp_right fun clash => ⟨w, rfl, clash⟩
    rcases made : bindExports g settings w .empty [] [] w.exports with ⟨c, notices, e' | fields⟩
    · simp only [selected, made] at error
      rw [made] at fair
      cases error
      exact fair
    · rw [made] at fair
      have bound := bindExports_ok (bound_empty g settings) made
      have keys : (fields.map (·.1)).Nodup :=
        @bindExports_keys g settings w .empty [] [] fields w.exports List.nodup_nil
          (congrArg Step.result made)
      simp only [selected, made] at error
      split at error
      · cases error
        exact .inl (.noFunctions _)
      · split at error
        · rename_i refused
          cases error
          obtain ⟨reserved, rfl⟩ := checkTypeName_reserved query refused
          exact .inr (.reservedQuery reserved)
        · exact assemble_excused kebab world bound fair keys error

def getUser : Function :=
  ⟨.str "get-user", [], some (.node 0), .freestanding, .null, .null, .null⟩

def getAccount : Function :=
  ⟨.str "get-account", [], some (.node 1), .freestanding, .null, .null, .null⟩

def directory : World :=
  ⟨.str "directory", [("get-user", .function getUser), ("get-account", .function getAccount)], [],
    .null, .null⟩

def twins : Graph :=
  { types :=
      [⟨.record [⟨.str "id", .primitive .u32, .null⟩], .str "user", some ⟨.interface, .int 0⟩, .null,
          .null⟩,
        ⟨.record [⟨.str "email", .primitive .string, .null⟩], .str "user",
          some ⟨.interface, .int 1⟩, .null, .null⟩]
    worlds := [directory]
    interfaces :=
      [⟨.str "people", [(.str "user", .int 0)], [], .null⟩,
        ⟨.str "accounts", [(.str "user", .int 1)], [], .null⟩]
    packages := [] }

def twinsStore : Store where
  outputs :=
    [⟨.output, "User", .null, [("id", ⟨.scalar .int, .null⟩)]⟩,
      ⟨.output, "User", .null, [("email", ⟨.scalar .string, .null⟩)]⟩]
  inputs := []

def twinsFields : List (String × QueryField) :=
  [("getUser", ⟨.aggregate .output 0, none, .null, ⟨.str "get-user", "getUser", [], "input"⟩⟩),
    ("getAccount", ⟨.aggregate .output 1, none, .null,
      ⟨.str "get-account", "getAccount", [], "input"⟩⟩)]

theorem twins_bound :
    (bindExports twins .default directory .empty [] [] directory.exports).result =
        .ok twinsFields ∧
      (bindExports twins .default directory .empty [] [] directory.exports).converter.store =
        twinsStore := by
  simp only [bindExports, WorldItem.function?, List.isEmpty_nil, if_true, bind, bindArgument,
    bindResult, Converter.convert, convert_eq_evaluated, directory, getUser, getAccount]
  exact ⟨rfl, rfl⟩

theorem createSchema_twins :
    (createSchema twins .default).2 = .error (.duplicateType "User") := by
  have selected : twins.world? ((Settings.default.worldName.map Json.str).getD .null) =
      some directory := rfl
  have ids : twinsStore.ids = [(.output, 0), (.output, 1)] := rfl
  have mentions : twinsFields.flatMap (·.2.mentions) = [.aggregate .output 0, .aggregate .output 1] :=
    rfl
  have id : checkName "id" = .ok () := rfl
  have email : checkName "email" = .ok () := rfl
  have collected : collect twinsStore twinsStore.ids (twinsFields.flatMap (·.2.mentions)) =
      .ok [(.output, 0), (.output, 1)] := by
    rw [ids, mentions]
    simp [collect, twinsStore, Ty.named, Store.get?, Aggregate.legalFields, legalName, id, email,
      Except.mapError, Except.map]
  simp only [createSchema, selected, twins_bound, Schema.assemble, collected]
  rfl

theorem directory_exports :
    directory.functionExports = [("get-user", getUser), ("get-account", getAccount)] := rfl

theorem twins_kebab : twins.IsKebab := by
  have word (text : String) (h : Name.isWord text.toList = true) : (Json.str text).IsKebab :=
    ⟨text, rfl, Name.kebab_of_isWord h⟩
  have exports : ∀ w ∈ twins.worlds, ∀ e ∈ w.functionExports, Name.Kebab e.1 ∧ e.2.params = [] := by
    intro w world e exported
    cases List.mem_singleton.mp world
    rw [directory_exports] at exported
    simp only [List.mem_cons, List.not_mem_nil, or_false] at exported
    rcases exported with rfl | rfl
    · exact ⟨⟨"get".toList, ["user".toList], by decide, by decide, by decide⟩, rfl⟩
    · exact ⟨⟨"get".toList, ["account".toList], by decide, by decide, by decide⟩, rfl⟩
  constructor
  · intro node member
    simp only [twins, List.mem_cons, List.not_mem_nil, or_false] at member
    rcases member with rfl | rfl
    · apply TypeDef.isKebab_of_record rfl (word "user" (by decide))
      exact List.forall_mem_singleton.mpr (word "id" (by decide))
    · apply TypeDef.isKebab_of_record rfl (word "user" (by decide))
      exact List.forall_mem_singleton.mpr (word "email" (by decide))
  · exact fun w world e exported => (exports w world e exported).1
  · intro w world e exported p member
    rw [(exports w world e exported).2] at member
    exact absurd member List.not_mem_nil

theorem twins_clash :
    twins.IsKebab ∧ (createSchema twins .default).2 = .error (.duplicateType "User") ∧
      directory.Clash twins "Query" (.duplicateType "User") := by
  have query : checkName Settings.default.queryTypeName = .ok () := rfl
  have argument : checkName Settings.default.inputArgumentName = .ok () := rfl
  rcases createSchema_contract twins_kebab query argument createSchema_twins with
    documented | ⟨w, selected, clash⟩
  · cases documented
  · cases selected
    exact ⟨twins_kebab, createSchema_twins, clash⟩

/-- Members have different names, and all names are legal; still there is no schema, and the error
is not an announced one. -/
theorem twins_not_built :
    twins.IsKebab ∧ twins.HasDistinctMembers ∧
      checkName Settings.default.queryTypeName = .ok () ∧
      checkName Settings.default.inputArgumentName = .ok () ∧
      (createSchema twins .default).2 = .error (.duplicateType "User") ∧
      ¬ (Error.duplicateType "User").IsDocumented := by
  refine ⟨twins_kebab, ⟨?_, ?_, ?_⟩, rfl, rfl, createSchema_twins, nofun⟩
  · intro node member
    simp only [twins, List.mem_cons, List.not_mem_nil, or_false] at member
    rcases member with rfl | rfl
    · rintro fields ⟨⟩
      exact List.pairwise_singleton ..
    · rintro fields ⟨⟩
      exact List.pairwise_singleton ..
  · intro node member
    simp only [twins, List.mem_cons, List.not_mem_nil, or_false] at member
    rcases member with rfl | rfl
    · exact nofun
    · exact nofun
  · intro w world e exported
    cases List.mem_singleton.mp world
    rw [directory_exports] at exported
    simp only [List.mem_cons, List.not_mem_nil, or_false] at exported
    rcases exported with rfl | rfl
    · exact List.nodup_nil
    · exact List.nodup_nil

end Binding

end WitSchema
