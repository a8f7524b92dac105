import WitSchema.Proofs.Wit.Grammar
import WitSchema.Proofs.Wit.Reading

/-! The reader accepts exactly the documents of the grammar. What it gives for a
part that is well shaped depends on the positions in it alone: a value if all of
them are legal, and the error of the first that is not otherwise. -/

namespace WitSchema

namespace Json

variable {v value : Json} {key : String} {each : Json → Prop}

theorem under_eq (h : v.member? key = some value) : v.under key = value := by
  rw [under, h, Option.getD_some]

theorem Has.item_eq (h : v.Has key) : v.item key = .ok (v.under key) := by
  obtain ⟨value, here⟩ := h
  rw [item_eq_ok here, under_eq here]

theorem Has.isObject (h : v.Has key) : v.IsObject := by
  obtain ⟨value, here⟩ := h
  exact exists_members here

theorem IsObject.get_eq (h : v.IsObject) (key : String) : v.get key = .ok (v.under key) := by
  obtain ⟨members, rfl⟩ := h
  exact get_obj members key

theorem IsObject.has_eq (h : v.IsObject) (key : String) :
    v.has key = .ok (v.member? key).isSome := by
  obtain ⟨members, rfl⟩ := h
  rfl

theorem IsList.elements_eq (h : v.IsList each) :
    v.elementsIfAny = .ok v.items ∧ ∀ item ∈ v.items, each item := by
  obtain rfl | ⟨items, rfl, shaped⟩ := h
  · exact ⟨rfl, nofun⟩
  · cases items with
    | nil => exact ⟨rfl, shaped⟩
    | cons => exact ⟨rfl, shaped⟩

theorem HasList.elements_eq (h : v.HasList each key) :
    v.item key = .ok (v.under key) ∧ (v.under key).elements = .ok (v.under key).items ∧
      ∀ item ∈ (v.under key).items, each item := by
  obtain ⟨items, here, shaped⟩ := h
  rw [item_eq_ok here, under_eq here]
  exact ⟨rfl, rfl, shaped⟩

theorem IsMap.entries_eq (h : v.IsMap each) :
    ∃ members, v.entriesIfAny = .ok members ∧ v.values = members.map (·.2) ∧
      ∀ m ∈ members, each m.2 := by
  obtain rfl | ⟨members, rfl, shaped⟩ := h
  · exact ⟨[], rfl, rfl, nofun⟩
  · refine ⟨members, ?_, rfl, shaped⟩
    cases members <;> rfl

theorem IsMap.mapping_ok (h : v.IsMap each) : ∃ entries, v.mapping = .ok entries := by
  obtain rfl | ⟨members, rfl, -⟩ := h
  · exact ⟨[], rfl⟩
  · cases members with
    | nil => exact ⟨[], rfl⟩
    | cons m rest => exact ⟨_, rfl⟩

end Json

namespace Wit

theorem first_illegal_unique {before before' after after' : List Position} {p p' : Position}
    (same : before ++ p :: after = before' ++ p' :: after') (legal : ∀ q ∈ before, q.Legal)
    (legal' : ∀ q ∈ before', q.Legal) (fault : ¬ p.Legal) (fault' : ¬ p'.Legal) : p = p' := by
  induction before generalizing before' with
  | nil =>
    cases before' with
    | nil => exact (List.cons.inj same).1
    | cons q rest =>
      obtain ⟨rfl, -⟩ := List.cons.inj same
      exact (fault (legal' p List.mem_cons_self)).elim
  | cons q rest ih =>
    cases before' with
    | nil =>
      obtain ⟨rfl, -⟩ := List.cons.inj same
      exact (fault' (legal q List.mem_cons_self)).elim
    | cons q' rest' =>
      have tails := (List.cons.inj same).2
      exact ih tails (fun r member => legal r (List.mem_cons_of_mem q member))
        fun r member => legal' r (List.mem_cons_of_mem q' member)

inductive Decided {α : Type} : Except Error α → List Position → Prop
  | ok {a positions} (legal : ∀ p ∈ positions, p.Legal) : Decided (.ok a) positions
  | error {before p after} (legal : ∀ q ∈ before, q.Legal) (fault : ¬ p.Legal) :
      Decided (.error p.error) (before ++ p :: after)

namespace Decided

variable {α β γ : Type} {outcome : Except Error α} {positions more : List Position}

theorem value (a : α) : Decided (.ok a) [] := .ok (by simp)

theorem legal_append (legal : ∀ p ∈ positions, p.Legal) (h : Decided outcome more) :
    Decided outcome (positions ++ more) := by
  cases h with
  | ok legal' => exact .ok fun p member => (List.mem_append.mp member).elim (legal p) (legal' p)
  | @error before p after legal' fault =>
    rw [← List.append_assoc]
    exact .error (fun q member => (List.mem_append.mp member).elim (legal q) (legal' q)) fault

theorem bind {next : α → Except Error β} (h : Decided outcome positions)
    (step : ∀ a, outcome = .ok a → Decided (next a) more) :
    Decided (outcome >>= next) (positions ++ more) := by
  cases h with
  | @ok a _ legal => exact legal_append legal (step a rfl)
  | @error before p after legal fault =>
    rw [List.append_assoc, List.cons_append]
    exact .error legal fault

theorem map {f : α → β} (h : Decided outcome positions) : Decided (outcome.map f) positions := by
  cases h with
  | ok legal => exact .ok legal
  | error legal fault => exact .error legal fault

theorem mapM {read : γ → Except Error α} {here : γ → List Position} {items : List γ}
    (each : ∀ item ∈ items, Decided (read item) (here item)) :
    Decided (items.mapM read) (items.flatMap here) := by
  induction items with
  | nil => exact .value []
  | cons item rest ih =>
    obtain ⟨first, others⟩ := List.forall_mem_cons.mp each
    rw [List.mapM_cons, List.flatMap_cons]
    refine first.bind fun a _ => ?_
    rw [← List.append_nil (List.flatMap here rest)]
    exact (ih others).bind fun as _ => .value (a :: as)

theorem ok_iff (h : Decided outcome positions) :
    (∃ a, outcome = .ok a) ↔ ∀ p ∈ positions, p.Legal := by
  cases h with
  | ok legal => exact ⟨fun _ => legal, fun _ => ⟨_, rfl⟩⟩
  | @error before p after legal fault =>
    refine ⟨nofun, fun all => (fault (all p ?_)).elim⟩
    exact List.mem_append_right before List.mem_cons_self

theorem error_iff (h : Decided outcome positions) (e : Error) :
    outcome = .error e ↔ ∃ before p after, positions = before ++ p :: after ∧
      (∀ q ∈ before, q.Legal) ∧ ¬ p.Legal ∧ p.error = e := by
  constructor
  · rintro rfl
    cases h with
    | error legal fault => exact ⟨_, _, _, rfl, legal, fault, rfl⟩
  · rintro ⟨before, p, after, rfl, legal, fault, rfl⟩
    generalize same : before ++ p :: after = positions at h
    cases h with
    | ok legal' =>
      subst same
      exact (fault (legal' p (List.mem_append_right before List.mem_cons_self))).elim
    | error legal' fault' => rw [first_illegal_unique same legal legal' fault fault']

end Decided

theorem Primitive.tag_of_ofTag? {tag : String} {p : Primitive} (h : ofTag? tag = some p) :
    p.tag = tag := by
  simpa using List.find?_some h

theorem FunctionKind.tag_of_ofTag? {tag : String} {k : FunctionKind} (h : ofTag? tag = some k) :
    k.tag = tag := by
  simpa using List.find?_some h

theorem TypeRef.ofJson_of_illegal {raw : Json} (illegal : ¬ (Position.reference raw).Legal) :
    TypeRef.ofJson raw = .error (.unsupportedPrimitive raw) := by
  cases raw with
  | int index => exact (illegal (.inl ⟨index, rfl⟩)).elim
  | str tag =>
    cases found : Primitive.ofTag? tag with
    | none => simp [TypeRef.ofJson, Primitive.ofJson, found, Except.map]
    | some p => exact (illegal (.inr ⟨p, by rw [Primitive.tag_of_ofTag? found]⟩)).elim
  | _ => rfl

theorem TypeRef.ofJson_decided (raw : Json) :
    Decided (TypeRef.ofJson raw) [.reference raw] := by
  by_cases legal : (Position.reference raw).Legal
  · have all : ∀ p ∈ [Position.reference raw], p.Legal := List.forall_mem_singleton.mpr legal
    obtain ⟨index, rfl⟩ | ⟨p, rfl⟩ := legal
    · rw [TypeRef.ofJson_eq (.node index)]
      exact .ok all
    · rw [TypeRef.ofJson_eq (.primitive p)]
      exact .ok all
  · rw [TypeRef.ofJson_of_illegal legal]
    exact @Decided.error _ [] _ [] nofun legal

theorem TypeRef.ofJson?_decided (raw : Json) :
    Decided (TypeRef.ofJson? raw) (optionalReference raw) := by
  unfold TypeRef.ofJson? optionalReference
  split
  · exact .value none
  · exact (TypeRef.ofJson_decided raw).map

theorem stabilityOfJson_ok {raw : Json} (shaped : StabilityShaped raw) :
    ∃ v, stabilityOfJson raw = .ok v := by
  obtain rfl | ⟨s, rfl⟩ | ⟨members, rfl⟩ := shaped
  · exact ⟨_, rfl⟩
  · exact ⟨_, rfl⟩
  · exact ⟨_, rfl⟩

theorem Field.ofJson_decided {raw : Json} (shaped : Field.WellShaped raw) :
    Decided (Field.ofJson raw) (Field.positions raw) := by
  have object := shaped.name.isObject
  simp only [Field.ofJson, shaped.name.item_eq, shaped.type.item_eq, object.get_eq, ok_bind]
  exact (TypeRef.ofJson_decided _).map

theorem Label.ofJson_decided {raw : Json} (shaped : Label.WellShaped raw) :
    Decided (Label.ofJson raw) [] := by
  have named : raw.Has "name" := shaped
  simp only [Label.ofJson, named.item_eq, named.isObject.get_eq, ok_bind]
  exact .value _

theorem Case.ofJson_decided {raw : Json} (shaped : Case.WellShaped raw) :
    Decided (Case.ofJson raw) (Case.positions raw) := by
  have named : raw.Has "name" := shaped
  simp only [Case.ofJson, named.item_eq, named.isObject.get_eq, ok_bind]
  exact (TypeRef.ofJson?_decided _).map

theorem Kind.ofTagged_unknown {raw body : Json} {tag : String} (unknown : tag ∉ Kind.tags) :
    Kind.ofTagged raw tag body = .error (.unsupportedKind raw) := by
  unfold Kind.ofTagged
  split
  all_goals first
    | rfl
    | exact (unknown (by decide)).elim

theorem handleOfJson_decided {raw body : Json} (object : body.IsObject)
    (held : body.Has "own" ∨ body.Has "borrow") : Decided (handleOfJson raw body) [] := by
  obtain ⟨members, rfl⟩ := object
  cases own : members.lookup "own" with
  | some index =>
    have here : (Json.obj members).member? "own" = some index := own
    rw [handleOfJson_own here]
    exact .value _
  | none =>
    obtain ⟨index, here⟩ | ⟨index, here⟩ := held
    · cases own.symm.trans here
    · rw [handleOfJson_borrow own here]
      exact .value _

theorem handleOfJson_unknown {raw body : Json} (object : body.IsObject)
    (missing : ¬ (body.Has "own" ∨ body.Has "borrow")) :
    handleOfJson raw body = .error (.unsupportedKind raw) := by
  obtain ⟨members, rfl⟩ := object
  have none_of {key : String} (h : ¬ (Json.obj members).Has key) : members.lookup key = none :=
    Option.eq_none_iff_forall_ne_some.mpr fun v here => h ⟨v, here⟩
  obtain ⟨own, borrow⟩ := not_or.mp missing
  simp [handleOfJson, Json.has_obj, none_of own, none_of borrow, ok_bind]

theorem Decided.list {α β : Type} {read : Json → Except Error α} {here : Json → List Position}
    {each : Json → Prop} {body : Json} {key : String} {wrap : List α → β}
    (shaped : body.HasList each key) (reads : ∀ item, each item → Decided (read item) (here item)) :
    Decided (do return wrap (← (← (← body.item key).elements).mapM read))
      ((body.under key).items.flatMap here) := by
  obtain ⟨there, elements, all⟩ := shaped.elements_eq
  simp only [there, elements, ok_bind]
  exact (Decided.mapM fun item member => reads item (all item member)).map

theorem Kind.ofTagged_decided {raw body : Json} {tag : String} (known : tag ∈ Kind.tags)
    (shaped : BodyShaped tag body) (held : tag = "handle" → body.Has "own" ∨ body.Has "borrow") :
    Decided (Kind.ofTagged raw tag body) (bodyPositions tag body) := by
  have labels (key : String) (wrap : List Label → Kind)
      (shaped : body.HasList Label.WellShaped key) :
      Decided (do return wrap (← (← (← body.item key).elements).mapM Label.ofJson)) [] := by
    have nowhere : (body.under key).items.flatMap (fun _ => ([] : List Position)) = [] :=
      List.flatMap_eq_nil_iff.mpr fun _ _ => rfl
    rw [← nowhere]
    exact .list shaped fun l => Label.ofJson_decided
  simp only [Kind.tags, List.mem_cons, List.not_mem_nil, or_false] at known
  rcases known with rfl | rfl | rfl | rfl | rfl | rfl | rfl | rfl | rfl | rfl | rfl | rfl
  -- the tags in their order
  · exact .list shaped fun f => Field.ofJson_decided
  · exact handleOfJson_decided shaped (held rfl)
  · exact labels "flags" .flags shaped
  · exact .list shaped fun type _ => TypeRef.ofJson_decided type
  · exact .list shaped fun c => Case.ofJson_decided
  · exact labels "cases" .enum shaped
  · exact (TypeRef.ofJson_decided body).map
  · have object : body.IsObject := shaped
    simp only [ofTagged, object.get_eq, ok_bind]
    exact (TypeRef.ofJson?_decided _).bind fun ok _ => (TypeRef.ofJson?_decided _).map
  · exact (TypeRef.ofJson_decided body).map
  · exact (TypeRef.ofJson?_decided body).map
  · exact (TypeRef.ofJson?_decided body).map
  · exact (TypeRef.ofJson_decided body).map

theorem Kind.ofJson_of_illegal {raw : Json} (shaped : Kind.WellShaped raw)
    (illegal : ¬ (Position.kind raw).Legal) : Kind.ofJson raw = .error (.unsupportedKind raw) := by
  match raw with
  | .obj [(tag, body)] =>
    rw [Kind.ofJson]
    by_cases known : tag ∈ Kind.tags
    · by_cases handle : tag = "handle"
      · subst handle
        refine handleOfJson_unknown shaped fun held => illegal (.inr ?_)
        exact ⟨_, body, rfl, known, fun _ => held⟩
      · exact (illegal (.inr ⟨tag, body, rfl, known, fun same => (handle same).elim⟩)).elim
    · exact ofTagged_unknown known
  | .str s =>
    by_cases resource : s = "resource"
    · exact (illegal (.inl (congrArg Json.str resource))).elim
    · unfold Kind.ofJson
      split
      · rename_i same
        exact (resource (Json.str.inj same)).elim
      · rename_i same
        cases same
      · rfl
  | .null | .bool _ | .int _ | .float _ | .arr _ | .obj [] | .obj (_ :: _ :: _) => rfl

theorem Kind.ofJson_decided {raw : Json} (shaped : Kind.WellShaped raw) :
    Decided (Kind.ofJson raw) (Kind.positions raw) := by
  by_cases legal : (Position.kind raw).Legal
  · have first : ∀ p ∈ [Position.kind raw], p.Legal := List.forall_mem_singleton.mpr legal
    obtain rfl | ⟨tag, body, rfl, known, held⟩ := legal
    · exact .ok first
    · exact Decided.legal_append first (ofTagged_decided known shaped held)
  · rw [ofJson_of_illegal shaped legal]
    exact @Decided.error _ [] _ _ nofun legal

theorem Owner.ofJson?_ok {raw : Json} (shaped : Owner.WellShaped raw) :
    ∃ owner, Owner.ofJson? raw = .ok owner := by
  obtain rfl | held := shaped
  · exact ⟨none, rfl⟩
  · cases world : raw.member? "world" with
    | some index => exact ⟨_, Owner.ofJson?_eq (.given (.world world))⟩
    | none =>
      obtain ⟨index, here⟩ | ⟨index, here⟩ := held
      · cases world.symm.trans here
      · obtain ⟨members, rfl⟩ := Json.exists_members here
        exact ⟨_, Owner.ofJson?_eq (.given (.interface world here))⟩

theorem TypeDef.ofJson_decided {raw : Json} (shaped : TypeDef.WellShaped raw) :
    Decided (TypeDef.ofJson raw) (TypeDef.positions raw) := by
  obtain ⟨owner, readOwner⟩ := Owner.ofJson?_ok shaped.owner
  obtain ⟨stability, readStability⟩ := stabilityOfJson_ok shaped.stability
  simp only [TypeDef.ofJson, shaped.kind.item_eq, shaped.kind.isObject.get_eq, readOwner,
    readStability, ok_bind]
  exact (Kind.ofJson_decided shaped.body).map

theorem Param.ofJson_decided {raw : Json} (shaped : Param.WellShaped raw) :
    Decided (Param.ofJson raw) (Param.positions raw) := by
  cases shaped with
  | object name type =>
    have named := name.item_eq
    have typed := type.item_eq
    obtain ⟨members, rfl⟩ := name.isObject
    simp only [Param.ofJson, named, typed, ok_bind]
    exact (TypeRef.ofJson_decided _).map
  | pair name type => exact (TypeRef.ofJson_decided type).map

theorem resultOfJson_decided {raw : Json} (object : raw.IsObject) :
    Decided (resultOfJson raw) (resultPositions raw) := by
  simp only [resultOfJson, resultPositions, object.get_eq, ok_bind]
  cases given : (raw.under "result").isNull with
  | false => exact (TypeRef.ofJson_decided _).map
  | true =>
    cases results : raw.under "results" with
    | obj members => exact TypeRef.ofJson?_decided _
    | _ => exact .value none

theorem FunctionKind.ofJson_decided (tag : String) :
    Decided (FunctionKind.ofJson (.str tag)) [.functionKind tag] := by
  by_cases legal : (Position.functionKind tag).Legal
  · have all : ∀ p ∈ [Position.functionKind tag], p.Legal := List.forall_mem_singleton.mpr legal
    obtain ⟨kind, rfl⟩ := legal
    rw [FunctionKind.ofJson_tag]
    exact .ok all
  · have unknown : FunctionKind.ofTag? tag = none := by
      rw [Option.eq_none_iff_forall_ne_some]
      exact fun kind found => legal ⟨kind, (FunctionKind.tag_of_ofTag? found).symm⟩
    have read : FunctionKind.ofJson (.str tag) = .error (.unknownFunctionKind (.str tag)) := by
      simp [FunctionKind.ofJson, unknown]
    rw [read]
    exact @Decided.error _ [] _ [] (List.forall_mem_nil _) legal

theorem taggedResource_ok {member : Option Json} (shaped : FunctionKind.WellShaped member) :
    ∃ resource, taggedResource (member.getD (.str "freestanding")) =
      .ok (.str (FunctionKind.tagOf member), resource) := by
  cases shaped with
  | missing => exact ⟨.null, rfl⟩
  | word tag => exact ⟨.null, rfl⟩
  | tagged tag resource => exact ⟨resource, rfl⟩

theorem Function.ofJson_decided {raw : Json} (shaped : Function.WellShaped raw) :
    Decided (Function.ofJson raw) (Function.positions raw) := by
  have object := shaped.name.isObject
  have found : raw.find "kind" = .ok (raw.member? "kind") := by
    obtain ⟨members, rfl⟩ := object
    rfl
  obtain ⟨resource, tagged⟩ := taggedResource_ok shaped.kind
  obtain ⟨params, each⟩ := shaped.params.elements_eq
  obtain ⟨stability, readStability⟩ := stabilityOfJson_ok shaped.stability
  simp only [Function.ofJson, found, tagged, shaped.name.item_eq, object.get_eq, params,
    readStability, ok_bind]
  rw [Function.positions, List.append_assoc]
  refine (Decided.mapM fun p member => Param.ofJson_decided (each p member)).bind fun ps _ => ?_
  refine (resultOfJson_decided object).bind fun result _ => ?_
  exact (FunctionKind.ofJson_decided _).map

theorem WorldItem.ofJson_decided {raw : Json} (shaped : WorldItem.WellShaped raw) :
    Decided (WorldItem.ofJson raw) (WorldItem.positions raw) := by
  simp only [WorldItem.ofJson, WorldItem.positions, shaped.object.has_eq, ok_bind]
  cases function : raw.member? "function" with
  | some f =>
    simp only [Option.isSome_some, if_true, Json.item_eq_ok function, ok_bind, Option.elim_some]
    exact (Function.ofJson_decided (shaped.function f function)).map
  | none =>
    rw [Option.elim_none]
    cases interface : raw.member? "interface" with
    | none =>
      simp only [Option.isSome_none, Bool.false_eq_true, if_false, shaped.object.get_eq, ok_bind]
      exact .value _
    | some index =>
      simp only [Option.isSome_none, Option.isSome_some, Bool.false_eq_true, if_false, if_true,
        Json.item_eq_ok interface, ok_bind]
      cases index with
      | obj members =>
        simp only [(shaped.interface members interface).item_eq, ok_bind]
        exact .value _
      | _ => exact .value _

theorem readEntries_decided {α : Type} {read : Json → Except Error α}
    {here : Json → List Position} {each : Json → Prop} {v : Json} (shaped : v.IsMap each)
    (reads : ∀ raw, each raw → Decided (read raw) (here raw)) :
    Decided (v.entriesIfAny >>= readEntries read) (v.values.flatMap here) := by
  obtain ⟨members, entries, values, all⟩ := shaped.entries_eq
  rw [entries, ok_bind, values, List.flatMap_map]
  exact .mapM fun m member => (reads m.2 (all m member)).map

theorem World.ofJson_decided {raw : Json} (shaped : World.WellShaped raw) :
    Decided (World.ofJson raw) (World.positions raw) := by
  have object := shaped.name.isObject
  simp only [World.ofJson, shaped.name.item_eq, object.get_eq, ok_bind, ← bind_assoc]
  refine (readEntries_decided shaped.exports fun i => WorldItem.ofJson_decided).bind fun _ _ => ?_
  exact (readEntries_decided shaped.imports fun i => WorldItem.ofJson_decided).map

theorem Interface.ofJson_decided {raw : Json} (shaped : Interface.WellShaped raw) :
    Decided (Interface.ofJson raw) (Interface.positions raw) := by
  obtain ⟨types, readTypes⟩ := shaped.types.mapping_ok
  simp only [Interface.ofJson, shaped.object.get_eq, readTypes, ok_bind, ← bind_assoc]
  exact (readEntries_decided shaped.functions fun f => Function.ofJson_decided).map

theorem Package.ofJson_decided {raw : Json} (shaped : Package.WellShaped raw) :
    Decided (Package.ofJson raw) [] := by
  obtain ⟨interfaces, readInterfaces⟩ := shaped.interfaces.mapping_ok
  obtain ⟨worlds, readWorlds⟩ := shaped.worlds.mapping_ok
  simp only [Package.ofJson, shaped.name.item_eq, shaped.name.isObject.get_eq, readInterfaces,
    readWorlds, ok_bind]
  exact .value _

theorem readItems_decided {α : Type} {read : Json → Except Error α}
    {here : Json → List Position} {each : Json → Prop} {v : Json} (shaped : v.IsList each)
    (reads : ∀ raw, each raw → Decided (read raw) (here raw)) :
    Decided (v.elementsIfAny >>= fun items => items.mapM read) (v.items.flatMap here) := by
  obtain ⟨elements, all⟩ := shaped.elements_eq
  rw [elements, ok_bind]
  exact .mapM fun item member => reads item (all item member)

theorem Graph.ofJson_decided {raw : Json} (shaped : Graph.WellShaped raw) :
    Decided (Graph.ofJson raw) (Graph.positions raw) := by
  have packages := readItems_decided shaped.packages fun p => Package.ofJson_decided
  rw [List.flatMap_eq_nil_iff.mpr fun _ _ => rfl] at packages
  simp only [Graph.ofJson, shaped.object.get_eq, ok_bind, ← bind_assoc]
  rw [Graph.positions, List.append_assoc]
  refine (readItems_decided shaped.types fun t => TypeDef.ofJson_decided).bind fun _ _ => ?_
  refine (readItems_decided shaped.worlds fun w => World.ofJson_decided).bind fun _ _ => ?_
  rw [← List.append_nil (List.flatMap _ _)]
  refine (readItems_decided shaped.interfaces fun i => Interface.ofJson_decided).bind fun _ _ => ?_
  exact packages.map

/-- A well-shaped document is read iff all its positions are legal. Otherwise the fault is that of
the first position that is not, and never one of shape. -/
theorem reading_accepts_grammar {raw : Json} (shaped : Graph.WellShaped raw) :
    ((∃ g, Graph.ofJson raw = .ok g) ↔ ∀ p ∈ Graph.positions raw, p.Legal) ∧
    (∀ e, Graph.ofJson raw = .error e ↔ ∃ before p after,
      Graph.positions raw = before ++ p :: after ∧ (∀ q ∈ before, q.Legal) ∧ ¬ p.Legal ∧
        p.error = e) ∧
    ∀ fault, Graph.ofJson raw ≠ .error (.shape fault) := by
  have decided := Graph.ofJson_decided shaped
  refine ⟨decided.ok_iff, decided.error_iff, fun fault read => ?_⟩
  obtain ⟨_, p, _, -, -, -, same⟩ := (decided.error_iff _).mp read
  cases p <;> cases same

def misfitJson : Json := .obj [
  ("types", .arr [.obj [("kind", .obj [("record", .obj [("fields", .arr [
    .obj [("name", .str "id"), ("type", .str "u8")],
    .obj [("name", .str "set"), ("type", .bool true)]])])])]]),
  ("worlds", .arr [.obj [("name", .str "w"), ("exports", .obj [("f", .obj [
    ("function", .obj [("name", .str "f"), ("kind", .str "odd")])])])]])]

theorem misfit_wellShaped : Graph.WellShaped misfitJson where
  object := ⟨_, rfl⟩
  types := by
    refine .inr ⟨_, rfl, List.forall_mem_singleton.mpr ⟨⟨_, rfl⟩, ⟨_, rfl, ?_⟩, .inl rfl, .inl rfl⟩⟩
    simp only [List.forall_mem_cons, List.not_mem_nil, false_implies, implies_true, and_true]
    exact ⟨⟨⟨_, rfl⟩, ⟨_, rfl⟩⟩, ⟨⟨_, rfl⟩, ⟨_, rfl⟩⟩⟩
  worlds := by
    refine .inr ⟨_, rfl, List.forall_mem_singleton.mpr ⟨⟨_, rfl⟩, .inr ⟨_, rfl, ?_⟩, .inl rfl⟩⟩
    refine List.forall_mem_singleton.mpr ⟨⟨_, rfl⟩, fun f here => ?_, nofun⟩
    cases here
    exact ⟨⟨_, rfl⟩, .inl rfl, .word "odd", .inl rfl⟩
  interfaces := .inl rfl
  packages := .inl rfl

theorem misfit_reported : Graph.WellShaped misfitJson ∧
    Graph.ofJson misfitJson = .error (.unsupportedPrimitive (.bool true)) := by
  refine ⟨misfit_wellShaped, ((reading_accepts_grammar misfit_wellShaped).2.1 _).mpr ?_⟩
  refine ⟨[.kind _, .reference (.str "u8")], .reference (.bool true), [.functionKind "odd"], rfl,
    ?_, ?_, rfl⟩
  · simp only [List.forall_mem_cons, List.not_mem_nil, false_implies, implies_true, and_true]
    exact ⟨.inr ⟨"record", _, rfl, by decide, nofun⟩, .inr ⟨.u8, rfl⟩⟩
  · rintro (⟨_, same⟩ | ⟨_, same⟩) <;> cases same

end Wit

end WitSchema
