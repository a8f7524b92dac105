import WitSchema.Proofs.Binding.Complete
import WitSchema.Proofs.Binding.Marshalling
import WitSchema.Proofs.Binding.Refusal

/-! The fields of the query type. The functions that a world exports are bound in
order; of bindings that get one field name the last stands, at the place of the
first. Hyphenated names never share a field name, so none of them is lost. A
world is called empty exactly if it exports no function. -/

namespace WitSchema

open Wit

inductive Error.IsEmptyWorld : Error → Prop
  | noWorld (name) : IsEmptyWorld (.noWorld name)
  | noFunctions (world) : IsEmptyWorld (.noFunctions world)

theorem Error.IsBinding.not_emptyWorld {e : Error} (h : e.IsBinding) : ¬ e.IsEmptyWorld := by
  intro empty
  cases empty with
  | noWorld => rcases h with h | h <;> cases h
  | noFunctions => rcases h with h | h <;> cases h

namespace Binding

open Conversion GraphQL

inductive Binds (g : Graph) (settings : Settings) :
    Converter → List (String × Function) → List (String × QueryField) → Prop
  | nil {c} : Binds g settings c [] []
  | cons {c e q rest later} (bound : (bind g settings c e.1 e.2).result = .ok q)
      (others : Binds g settings (bind g settings c e.1 e.2).converter rest later) :
      Binds g settings c (e :: rest) ((fieldName e.1, q) :: later)

/-- The resolver calls the table entry of the name, with what the arguments hold; without an entry,
or where the arguments cannot be passed, it calls nothing. -/
def Resolver.Calls (r : Resolver) (name : String) : Prop :=
  ∀ host arguments call, r.ready host arguments = .ok call ↔
    call.function = r.function ∧ call.field = name ∧
      (∀ p ∈ ownParameters, arguments.lookup p = none) ∧
      r.positional arguments = .ok call.args ∧ host.natives.find? name = some call.native

theorem Resolver.calls_field (r : Resolver) : r.Calls r.field := by
  intro host arguments call
  constructor
  · intro ready
    unfold Resolver.ready at ready
    split at ready
    · cases ready
    · rename_i own
      split at ready
      · cases ready
      · rename_i args passed
        split at ready
        · cases ready
        · rename_i native entry
          cases ready
          refine ⟨rfl, rfl, fun p member => ?_, passed, entry⟩
          exact Option.not_isSome_iff_eq_none.mp (List.find?_eq_none.mp own p member)
  · rintro ⟨function, field, own, passed, entry⟩
    rw [ready_of_positional own passed, entry]
    cases call
    cases function
    cases field
    rfl

section Binds

variable {g : Graph} {settings : Settings} {c : Converter} {functions : List (String × Function)}
  {bound : List (String × QueryField)}

theorem Binds.keys (h : Binds g settings c functions bound) :
    bound.map (·.1) = functions.map fun e => fieldName e.1 := by
  induction h with
  | nil => rfl
  | cons _ _ ih => rw [List.map_cons, List.map_cons, ih]

theorem Binds.calls (h : Binds g settings c functions bound) :
    ∀ f ∈ bound, f.2.resolver.Calls f.1 := by
  induction h with
  | nil => exact List.forall_mem_nil _
  | @cons c e q rest later bound _ ih =>
    refine List.forall_mem_cons.mpr ⟨?_, ih⟩
    have field : q.resolver.field = fieldName e.1 := by rw [(bind_bound bound).2]
    rw [← field]
    exact q.resolver.calls_field

theorem Binds.split {before after : List (String × Function)} {e : String × Function}
    (h : Binds g settings c (before ++ e :: after) bound) (steady : Steady g c) :
    ∃ earlier later c' q, bound = earlier ++ (fieldName e.1, q) :: later ∧
      later.map (·.1) = after.map (fun e => fieldName e.1) ∧ Steady g c' ∧
      FieldBound g settings c' e.1 e.2 q := by
  induction before generalizing c bound with
  | nil =>
    cases h with
    | @cons _ _ q _ later made others =>
      rcases step : bind g settings c e.1 e.2 with ⟨c', notices, r⟩
      rw [step] at made
      cases made
      obtain ⟨steady', -, field⟩ := bind_ok steady step
      exact ⟨[], later, c', q, rfl, others.keys, steady', field⟩
  | cons first rest ih =>
    cases h with
    | @cons _ _ q _ later made others =>
      rcases step : bind g settings c first.1 first.2 with ⟨c', notices, r⟩
      rw [step] at made others
      cases made
      obtain ⟨steady', -, -⟩ := bind_ok steady step
      obtain ⟨earlier, later, c'', q', rfl, keys, found⟩ := ih others steady'
      exact ⟨(fieldName first.1, q) :: earlier, later, c'', q', rfl, keys, found⟩

theorem bindExports_binds {w : World} {notices : List Notice}
    {fields fields' : List (String × QueryField)} {exports : List (String × WorldItem)}
    (ok : (bindExports g settings w c notices fields exports).result = .ok fields') :
    ∃ bound, Binds g settings c
        (exports.filterMap fun e => e.2.function?.map fun f => (e.1, f)) bound ∧
      fields' = bound.foldl (fun l f => insertPair f.1 f.2 l) fields := by
  induction exports generalizing c notices fields with
  | nil =>
    cases ok
    exact ⟨[], .nil, rfl⟩
  | cons entry rest ih =>
    obtain ⟨name, item⟩ := entry
    rw [bindExports] at ok
    cases function : item.function? with
    | none =>
      simp only [function] at ok
      simpa [function] using ih ok
    | some f =>
      simp only [function] at ok
      cases made : (bind g settings c name f).result with
      | error e => simp [made] at ok
      | ok q =>
        simp only [made] at ok
        obtain ⟨later, others, same⟩ := ih ok
        refine ⟨(fieldName name, q) :: later, ?_, same⟩
        rw [List.filterMap_cons_some (by rw [function]; rfl)]
        exact .cons made others

theorem bindExports_nil {w : World} {notices : List Notice} {fields : List (String × QueryField)}
    {exports : List (String × WorldItem)}
    (none : (exports.filterMap fun e => e.2.function?.map fun f => (e.1, f)) = []) :
    (bindExports g settings w c notices fields exports).result = .ok fields := by
  induction exports generalizing notices with
  | nil => rfl
  | cons entry rest ih =>
    obtain ⟨name, item⟩ := entry
    cases function : item.function? with
    | none =>
      rw [bindExports]
      simp only [function]
      exact ih (by simpa [function] using none)
    | some f => simp [function] at none

end Binds

theorem fieldNames_nodup {functions : List (String × Function)}
    (kebab : ∀ e ∈ functions, Name.Kebab e.1) (keys : (functions.map (·.1)).Nodup) :
    (functions.map fun e => fieldName e.1).Nodup := by
  refine List.Nodup.map_on ?_ (List.Nodup.of_map _ keys)
  intro e he e' he' same
  have name : e.1 = e'.1 := Name.Kebab.camel_injective (kebab e he) (kebab e' he') same
  exact List.inj_on_of_nodup_map keys he he' name

section Schema

variable {g : Graph} {settings : Settings} {w : World}

theorem createSchema_fields {schema : Schema}
    (selected : g.world? ((settings.worldName.map Json.str).getD .null) = some w)
    (ok : (createSchema g settings).2 = .ok schema) :
    ∃ bound, Binds g settings .empty w.functionExports bound ∧
      schema.fields = insertPairs bound := by
  have ends := createSchema_ends g settings
  rw [ok] at ends
  cases ends with
  | assembled selected' result _ _ same =>
    cases selected.symm.trans selected'
    obtain ⟨bound, binds, rfl⟩ := bindExports_binds result
    obtain ⟨types, rfl, -⟩ := assemble_ok same
    exact ⟨bound, binds, rfl⟩

theorem noWorld_of_unselected
    (missing : g.world? ((settings.worldName.map Json.str).getD .null) = none) :
    ∃ e, (createSchema g settings).2 = .error e ∧ e.IsEmptyWorld := by
  unfold createSchema
  simp only [missing]
  exact ⟨_, rfl, .noWorld _⟩

theorem noFunctions_of_functionExports
    (selected : g.world? ((settings.worldName.map Json.str).getD .null) = some w)
    (none : w.functionExports = []) :
    ∃ e, (createSchema g settings).2 = .error e ∧ e.IsEmptyWorld := by
  unfold createSchema
  simp only [selected]
  rw [bindExports_nil none]
  exact ⟨_, rfl, .noFunctions _⟩

theorem functionExports_of_emptyWorld {e : Error}
    (selected : g.world? ((settings.worldName.map Json.str).getD .null) = some w)
    (failed : (createSchema g settings).2 = .error e) (empty : e.IsEmptyWorld) :
    w.functionExports = [] := by
  have ends := createSchema_ends g settings
  rw [failed] at ends
  cases ends with
  | noWorld missing => cases selected.symm.trans missing
  | unbound _ refused =>
    exact absurd empty (bindExports_explained _ _ _ _ refused).not_emptyWorld
  | noFunctions selected' nothing =>
    cases selected.symm.trans selected'
    obtain ⟨bound, binds, same⟩ := bindExports_binds nothing
    have unbound : bound = [] := by
      by_contra some
      exact insertPairs_ne_nil some same.symm
    have keys := binds.keys
    rw [unbound, List.map_nil] at keys
    exact List.map_eq_nil_iff.mp keys.symm
  | misnamed refused =>
    exact absurd empty (Error.IsBinding.not_emptyWorld (.inr (checkTypeName_naming refused)))
  | assembled _ _ _ _ same => exact absurd empty (assemble_binding same).not_emptyWorld

/-- The query type has one field for each name that a function export gets, in the order in which
the names come first, and it is the field of the last of these exports. Where the exports have
different hyphenated names it has the field of each. An empty world is reported exactly if no world
is selected or the selected one exports no function. -/
theorem roots_of_functionExports (g : Graph) (settings : Settings) :
    (∀ w schema, g.world? ((settings.worldName.map Json.str).getD .null) = some w →
      (createSchema g settings).2 = .ok schema →
      ∃ bound, Binds g settings .empty w.functionExports bound ∧
        schema.fields.map (·.1) = (w.functionExports.map fun e => Name.camel e.1).eraseDups ∧
        (∀ f ∈ schema.fields, f.2.resolver.Calls f.1 ∧
          ∃ before after, bound = before ++ f :: after ∧ f.1 ∉ after.map (·.1)) ∧
        ((∀ e ∈ w.functionExports, Name.Kebab e.1) → (w.functionExports.map (·.1)).Nodup →
          schema.fields = bound)) ∧
    ((∃ e, (createSchema g settings).2 = .error e ∧ e.IsEmptyWorld) ↔
      g.world? ((settings.worldName.map Json.str).getD .null) = none ∨
      ∃ w, g.world? ((settings.worldName.map Json.str).getD .null) = some w ∧
        w.functionExports = []) := by
  constructor
  · intro w schema selected ok
    obtain ⟨bound, binds, fields⟩ := createSchema_fields selected ok
    rw [fields]
    refine ⟨bound, binds, ?_, fun f there => ⟨?_, last_of_mem_insertPairs there⟩, ?_⟩
    · rw [map_fst_insertPairs, binds.keys]
      rfl
    · exact binds.calls f (mem_of_mem_insertPairs there)
    · intro kebab keys
      apply insertPairs_of_nodup
      rw [binds.keys]
      exact fieldNames_nodup kebab keys
  · constructor
    · rintro ⟨e, failed, empty⟩
      cases selected : g.world? ((settings.worldName.map Json.str).getD .null) with
      | none => exact .inl rfl
      | some w => exact .inr ⟨w, rfl, functionExports_of_emptyWorld selected failed empty⟩
    · rintro (missing | ⟨w, selected, none⟩)
      · exact noWorld_of_unselected missing
      · exact noFunctions_of_functionExports selected none

end Schema

def offer (name docs : String) : String × WorldItem :=
  (name, .function ⟨.str name, [], none, .freestanding, .null, .str docs, .null⟩)

def shop : World :=
  ⟨.str "shop", [offer "get-item" "By number.", ("stock", .interface .null),
    offer "getItem" "By name.", offer "pay" "All of it."], [], .null, .null⟩

def storehouse : World := ⟨.str "storehouse", [("stock", .interface .null)], [], .null, .null⟩

def market : Graph where
  types := []
  worlds := [shop, storehouse]
  interfaces := []
  packages := []

def shopSchema : Schema where
  queryType := "Query"
  fields :=
    [("getItem", ⟨.scalar .boolean, none, .str "By name.",
        ⟨.str "getItem", "getItem", [], "input"⟩⟩),
      ("pay", ⟨.scalar .boolean, none, .str "All of it.", ⟨.str "pay", "pay", [], "input"⟩⟩)]
  store := ⟨[], []⟩
  types := []

theorem createSchema_shop : (createSchema market .default).2 = .ok shopSchema := by
  have selected : market.world? ((Settings.default.worldName.map Json.str).getD .null) =
      some shop := rfl
  have bound : (bindExports market .default shop .empty [] [] shop.exports).result =
      .ok shopSchema.fields ∧
      (bindExports market .default shop .empty [] [] shop.exports).converter.store = ⟨[], []⟩ :=
    ⟨rfl, rfl⟩
  have mentions : shopSchema.fields.flatMap (·.2.mentions) = [.scalar .boolean, .scalar .boolean] :=
    rfl
  have collected : collect ⟨[], []⟩ (Store.ids ⟨[], []⟩) [.scalar .boolean, .scalar .boolean] =
      .ok [] := by
    simp [collect, Ty.named]
  unfold createSchema
  simp only [selected, bound, Schema.assemble, mentions, collected]
  rfl

/-- Two names of one field, of which the later counts; one name for each of two exports; and a world
with nothing but an interface. -/
theorem market_roots :
    (createSchema market .default).2 = .ok shopSchema ∧
    (∃ bound, Binds market .default .empty shop.functionExports bound ∧
      shopSchema.fields.map (·.1) = ["getItem", "pay"] ∧
      bound.map (·.1) = ["getItem", "getItem", "pay"] ∧
      ∀ f ∈ shopSchema.fields, f.2.resolver.Calls f.1 ∧
        ∃ before after, bound = before ++ f :: after ∧ f.1 ∉ after.map (·.1)) ∧
    (createSchema club .default).2 = .ok clubSchema ∧
    Binds club .default .empty clubWorld.functionExports clubSchema.fields ∧
    ∃ e, e.IsEmptyWorld ∧
      (createSchema market { Settings.default with worldName := some "storehouse" }).2 =
        .error e := by
  obtain ⟨bound, binds, -, fields, -⟩ :=
    (roots_of_functionExports market .default).1 shop shopSchema rfl createSchema_shop
  obtain ⟨joined, joins, -, -, kept⟩ :=
    (roots_of_functionExports club .default).1 clubWorld clubSchema rfl createSchema_club
  have kebab : ∀ e ∈ clubWorld.functionExports, Name.Kebab e.1 :=
    fun e there => List.mem_singleton.mp there ▸ Name.kebab_of_isWord rfl
  rw [← kept kebab (List.nodup_singleton _)] at joins
  have empty : market.world? ((({ Settings.default with worldName := some "storehouse" } :
      Settings).worldName.map Json.str).getD .null) = some storehouse := rfl
  obtain ⟨e, failed, reason⟩ := (roots_of_functionExports market _).2.mpr (.inr ⟨_, empty, rfl⟩)
  exact ⟨createSchema_shop, ⟨bound, binds, rfl, binds.keys, fields⟩, createSchema_club, joins,
    e, reason, failed⟩

end Binding

end WitSchema
