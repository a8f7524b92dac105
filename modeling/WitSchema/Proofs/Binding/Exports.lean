import WitSchema.Binding.Assembly
import WitSchema.Proofs.Conversion.Reach
import WitSchema.Proofs.Conversion.Shape

/-! Binding the exports of a world. One converter serves them all. What a step
leaves in it stays there through the later steps, so that after the last one
every bound field still has the types of the parameters and of the result of
its function. -/

namespace WitSchema.Binding

open Conversion GraphQL Wit

structure Steady (g : Graph) (c : Converter) : Prop where
  settled : c.Settled g
  layered : ∀ direction, Layered g direction (c.side direction)

structure Keeps (c c' : Converter) : Prop where
  entries : ∀ direction, (c.side direction).cache.entries <+: (c'.side direction).cache.entries
  aggregates : ∀ direction, (c.side direction).aggregates <+: (c'.side direction).aggregates

section Converter

variable {g : Graph} {c c' c'' : Converter}

theorem Keeps.refl (c : Converter) : Keeps c c :=
  ⟨fun _ => List.prefix_rfl, fun _ => List.prefix_rfl⟩

theorem Keeps.trans (h : Keeps c c') (h' : Keeps c' c'') : Keeps c c'' :=
  ⟨fun d => (h.entries d).trans (h'.entries d), fun d => (h.aggregates d).trans (h'.aggregates d)⟩

theorem Keeps.look (h : Keeps c c') {direction : Direction} {ref : TypeRef} {t : Ty}
    (hl : (c.side direction).look? g ref = some t) : (c'.side direction).look? g ref = some t :=
  look?_of_isPrefix (h.entries direction) hl

theorem steady_empty (g : Graph) : Steady g .empty := by
  refine ⟨Converter.settled_empty g, fun direction => ?_⟩
  cases direction <;> exact layered_empty g _

theorem Steady.convert (h : Steady g c) {direction : Direction} {ref : TypeRef} {t : Ty}
    (ok : (c.convert g direction ref).2.2 = .ok t) :
    Steady g (c.convert g direction ref).1 ∧ Keeps c (c.convert g direction ref).1 ∧
      ((c.convert g direction ref).1.side direction).look? g ref = some t := by
  obtain ⟨hsettled, hlook⟩ := h.settled.convert ok
  have hlayered := Converter.convert_keeps (fun _ _ layered => layered.of_cache rfl)
    (fun _ s ref => convert_layered s ref) h.layered direction ref
  have hextends := convert_extends g direction (c.side direction) ref
  refine ⟨⟨hsettled, hlayered⟩, ⟨Converter.convert_entries g c direction ref, fun other => ?_⟩,
    hlook⟩
  by_cases ho : other = direction
  · subst ho
    rw [Converter.convert_side]
    exact hextends.aggregates
  · simp only [Converter.convert_side_of_ne ho, List.prefix_rfl]

theorem Steady.allocate (h : Steady g c) (a : Aggregate) :
    Steady g (c.set .input (c.input.allocate a)) ∧
      Keeps c (c.set .input (c.input.allocate a)) := by
  have hprefix : c.input.aggregates <+: (c.input.allocate a).aggregates := List.prefix_append ..
  constructor
  · refine ⟨⟨fun direction => ?_, fun direction => ?_, fun direction => ?_⟩, fun direction => ?_⟩
    · cases direction with
      | output => exact h.settled.sound .output
      | input =>
        exact (h.settled.sound .input).mono List.prefix_rfl hprefix fun _ _ hc hb => ⟨hc, hb⟩
    · cases direction with
      | output => exact h.settled.owned .output
      | input => exact (h.settled.owned .input).of_cache rfl hprefix.length_le
    · cases direction with
      | output => exact h.settled.idle .output
      | input => exact h.settled.idle .input
    · cases direction with
      | output => exact h.layered .output
      | input => exact h.layered .input
  · refine ⟨fun direction => ?_, fun direction => ?_⟩
    · cases direction <;> exact List.prefix_rfl
    · cases direction with
      | output => exact List.prefix_rfl
      | input => exact hprefix

end Converter

/-- The type of a parameter: required unless it is an option that may be left out. -/
def argumentType (g : Graph) (nullableOptions : Bool) (p : Param) (t : Ty) : Ty :=
  if nullableOptions && isOption g p.type then t else .nonNull t

@[simp] theorem named_argumentType (g : Graph) (nullableOptions : Bool) (p : Param) (t : Ty) :
    (argumentType g nullableOptions p t).named = t.named := by
  unfold argumentType
  split <;> rfl

def paramField (g : Graph) (nullableOptions : Bool) (look : TypeRef → Option Ty) (p : Param) :
    String × Option Ty × Json :=
  (Name.camel p.name.text, (look p.type).map (argumentType g nullableOptions p), .null)

def ArgumentBound (g : Graph) (settings : Settings) (c : Converter) (exportName : String)
    (params : List Param) (argument : Option (String × Ty)) : Prop :=
  params = [] ∧ argument = none ∨
    params ≠ [] ∧ ∃ t, argument = some (settings.inputArgumentName, .nonNull t) ∧
      IsAggregate .input (c.side .input) t (Name.pascal exportName ++ "Input") .null
        (params.map (paramField g settings.nullableOptions ((c.side .input).look? g)))

structure FieldBound (g : Graph) (settings : Settings) (c : Converter) (exportName : String)
    (f : Function) (q : QueryField) : Prop where
  result : f.result.elim (some (.scalar .boolean)) ((c.side .output).look? g) = some q.type
  argument : ArgumentBound g settings c exportName f.params q.argument

section Field

variable {g : Graph} {settings : Settings} {nullable : Bool} {c c' : Converter}
  {params : List Param} {members : List (String × Member)}

def typed (m : String × Member) : String × Option Ty × Json :=
  (m.1, some m.2.type, m.2.description)

theorem param_of_field {look : TypeRef → Option Ty}
    (h : params.map (paramField g nullable look) = members.map typed) {m : String × Member}
    (field : m ∈ insertPairs members) : ∃ p ∈ params, m.1 = Name.camel p.name.text ∧
      ∃ t, look p.type = some t ∧ m.2.type = argumentType g nullable p t := by
  have made : typed m ∈ params.map (paramField g nullable look) :=
    h ▸ List.mem_map_of_mem (mem_of_mem_insertPairs field)
  obtain ⟨p, there, same⟩ := List.mem_map.mp made
  simp only [paramField, typed, Prod.mk.injEq] at same
  obtain ⟨t, looked, type⟩ := Option.map_eq_some_iff.mp same.2.1
  exact ⟨p, there, same.1.symm, t, looked, type.symm⟩

theorem looked_of_typed {look : TypeRef → Option Ty}
    (h : params.map (paramField g nullable look) = members.map typed) :
    ∀ p ∈ params, (look p.type).isSome = true := by
  intro p hp
  have hmem : paramField g nullable look p ∈ members.map typed := h ▸ List.mem_map_of_mem hp
  obtain ⟨m, _, hm⟩ := List.mem_map.mp hmem
  have hsome : some m.2.type = (look p.type).map (argumentType g nullable p) :=
    congrArg (·.2.1) hm
  cases hl : look p.type with
  | none => simp [hl] at hsome
  | some t => rfl

theorem map_paramField (keeps : Keeps c c')
    (h : ∀ p ∈ params, ((c.side .input).look? g p.type).isSome = true) :
    params.map (paramField g nullable ((c'.side .input).look? g)) =
      params.map (paramField g nullable ((c.side .input).look? g)) := by
  refine List.map_congr_left fun p hp => ?_
  obtain ⟨t, ht⟩ := Option.isSome_iff_exists.mp (h p hp)
  unfold paramField
  rw [ht, keeps.look ht]

theorem ArgumentBound.looked {exportName : String} {argument : Option (String × Ty)}
    (h : ArgumentBound g settings c exportName params argument) :
    ∀ p ∈ params, ((c.side .input).look? g p.type).isSome = true := by
  rcases h with ⟨hempty, _⟩ | ⟨_, t, _, _, members, _, hfields, _⟩
  · simp [hempty]
  · exact looked_of_typed hfields

theorem ArgumentBound.mono {exportName : String} {argument : Option (String × Ty)}
    (h : ArgumentBound g settings c exportName params argument) (keeps : Keeps c c') :
    ArgumentBound g settings c' exportName params argument := by
  refine h.imp_right fun ⟨takes, t, hq, index, members, ht, hfields, hagg⟩ => ?_
  refine ⟨takes, t, hq, index, members, ht, ?_, getElem?_of_isPrefix (keeps.aggregates .input) hagg⟩
  rw [map_paramField keeps h.looked]
  exact hfields

theorem FieldBound.mono {exportName : String} {f : Function} {q : QueryField}
    (h : FieldBound g settings c exportName f q) (keeps : Keeps c c') :
    FieldBound g settings c' exportName f q := by
  refine ⟨?_, h.argument.mono keeps⟩
  have hresult := h.result
  cases hr : f.result with
  | none =>
    rw [hr] at hresult
    exact hresult
  | some ref =>
    rw [hr] at hresult
    exact keeps.look hresult

end Field

section Bind

variable {g : Graph} {settings : Settings} {c c' : Converter} {notices notices' : List Notice}
  {exportName : String}

theorem bindParams_ok {nullable : Bool} {params : List Param} {fields fields' : List (String × Member)}
    (steady : Steady g c)
    (ok : bindParams g nullable c notices fields params = ⟨c', notices', .ok fields'⟩) :
    Steady g c' ∧ Keeps c c' ∧ ∃ members : List (String × Member),
      fields' = members.foldl (fun l m => insertPair m.1 m.2 l) fields ∧
        params.map (paramField g nullable ((c'.side .input).look? g)) = members.map typed := by
  induction params generalizing c notices fields with
  | nil =>
    cases ok
    exact ⟨steady, .refl _, [], rfl, rfl⟩
  | cons p rest ih =>
    have hconvert := @Steady.convert g c steady .input p.type
    unfold bindParams at ok
    rcases hc : c.convert g .input p.type with ⟨c₁, new, e | t⟩
    · simp [hc] at ok
    · rw [hc] at hconvert
      obtain ⟨hsteady, hkeeps, hlook⟩ := hconvert rfl
      cases hn : camelOf p.name with
      | error e => simp [hc, hn] at ok
      | ok name =>
        simp only [hc, hn] at ok
        obtain ⟨hsteady', hkeeps', members, hfields, htyped⟩ := ih hsteady ok
        refine ⟨hsteady', hkeeps.trans hkeeps',
          (name, ⟨argumentType g nullable p t, .null⟩) :: members, hfields, ?_⟩
        rw [List.map_cons, List.map_cons, htyped]
        refine congrArg (· :: _) ?_
        unfold paramField typed argumentType
        rw [hkeeps'.look hlook, camelOf_ok hn]
        rfl

theorem bindArgument_ok {params : List Param} {argument : Option (String × Ty)}
    (steady : Steady g c)
    (ok : bindArgument g settings c exportName params = ⟨c', notices', .ok argument⟩) :
    Steady g c' ∧ Keeps c c' ∧ ArgumentBound g settings c' exportName params argument := by
  unfold bindArgument at ok
  cases params with
  | nil =>
    cases ok
    exact ⟨steady, .refl _, .inl ⟨rfl, rfl⟩⟩
  | cons p rest =>
    simp only [List.isEmpty_cons, Bool.false_eq_true, if_false] at ok
    rcases hp : bindParams g settings.nullableOptions c [] [] (p :: rest) with
      ⟨c₁, notices, e | fields⟩
    · simp [hp] at ok
    · obtain ⟨hsteady, hkeeps, members, hfields, htyped⟩ := bindParams_ok steady hp
      cases hn : checkTypeName (Name.pascal exportName ++ "Input") with
      | error e => simp [hp, hn] at ok
      | ok _ =>
        simp only [hp, hn, Step.mk.injEq, Except.ok.injEq] at ok
        obtain ⟨rfl, -, rfl⟩ := ok
        obtain ⟨hsteady', hkeeps'⟩ :=
          hsteady.allocate ⟨.input, Name.pascal exportName ++ "Input", .null, fields⟩
        refine ⟨hsteady', hkeeps.trans hkeeps', .inr ⟨List.cons_ne_nil _ _, _, rfl,
          c₁.input.aggregates.length, members, rfl, ?_, ?_⟩⟩
        · rw [map_paramField hkeeps' (looked_of_typed htyped)]
          exact htyped
        · rw [hfields]
          simp [Converter.set, Converter.side, Side.allocate, insertPairs]

theorem bindResult_ok {result : Option TypeRef} {t : Ty} (steady : Steady g c)
    (ok : bindResult g c result = ⟨c', notices', .ok t⟩) :
    Steady g c' ∧ Keeps c c' ∧
      result.elim (some (.scalar .boolean)) ((c'.side .output).look? g) = some t := by
  cases result with
  | none =>
    cases ok
    exact ⟨steady, .refl _, rfl⟩
  | some ref =>
    have hconvert := @Steady.convert g c steady .output ref
    simp only [bindResult] at ok
    rcases hc : c.convert g .output ref with ⟨c₁, new, r⟩
    simp only [hc, Step.mk.injEq] at ok
    obtain ⟨rfl, -, rfl⟩ := ok
    rw [hc] at hconvert
    exact hconvert rfl

theorem exists_of_bind_ok {ε α β : Type} {x : Except ε α} {f : α → Except ε β} {b : β}
    (h : x >>= f = .ok b) : ∃ a, x = .ok a ∧ f a = .ok b := by
  cases x with
  | error e => cases h
  | ok a => exact ⟨a, rfl, h⟩

theorem bindField_ok {f : Function} {t : Ty} {argument : Option (String × Ty)} {q : QueryField}
    (ok : bindField settings exportName f t argument = .ok q) :
    q.type = t ∧ q.argument = argument := by
  obtain ⟨r, _, ok⟩ := exists_of_bind_ok ok
  obtain ⟨_, _, ok⟩ := exists_of_bind_ok ok
  cases ok
  exact ⟨rfl, rfl⟩

theorem bind_ok {f : Function} {q : QueryField} (steady : Steady g c)
    (ok : bind g settings c exportName f = ⟨c', notices', .ok q⟩) :
    Steady g c' ∧ Keeps c c' ∧ FieldBound g settings c' exportName f q := by
  simp only [bind] at ok
  rcases ha : bindArgument g settings c exportName f.params with ⟨c₁, n₁, e | argument⟩
  · simp [ha] at ok
  · obtain ⟨hsteady, hkeeps, hargument⟩ := bindArgument_ok steady ha
    rcases hr : bindResult g c₁ f.result with ⟨c₂, n₂, e | t⟩
    · simp [ha, hr] at ok
    · obtain ⟨hsteady', hkeeps', hresult⟩ := bindResult_ok hsteady hr
      simp only [ha, hr, Step.mk.injEq] at ok
      obtain ⟨rfl, -, hfield⟩ := ok
      obtain ⟨htype, harg⟩ := bindField_ok hfield
      refine ⟨hsteady', hkeeps.trans hkeeps', ?_, ?_⟩
      · rw [hresult, htype]
      · rw [harg]
        exact hargument.mono hkeeps'

end Bind

/-- What holds between the exports: every function so far has a field, and every field comes from
one of them. -/
structure Bound (g : Graph) (settings : Settings) (bound : List (String × Function))
    (c : Converter) (fields : List (String × QueryField)) : Prop where
  steady : Steady g c
  exports : ∀ e ∈ bound, ∃ q, FieldBound g settings c e.1 e.2 q
  fields : ∀ f ∈ fields, ∃ e ∈ bound, f.1 = fieldName e.1 ∧ FieldBound g settings c e.1 e.2 f.2

section Exports

variable {g : Graph} {settings : Settings} {c c' : Converter} {notices notices' : List Notice}
  {bound : List (String × Function)} {fields fields' : List (String × QueryField)}

theorem bound_empty (g : Graph) (settings : Settings) : Bound g settings [] .empty [] :=
  ⟨steady_empty g, fun _ h => (List.not_mem_nil h).elim, fun _ h => (List.not_mem_nil h).elim⟩

theorem Bound.bind (h : Bound g settings bound c fields) {exportName : String} {f : Function}
    {q : QueryField} (ok : bind g settings c exportName f = ⟨c', notices', .ok q⟩) :
    Bound g settings (bound ++ [(exportName, f)]) c'
      (insertPair (fieldName exportName) q fields) := by
  obtain ⟨hsteady, hkeeps, hfield⟩ := bind_ok h.steady ok
  refine ⟨hsteady, fun e he => ?_, fun entry hentry => ?_⟩
  · rcases List.mem_append.mp he with he | he
    · obtain ⟨q', hq'⟩ := h.exports e he
      exact ⟨q', hq'.mono hkeeps⟩
    · cases List.mem_singleton.mp he
      exact ⟨q, hfield⟩
  · rcases mem_of_mem_insertPair hentry with rfl | hentry
    · exact ⟨(exportName, f), by simp, rfl, hfield⟩
    · obtain ⟨e, he, hname, hbound⟩ := h.fields entry hentry
      exact ⟨e, List.mem_append_left _ he, hname, hbound.mono hkeeps⟩

theorem bindExports_ok {world : World} {exports : List (String × WorldItem)}
    (h : Bound g settings bound c fields)
    (ok : bindExports g settings world c notices fields exports = ⟨c', notices', .ok fields'⟩) :
    Bound g settings (bound ++ exports.filterMap fun e => e.2.function?.map fun f => (e.1, f)) c'
      fields' := by
  induction exports generalizing c notices fields bound with
  | nil =>
    cases ok
    simpa using h
  | cons entry rest ih =>
    obtain ⟨name, item⟩ := entry
    unfold bindExports at ok
    cases hf : item.function? with
    | none =>
      simp only [hf] at ok
      simpa [hf] using ih h ok
    | some f =>
      rcases hb : bind g settings c name f with ⟨c₁, n₁, e | q⟩
      · simp [hf, hb] at ok
      · simp only [hf, hb] at ok
        simpa [hf] using ih (h.bind hb) ok

end Exports

section Schema

variable {g : Graph} {settings : Settings}

inductive BuildEnds (g : Graph) (settings : Settings) : Except Error Schema → Prop
  | noWorld (missing : g.world? ((settings.worldName.map Json.str).getD .null) = none) :
      BuildEnds g settings (.error (.noWorld settings.worldName))
  | unbound {w e} (selected : g.world? ((settings.worldName.map Json.str).getD .null) = some w)
      (refused : (bindExports g settings w .empty [] [] w.exports).result = .error e) :
      BuildEnds g settings (.error e)
  | noFunctions {w} (selected : g.world? ((settings.worldName.map Json.str).getD .null) = some w)
      (nothing : (bindExports g settings w .empty [] [] w.exports).result = .ok []) :
      BuildEnds g settings (.error (.noFunctions w.name))
  | misnamed {e} (refused : checkTypeName settings.queryTypeName = .error e) :
      BuildEnds g settings (.error e)
  | assembled {w fields r}
      (selected : g.world? ((settings.worldName.map Json.str).getD .null) = some w)
      (bound : (bindExports g settings w .empty [] [] w.exports).result = .ok fields)
      (nonempty : fields ≠ []) (checked : checkTypeName settings.queryTypeName = .ok ())
      (same : Schema.assemble settings.queryTypeName fields
        (bindExports g settings w .empty [] [] w.exports).converter.store = r) :
      BuildEnds g settings r

theorem createSchema_ends (g : Graph) (settings : Settings) :
    BuildEnds g settings (createSchema g settings).2 := by
  unfold createSchema
  split
  · rename_i missing
    exact .noWorld missing
  · rename_i w selected
    dsimp only
    split
    · rename_i e refused
      exact .unbound selected refused
    · rename_i fields bound
      split
      · rename_i nothing
        obtain rfl := List.isEmpty_iff.mp nothing
        exact .noFunctions selected bound
      · rename_i nonempty
        split
        · rename_i e refused
          exact .misnamed refused
        · rename_i checked
          exact .assembled selected bound (by simpa using nonempty) checked rfl

end Schema

end WitSchema.Binding
