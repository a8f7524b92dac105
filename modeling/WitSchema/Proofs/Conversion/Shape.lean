import WitSchema.Proofs.Conversion.Run

/-! The shape of converted types, kind by kind. After calls that all succeeded
the type of every cached node is the one that its kind asks for, in terms of
the types of the references in it, and every call gave the type that the
converter has for its reference. The name of an aggregate, its description and
its members are read off the kind of its node. -/

namespace WitSchema.Conversion

open GraphQL Wit Wit.Graph

def typeName (direction : Direction) (sort : String) (id : Nat) (name : Json) : String :=
  if name.isTruthy then Name.pascal name.text ++ (if direction = .input then "Input" else "")
  else sort ++ "_" ++ toString id ++ (if direction = .input then "_Input" else "")

/-- The aggregate `t` has the name and the description, and its fields are the given ones inserted
in order. A field without a type is none. -/
def IsAggregate (direction : Direction) (s : Side) (t : Ty) (name : String) (docs : Json)
    (fields : List (String × Option Ty × Json)) : Prop :=
  ∃ index members, t = .aggregate direction index ∧
    fields = members.map (fun m => (m.1, some m.2.type, m.2.description)) ∧
    s.aggregates[index]? = some ⟨direction, name, docs, insertPairs members⟩

/-- What the type of a node has to be, given the types of the references in its kind. -/
def Equation (g : Graph) (direction : Direction) (s : Side) (id : Nat) (node : TypeDef)
    (t : Ty) : Prop :=
  match node.kind with
  | .alias target => s.look? g target = some t
  | .record fields =>
    IsAggregate direction s t (typeName direction "Record" id node.name) node.docs
      (fields.map fun f => (Name.camel f.name.text, s.look? g f.type, f.docs))
  | .variant cases =>
    IsAggregate direction s t (typeName direction "Variant" id node.name) node.docs
      (("type", some (.scalar .string), .str "Name of the active case.") ::
        cases.filterMap fun c => c.payload.bind fun ref =>
          if Name.camel c.name.text = "type" then none
          else some (Name.camel c.name.text, s.look? g ref, c.docs))
  | .result ok err =>
    IsAggregate direction s t
      ("Result_" ++ toString id ++ (if direction = .input then "_Input" else "")) node.docs
      [("ok", ok.elim (some (.scalar .boolean)) (s.look? g), .null),
        ("error", err.elim (some (.scalar .string)) (s.look? g), .null)]
  | .list element => ∃ serial item, s.look? g element = some item ∧ t = .list direction serial item
  | .option inner => s.look? g inner = some t
  | .tuple types => ∃ (serial : Nat) (items : List Ty), types.map (s.look? g) = items.map some ∧
      t = .list direction serial (items.head?.getD (.scalar .string))
  | .enum _ | .flags _ | .handle .. | .resource | .future _ | .stream _ => t = .scalar .string
  | .unrecognised _ => False

theorem aggregateName_ok {direction : Direction} {sort : String} {id : Nat} {name : Json}
    {text : String} (h : aggregateName direction sort id name = .ok text) :
    text = typeName direction sort id name := by
  unfold aggregateName at h
  unfold typeName
  by_cases ht : name.isTruthy = true
  · rw [if_pos ht] at h ⊢
    cases name with
    | str own =>
      simp only [pascalOf, Except.map, Except.ok.injEq] at h
      rw [← h]
      cases direction <;> rfl
    | _ => simp [pascalOf, Except.map] at h
  · rw [if_neg ht] at h ⊢
    cases h
    cases direction <;> rfl

section Slots

variable {look : TypeRef → Option Ty} {slots : List Slot}

def Slot.field (look : TypeRef → Option Ty) (slot : Slot) : String × Option Ty × Json :=
  (slot.name, slot.type.elim (some (.scalar slot.fallback)) look, slot.docs)

theorem map_field (h : ∀ ref ∈ slots.filterMap (·.type), (look ref).isSome) :
    slots.map (Slot.field look) =
      (slots.map (Slot.entry look)).map fun m => (m.1, some m.2.type, m.2.description) := by
  rw [List.map_map]
  refine List.map_congr_left fun slot hslot => ?_
  unfold Slot.field Function.comp Slot.entry
  cases ht : slot.type with
  | none => rfl
  | some ref =>
    obtain ⟨t, hl⟩ := Option.isSome_iff_exists.mp
      (h ref (List.mem_filterMap.mpr ⟨slot, hslot, ht⟩))
    simp [hl]

theorem map_field_slot? (cases : List Case) :
    (cases.filterMap Case.slot?).map (Slot.field look) =
      cases.filterMap fun c => c.payload.bind fun ref =>
        if Name.camel c.name.text = "type" then none
        else some (Name.camel c.name.text, look ref, c.docs) := by
  rw [List.map_filterMap]
  refine List.filterMap_congr fun c _ => ?_
  unfold Case.slot?
  cases c.payload with
  | none => rfl
  | some ref =>
    by_cases ht : Name.camel c.name.text = "type"
    · simp [ht]
    · simp [ht, Slot.field]

end Slots

section Kinds

variable {g : Graph} {direction : Direction} {s : Side} {id : Nat} {node : TypeDef} {t : Ty}

theorem isAggregate_of_describes {notices : List Notice} {name : String} {docs : Json}
    {slots : List Slot} (h : (Recipe.named notices name docs slots).Describes g direction s t) :
    IsAggregate direction s t name docs (slots.map (Slot.field (s.look? g))) := by
  unfold Recipe.named at h
  cases hc : checkTypeName name with
  | error e =>
    rw [hc] at h
    exact h.elim
  | ok _ =>
    rw [hc] at h
    obtain ⟨index, ht, hagg, hl⟩ := h
    exact ⟨index, _, ht, map_field hl, hagg⟩

theorem equation_of_describes (h : (recipe direction id node).Describes g direction s t) :
    Equation g direction s id node t := by
  unfold recipe at h
  unfold Equation
  cases hk : node.kind with
  | record fields =>
    simp only [hk, recordRecipe] at h ⊢
    cases hp : recordParts direction id node.name fields with
    | error e =>
      rw [hp] at h
      exact h.elim
    | ok parts =>
      obtain ⟨hname, hslots⟩ := recordParts_ok hp
      rw [hp] at h
      have hagg := isAggregate_of_describes h
      rw [hslots, List.map_map] at hagg
      exact aggregateName_ok hname ▸ hagg
  | variant cases =>
    simp only [hk, variantRecipe] at h ⊢
    cases hn : aggregateName direction "Variant" id node.name with
    | error e =>
      simp only [hn] at h
      exact h.elim
    | ok name =>
      rcases hs : caseSlots id node.name cases with ⟨notices, e | slots⟩
      · simp only [hn, hs] at h
        exact h.elim
      · simp only [hn, hs] at h
        have hagg := isAggregate_of_describes h
        rw [caseSlots_ok hs, List.map_cons, map_field_slot?] at hagg
        exact aggregateName_ok hn ▸ hagg
  | result ok err =>
    simp only [hk] at h ⊢
    have hagg := isAggregate_of_describes h
    have hname : resultName direction id =
        "Result_" ++ toString id ++ (if direction = .input then "_Input" else "") := by
      cases direction <;> rfl
    rw [hname] at hagg
    exact hagg
  | «alias» target =>
    simp only [hk] at h ⊢
    cases target with
    | primitive p =>
      cases h
      rfl
    | node index => exact h
  | _ =>
    simp only [hk] at h ⊢
    exact h

end Kinds

/-- After a run of calls that all succeed, each call gave the type that the converter has for its
reference, and every cached node has the type that its kind asks for. -/
theorem run_satisfies_equations (g : Graph) (calls : List (Direction × TypeRef))
    (ok : ∀ r ∈ (Converter.empty.run g calls).2, ∃ t, r = .ok t) :
    List.Forall₂ (fun call r => ∃ t, r = .ok t ∧
        ((Converter.empty.run g calls).1.side call.1).look? g call.2 = some t)
      calls (Converter.empty.run g calls).2 ∧
    ∀ direction id t, ((Converter.empty.run g calls).1.side direction).cached? id = some t →
      ∃ node, g.types[id]? = some node ∧
        Equation g direction ((Converter.empty.run g calls).1.side direction) id node t := by
  obtain ⟨hsettled, hcalls⟩ := (Converter.settled_empty g).run ok
  refine ⟨hcalls, fun direction id t hc => ?_⟩
  have hidle := hsettled.idle direction
  obtain ⟨node, found, hdesc⟩ := hsettled.sound direction id t hc (hidle ▸ List.not_mem_nil)
  exact ⟨node, found, equation_of_describes hdesc⟩

theorem forest_satisfies_equations :
    (∀ r ∈ (Converter.empty.run forest Converter.forestCalls).2, ∃ t, r = .ok t) ∧
      ∃ node, forest.types[0]? = some node ∧
        Equation forest .output
          ((Converter.empty.run forest Converter.forestCalls).1.side .output) 0 node
          (.list .output 0 (.aggregate .output 0)) := by
  have hok : ∀ r ∈ (Converter.empty.run forest Converter.forestCalls).2, ∃ t, r = .ok t := by
    simp [Converter.forest_results]
  have hcached : ((Converter.empty.run forest Converter.forestCalls).1.side .output).cached? 0 =
      some (.list .output 0 (.aggregate .output 0)) := by
    simp only [Converter.forestCalls, Converter.run, Converter.convert, convert_eq_evaluated]
    rfl
  exact ⟨hok, (run_satisfies_equations forest Converter.forestCalls hok).2 .output 0 _ hcached⟩

end WitSchema.Conversion

namespace WitSchema

open GraphQL

namespace Wit

def TypeDef.typeName (direction : Direction) (id : Nat) (node : TypeDef) : String :=
  match node.kind with
  | .record _ => Conversion.typeName direction "Record" id node.name
  | .variant _ => Conversion.typeName direction "Variant" id node.name
  | _ => Conversion.resultName direction id

def Kind.slots : Kind → List Conversion.Slot
  | .record fields => fields.map Field.slot
  | .variant cases => Conversion.discriminator :: cases.filterMap Case.slot?
  | .result ok err => Conversion.resultSlots ok err
  | _ => []

end Wit

namespace Conversion

open Wit

section Parts

variable {notices notices' : List Notice} {name name' : String} {docs docs' : Json}
  {slots slots' : List Slot}

theorem named_eq_aggregate
    (h : Recipe.named notices name docs slots = .aggregate notices' name' docs' slots') :
    name = name' ∧ docs = docs' ∧ slots = slots' := by
  rcases named_cases notices name docs slots with ⟨e, hr, _⟩ | hr
  · cases hr.symm.trans h
  · cases hr.symm.trans h
    exact ⟨rfl, rfl, rfl⟩

theorem recipe_parts {direction : Direction} {id : Nat} {node : TypeDef}
    (h : recipe direction id node = .aggregate notices name docs slots) :
    name = node.typeName direction id ∧ docs = node.docs ∧ slots = node.kind.slots := by
  unfold recipe at h
  unfold Kind.slots TypeDef.typeName
  cases hk : node.kind with
  | record fields =>
    simp only [hk, recordRecipe] at h ⊢
    cases hp : recordParts direction id node.name fields with
    | error e => simp [hp] at h
    | ok parts =>
      obtain ⟨hname, hdocs, hslots⟩ := named_eq_aggregate (by simpa only [hp] using h)
      obtain ⟨hown, hfields⟩ := recordParts_ok hp
      exact ⟨hname ▸ aggregateName_ok hown, hdocs.symm, hslots ▸ hfields⟩
  | variant cases =>
    simp only [hk, variantRecipe] at h ⊢
    cases hn : aggregateName direction "Variant" id node.name with
    | error e => simp [hn] at h
    | ok own =>
      rcases hs : caseSlots id node.name cases with ⟨reported, e | payloads⟩
      · simp [hn, hs] at h
      · obtain ⟨hname, hdocs, hslots⟩ := named_eq_aggregate (by simpa only [hn, hs] using h)
        exact ⟨hname ▸ aggregateName_ok hn, hdocs.symm, by rw [← hslots, caseSlots_ok hs]⟩
  | result ok err =>
    simp only [hk] at h ⊢
    obtain ⟨hname, hdocs, hslots⟩ := named_eq_aggregate h
    exact ⟨hname.symm, hdocs.symm, hslots.symm⟩
  | «alias» target => cases target <;> simp [hk] at h
  | _ => simp [hk] at h

end Parts

theorem isAggregate_of_aggregate {g : Graph} {direction : Direction} {s : Side} {t : Ty}
    {notices : List Notice} {name : String} {docs : Json} {slots : List Slot}
    (h : (Recipe.aggregate notices name docs slots).Describes g direction s t) :
    IsAggregate direction s t name docs (slots.map (Slot.field (s.look? g))) := by
  obtain ⟨index, ht, hagg, hl⟩ := h
  exact ⟨index, _, ht, map_field hl, hagg⟩

end Conversion

end WitSchema
