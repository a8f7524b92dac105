import Mathlib.Data.List.Basic
import WitSchema.Conversion.Convert
import WitSchema.Proofs.Wit.Alias

/-! What the construction of a node consists of. The kinds of a node come down
to a few recipes: a refusal, a scalar, the type of another reference, a list,
a tuple, or an aggregate with its slots. `build_eq_recipe` says that building a
node is following its recipe, and `recipe_refs` that the recipe converts the
members of the kind. -/

namespace WitSchema

open GraphQL

namespace Wit

def Field.slot (f : Field) : Conversion.Slot :=
  ⟨Name.camel f.name.text, some f.type, .string, f.docs⟩

/-- The slot of a case: none for one without payload or one that would be called `type`. -/
def Case.slot? (c : Case) : Option Conversion.Slot :=
  c.payload.bind fun ref =>
    if Name.camel c.name.text = "type" then none
    else some ⟨Name.camel c.name.text, some ref, .string, c.docs⟩

def Kind.members : Kind → List TypeRef
  | .alias (.node index) => [.node index]
  | .record fields => fields.map (·.type)
  | .variant cases => (cases.filterMap Case.slot?).filterMap (·.type)
  | .result ok err => ok.toList ++ err.toList
  | .list element => [element]
  | .option inner => [inner]
  | .tuple types => types
  | _ => []

/-- Lists, options and tuples are cached when they are complete. -/
def Kind.isWrapper : Kind → Bool
  | .list _ | .option _ | .tuple _ => true
  | _ => false

def Kind.isList : Kind → Bool
  | .list _ | .tuple _ => true
  | _ => false

/-- Records, variants and results are cached before their members are converted. -/
def Kind.isAggregate : Kind → Bool
  | .record _ | .variant _ | .result .. => true
  | _ => false

def forest : Graph :=
  { types :=
      [⟨.list (.node 1), .null, none, .null, .null⟩,
        ⟨.record [⟨.str "children", .node 0, .null⟩], .str "node", none, .null, .null⟩]
    worlds := []
    interfaces := []
    packages := [] }

end Wit

namespace Conversion

open Wit

inductive Recipe
  | refuse (notices : List Notice) (e : Error)
  | scalar (s : Scalar)
  | same (ref : TypeRef)
  | listOf (ref : TypeRef)
  | tupleOf (refs : List TypeRef)
  | aggregate (notices : List Notice) (name : String) (docs : Json) (slots : List Slot)

namespace Recipe

def named (notices : List Notice) (name : String) (docs : Json) (slots : List Slot) : Recipe :=
  match checkTypeName name with
  | .error e => .refuse notices e
  | .ok () => .aggregate notices name docs slots

def refs : Recipe → List TypeRef
  | .refuse .. | .scalar _ => []
  | .same ref | .listOf ref => [ref]
  | .tupleOf refs => refs
  | .aggregate _ _ _ slots => slots.filterMap (·.type)

def isRefusal : Recipe → Bool
  | .refuse .. => true
  | _ => false

def isAggregate : Recipe → Bool
  | .aggregate .. => true
  | _ => false

end Recipe

def recordRecipe (direction : Direction) (id : Nat) (node : TypeDef) (fields : List Field) :
    Recipe :=
  match recordParts direction id node.name fields with
  | .error e => .refuse [] e
  | .ok (name, slots) => .named [] name node.docs slots

def variantRecipe (direction : Direction) (id : Nat) (node : TypeDef) (cases : List Case) :
    Recipe :=
  match aggregateName direction "Variant" id node.name, caseSlots id node.name cases with
  | .error e, _ => .refuse [] e
  | .ok _, (notices, .error e) => .refuse notices e
  | .ok name, (notices, .ok slots) => .named notices name node.docs (discriminator :: slots)

def recipe (direction : Direction) (id : Nat) (node : TypeDef) : Recipe :=
  match node.kind with
  | .alias (.primitive p) => .scalar (Scalar.ofPrimitive p)
  | .alias (.node index) => .same (.node index)
  | .record fields => recordRecipe direction id node fields
  | .variant cases => variantRecipe direction id node cases
  | .result ok err => .named [] (resultName direction id) node.docs (resultSlots ok err)
  | .list element => .listOf element
  | .option inner => .same inner
  | .tuple types => .tupleOf types
  | .enum _ | .flags _ | .handle .. | .resource | .future _ | .stream _ => .scalar .string
  | .unrecognised raw => .refuse [] (.unsupportedKind raw)

def tupleNotices (id : Nat) : List Ty → List Notice
  | _ :: t :: ts => [.tupleCut id ((t :: ts).length + 1)]
  | _ => []

namespace Recipe

def build (convert : Converts) (direction : Direction) (id : Nat) (s : Side) :
    Recipe → Side × Except Error Ty
  | .refuse notices e => (s.report notices, .error e)
  | .scalar x => (s, .ok (.scalar x))
  | .same ref => convert s ref
  | .listOf ref =>
    match convert s ref with
    | (s, .error e) => (s, .error e)
    | (s, .ok t) => ((s.newList direction t).1, .ok (s.newList direction t).2)
  | .tupleOf refs =>
    match convertAll convert s refs with
    | (s, .error e) => (s, .error e)
    | (s, .ok ts) =>
      let s := s.report (tupleNotices id ts)
      let item := ts.head?.getD (.scalar .string)
      ((s.newList direction item).1, .ok (s.newList direction item).2)
  | .aggregate notices name docs slots =>
    let t := Ty.aggregate direction s.aggregates.length
    let s' := ((s.report notices).allocate ⟨direction, name, docs, []⟩).put id t
    match fill convert s.aggregates.length s' slots with
    | (s, .error e) => (s, .error e)
    | (s, .ok ()) => (s, .ok t)

end Recipe

@[simp] theorem report_nil (s : Side) : s.report [] = s := by simp [Side.report]

theorem tuple_eq_build (convert : Converts) (direction : Direction) (id : Nat)
    (refs : List TypeRef) (s : Side) :
    tuple convert direction id refs s = (Recipe.tupleOf refs).build convert direction id s := by
  simp only [tuple, Recipe.build]
  rcases convertAll convert s refs with ⟨s', e | ts⟩
  · rfl
  · rcases ts with _ | ⟨t, _ | ⟨u, ts⟩⟩
    · simp [tupleNotices]
    · simp [tupleNotices]
    · simp [tupleNotices]

theorem aggregate_eq_build (convert : Converts) (direction : Direction) (id : Nat)
    (notices : List Notice) (name : String) (docs : Json) (slots : List Slot) (s : Side) :
    aggregate convert direction id name docs slots (s.report notices) =
      (Recipe.named notices name docs slots).build convert direction id s := by
  unfold aggregate Recipe.named
  cases checkTypeName name with
  | error e => rfl
  | ok _ => rfl

theorem build_eq_recipe (convert : Converts) (direction : Direction) (id : Nat) (node : TypeDef)
    (s : Side) :
    build convert direction id node s =
      (recipe direction id node).build convert direction id s := by
  unfold build recipe
  cases node.kind with
  | record fields =>
    simp only [recordRecipe]
    cases recordParts direction id node.name fields with
    | error e => simp [Recipe.build]
    | ok parts =>
      simpa using aggregate_eq_build convert direction id [] parts.1 node.docs parts.2 s
  | variant cases =>
    simp only [variantRecipe]
    cases aggregateName direction "Variant" id node.name with
    | error e => simp [Recipe.build]
    | ok name =>
      rcases caseSlots id node.name cases with ⟨notices, e | slots⟩
      · rfl
      · exact aggregate_eq_build convert direction id notices name node.docs _ s
  | result ok err =>
    simpa using aggregate_eq_build convert direction id [] (resultName direction id) node.docs
      (resultSlots ok err) s
  | tuple types => exact tuple_eq_build convert direction id types s
  | «alias» target =>
    cases target with
    | primitive p => rfl
    | node index => rfl
  | unrecognised raw => simp [Recipe.build]
  | _ => rfl

theorem camelOf_ok {name : Json} {text : String} (h : camelOf name = .ok text) :
    text = Name.camel name.text := by
  cases name <;> simp_all [camelOf, Json.text]

theorem fieldSlot_ok {f : Field} {slot : Slot} (h : fieldSlot f = .ok slot) : slot = f.slot := by
  unfold fieldSlot at h
  cases hn : camelOf f.name with
  | error e => simp [hn, Except.map] at h
  | ok name =>
    simp only [hn, Except.map, Except.ok.injEq] at h
    rw [← h, camelOf_ok hn]
    rfl

theorem mapM_fieldSlot_ok {fields : List Field} {slots : List Slot}
    (h : fields.mapM fieldSlot = .ok slots) : slots = fields.map Field.slot := by
  induction fields generalizing slots with
  | nil =>
    cases h
    rfl
  | cons f fields ih =>
    rw [List.mapM_cons] at h
    cases hf : fieldSlot f with
    | error e => simp [hf, bind, Except.bind] at h
    | ok slot =>
      cases hr : fields.mapM fieldSlot with
      | error e => simp [hf, hr, bind, Except.bind] at h
      | ok rest =>
        simp only [hf, hr, bind, Except.bind, pure, Except.pure, Except.ok.injEq] at h
        rw [← h, fieldSlot_ok hf, ih hr, List.map_cons]

theorem recordParts_ok {direction : Direction} {id : Nat} {name : Json} {fields : List Field}
    {text : String} {slots : List Slot}
    (h : recordParts direction id name fields = .ok (text, slots)) :
    aggregateName direction "Record" id name = .ok text ∧ slots = fields.map Field.slot := by
  unfold recordParts at h
  cases hn : aggregateName direction "Record" id name with
  | error e => simp [hn, bind, Except.bind] at h
  | ok own =>
    cases hf : fields.mapM fieldSlot with
    | error e => simp [hn, hf, bind, Except.bind] at h
    | ok rest =>
      simp only [hn, hf, bind, Except.bind, pure, Except.pure, Except.ok.injEq,
        Prod.mk.injEq] at h
      exact ⟨by rw [h.1], by rw [← h.2, mapM_fieldSlot_ok hf]⟩

theorem caseSlots_ok {id : Nat} {node : Json} {cases : List Case} {notices : List Notice}
    {slots : List Slot} (h : caseSlots id node cases = (notices, .ok slots)) :
    slots = cases.filterMap Case.slot? := by
  induction cases generalizing notices slots with
  | nil =>
    cases h
    rfl
  | cons c rest ih =>
    unfold caseSlots at h
    cases hp : c.payload with
    | none =>
      simp only [hp] at h
      rw [ih h, List.filterMap_cons_none]
      simp [Case.slot?, hp]
    | some ref =>
      simp only [hp] at h
      cases hn : camelOf c.name with
      | error e => simp [hn] at h
      | ok name =>
        rcases hr : caseSlots id node rest with ⟨later, e | others⟩
        · simp [hn, hr, Except.map] at h
          split at h <;> simp at h
        · have hname := camelOf_ok hn
          simp only [hn, hr, Except.map] at h
          by_cases ht : name = discriminator.name
          · have hnone : c.slot? = none := by
              simp [Case.slot?, hp, ← hname, ht, discriminator]
            simp only [ht, if_true, Prod.mk.injEq, Except.ok.injEq] at h
            rw [← h.2, List.filterMap_cons_none hnone, ih hr]
          · have hsome : c.slot? = some ⟨name, some ref, .string, c.docs⟩ := by
              have : ¬ name = "type" := ht
              simp [Case.slot?, hp, ← hname, this]
            simp only [ht, if_false, Prod.mk.injEq, Except.ok.injEq] at h
            rw [← h.2, List.filterMap_cons_some hsome, ih hr]

theorem resultSlots_refs (ok err : Option TypeRef) :
    (resultSlots ok err).filterMap (·.type) = ok.toList ++ err.toList := by
  cases ok <;> cases err <;> rfl

theorem camelOf_error {name : Json} {e : Error} (h : camelOf name = .error e) :
    e = .shape .notText := by
  cases name <;> simp_all [camelOf]

theorem aggregateName_error {direction : Direction} {sort : String} {id : Nat} {name : Json}
    {e : Error} (h : aggregateName direction sort id name = .error e) : e = .shape .notText := by
  unfold aggregateName at h
  by_cases ht : name.isTruthy = true
  · rw [if_pos ht] at h
    cases name <;> simp_all [pascalOf, Except.map]
  · rw [if_neg ht] at h
    cases h

theorem mapM_fieldSlot_error {fields : List Field} {e : Error}
    (h : fields.mapM fieldSlot = .error e) : e = .shape .notText := by
  induction fields generalizing e with
  | nil => cases h
  | cons f fields ih =>
    rw [List.mapM_cons] at h
    cases hf : fieldSlot f with
    | error e' =>
      simp only [hf, bind, Except.bind, Except.error.injEq] at h
      unfold fieldSlot at hf
      cases hn : camelOf f.name with
      | error e'' =>
        simp only [hn, Except.map, Except.error.injEq] at hf
        exact h ▸ hf ▸ camelOf_error hn
      | ok text => simp [hn, Except.map] at hf
    | ok slot =>
      cases hr : fields.mapM fieldSlot with
      | error e' =>
        simp only [hf, hr, bind, Except.bind, Except.error.injEq] at h
        exact h ▸ ih hr
      | ok rest => simp [hf, hr, bind, Except.bind, pure, Except.pure] at h

theorem recordParts_error {direction : Direction} {id : Nat} {name : Json} {fields : List Field}
    {e : Error} (h : recordParts direction id name fields = .error e) : e = .shape .notText := by
  unfold recordParts at h
  cases hn : aggregateName direction "Record" id name with
  | error e' =>
    simp only [hn, bind, Except.bind, Except.error.injEq] at h
    exact h ▸ aggregateName_error hn
  | ok own =>
    cases hf : fields.mapM fieldSlot with
    | error e' =>
      simp only [hn, hf, bind, Except.bind, Except.error.injEq] at h
      exact h ▸ mapM_fieldSlot_error hf
    | ok rest => simp [hn, hf, bind, Except.bind, pure, Except.pure] at h

theorem caseSlots_error {id : Nat} {node : Json} {cases : List Case} {notices : List Notice}
    {e : Error} (h : caseSlots id node cases = (notices, .error e)) : e = .shape .notText := by
  induction cases generalizing notices e with
  | nil => cases h
  | cons c rest ih =>
    unfold caseSlots at h
    cases hp : c.payload with
    | none => exact ih (by simpa only [hp] using h)
    | some ref =>
      cases hn : camelOf c.name with
      | error e' =>
        simp only [hp, hn, Prod.mk.injEq, Except.error.injEq] at h
        exact h.2 ▸ camelOf_error hn
      | ok name =>
        rcases hr : caseSlots id node rest with ⟨later, e' | others⟩
        · have hrest := ih hr
          simp only [hp, hn, hr, Except.map] at h
          split at h
          · exact (Except.error.inj (Prod.mk.inj h).2) ▸ hrest
          · exact (Except.error.inj (Prod.mk.inj h).2) ▸ hrest
        · simp only [hp, hn, hr, Except.map] at h
          split at h <;> simp at h

theorem checkTypeName_error {name : String} {e : Error} (h : checkTypeName name = .error e)
    (chain : List Nat) : e ≠ .typeCycle chain := by
  unfold checkTypeName at h
  rintro rfl
  split at h
  · cases h
  · split at h <;> cases h

theorem named_cases (notices : List Notice) (name : String) (docs : Json) (slots : List Slot) :
    (∃ e, Recipe.named notices name docs slots = .refuse notices e ∧
        ∀ chain, e ≠ .typeCycle chain) ∨
      Recipe.named notices name docs slots = .aggregate notices name docs slots := by
  unfold Recipe.named
  cases hc : checkTypeName name with
  | error e => exact .inl ⟨e, rfl, checkTypeName_error hc⟩
  | ok _ => exact .inr rfl

section Recipe

variable {direction : Direction} {id : Nat} {node : TypeDef}

theorem recipe_named (h : node.kind.isAggregate = true) :
    (∃ notices e, recipe direction id node = .refuse notices e ∧ ∀ chain, e ≠ .typeCycle chain) ∨
      ∃ notices name slots, recipe direction id node = .named notices name node.docs slots ∧
        slots.filterMap (·.type) = node.kind.members := by
  cases hk : node.kind with
  | record fields =>
    cases hp : recordParts direction id node.name fields with
    | error e =>
      refine .inl ⟨[], e, by simp [recipe, hk, recordRecipe, hp], ?_⟩
      rw [recordParts_error hp]
      exact fun _ => nofun
    | ok parts =>
      refine .inr ⟨[], parts.1, parts.2, by simp [recipe, hk, recordRecipe, hp], ?_⟩
      rw [(recordParts_ok hp).2, Kind.members, List.filterMap_map]
      exact congrFun List.filterMap_eq_map fields
  | variant cases =>
    cases hn : aggregateName direction "Variant" id node.name with
    | error e =>
      refine .inl ⟨[], e, by simp [recipe, hk, variantRecipe, hn], ?_⟩
      rw [aggregateName_error hn]
      exact fun _ => nofun
    | ok name =>
      rcases hs : caseSlots id node.name cases with ⟨notices, e | slots⟩
      · refine .inl ⟨notices, e, by simp [recipe, hk, variantRecipe, hn, hs], ?_⟩
        rw [caseSlots_error hs]
        exact fun _ => nofun
      · refine .inr ⟨notices, name, discriminator :: slots,
          by simp [recipe, hk, variantRecipe, hn, hs], ?_⟩
        rw [caseSlots_ok hs, Kind.members]
        rfl
  | result ok err =>
    refine .inr ⟨[], resultName direction id, resultSlots ok err, by simp [recipe, hk], ?_⟩
    rw [resultSlots_refs, Kind.members]
  | _ => simp [hk, Kind.isAggregate] at h

theorem recipe_of_isAggregate (direction : Direction) (id : Nat)
    (h : node.kind.isAggregate = true) :
    (∃ notices e, recipe direction id node = .refuse notices e ∧ ∀ chain, e ≠ .typeCycle chain) ∨
      ∃ notices name slots, recipe direction id node = .aggregate notices name node.docs slots ∧
        slots.filterMap (·.type) = node.kind.members := by
  rcases @recipe_named direction id node h with hrefuse | ⟨notices, name, slots, hr, hs⟩
  · exact .inl hrefuse
  · rcases named_cases notices name node.docs slots with ⟨e, hn, hne⟩ | hn
    · exact .inl ⟨notices, e, hr.trans hn, hne⟩
    · exact .inr ⟨notices, name, slots, hr.trans hn, hs⟩

theorem isAggregate_of_recipe (hr : (recipe direction id node).isRefusal = false)
    (ha : (recipe direction id node).isAggregate = false) : node.kind.isAggregate = false := by
  cases hk : node.kind.isAggregate with
  | false => rfl
  | true =>
    rcases recipe_of_isAggregate direction id hk with ⟨_, _, h, _⟩ | ⟨_, _, _, h, _⟩
    · simp [h, Recipe.isRefusal] at hr
    · simp [h, Recipe.isAggregate] at ha

theorem kind_isAggregate (h : (recipe direction id node).isAggregate = true) :
    node.kind.isAggregate = true := by
  unfold recipe at h
  cases hk : node.kind with
  | record | variant | result => rfl
  | «alias» target =>
    rw [hk] at h
    cases target <;> cases h
  | _ =>
    rw [hk] at h
    cases h

theorem recipe_refuse_ne_cycle {notices : List Notice} {e : Error}
    (h : recipe direction id node = .refuse notices e) (chain : List Nat) :
    e ≠ .typeCycle chain := by
  cases hk : node.kind.isAggregate with
  | true =>
    rcases recipe_of_isAggregate direction id hk with ⟨_, _, h', hne⟩ | ⟨_, _, _, h', _⟩
    · cases h.symm.trans h'
      exact hne chain
    · cases h.symm.trans h'
  | false =>
    cases hn : node.kind with
    | unrecognised raw =>
      simp only [recipe, hn, Recipe.refuse.injEq] at h
      rw [← h.2]
      exact nofun
    | «alias» target => cases target <;> simp [recipe, hn] at h
    | record | variant | result => simp [hn, Kind.isAggregate] at hk
    | _ => simp [recipe, hn] at h

theorem recipe_refs (h : (recipe direction id node).isRefusal = false) :
    (recipe direction id node).refs = node.kind.members := by
  cases hk : node.kind.isAggregate with
  | true =>
    rcases recipe_of_isAggregate direction id hk with ⟨_, _, h', _⟩ | ⟨_, _, _, h', hs⟩
    · simp [h', Recipe.isRefusal] at h
    · rw [h']
      exact hs
  | false =>
    unfold recipe
    cases hn : node.kind with
    | «alias» target => cases target <;> rfl
    | record | variant | result => simp [hn, Kind.isAggregate] at hk
    | _ => rfl

end Recipe

end Conversion

end WitSchema
