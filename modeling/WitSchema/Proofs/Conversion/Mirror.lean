import WitSchema.Proofs.Conversion.Independence
import WitSchema.Proofs.Conversion.Layers
import WitSchema.Proofs.Conversion.Simulation
import WitSchema.Proofs.Conversion.TypeName

/-! The two directions of conversion. On fresh converters they run in step: both
fail with one error, or both succeed, and then the input type is the output type
with other names for its aggregates. -/

namespace WitSchema

namespace GraphQL

def Ty.mirror : Ty → Ty
  | .scalar x => .scalar x
  | .list _ serial item => .list .input serial item.mirror
  | .aggregate _ index => .aggregate .input index
  | .nonNull t => .nonNull t.mirror

def Member.mirror (m : Member) : Member := ⟨m.type.mirror, m.description⟩

end GraphQL

namespace Conversion

open GraphQL Wit Wit.Graph

def Recipe.rename (f : String → String) : Recipe → Recipe
  | .aggregate notices name docs slots => .aggregate notices (f name) docs slots
  | r => r

section Recipes

variable {id : Nat} {node : TypeDef}

theorem alike_rename (f : String → String) (r : Recipe) : r.Alike (r.rename f) := by
  cases r <;> constructor

theorem named_input {notices : List Notice} {name : String} {docs : Json} {slots : List Slot}
    (legal : checkTypeName name = .ok ()) :
    Recipe.named notices (name ++ node.inputSuffix) docs slots =
      (Recipe.named notices name docs slots).rename (· ++ node.inputSuffix) := by
  have hinput := checkTypeName_inputSuffix legal node
  simp only [Recipe.named, legal, hinput, Recipe.rename]

theorem recipe_input (id : Nat) (legal : node.IsNamedLegally) :
    recipe .input id node = (recipe .output id node).rename (· ++ node.inputSuffix) := by
  unfold TypeDef.IsNamedLegally at legal
  cases hk : node.kind with
  | record fields =>
    have hsuffix : node.inputSuffix = if node.name.isTruthy then "Input" else "_Input" := by
      simp [TypeDef.inputSuffix, hk]
    simp only [hk] at legal
    simp only [recipe, hk, recordRecipe, recordParts, aggregateName_input]
    rw [← hsuffix]
    cases hn : aggregateName .output "Record" id node.name with
    | error e => rfl
    | ok name =>
      have hname := checkTypeName_of_aggregateName (by simp) legal hn
      cases hf : fields.mapM fieldSlot with
      | error e => rfl
      | ok slots => exact named_input hname
  | variant cases =>
    have hsuffix : node.inputSuffix = if node.name.isTruthy then "Input" else "_Input" := by
      simp [TypeDef.inputSuffix, hk]
    simp only [hk] at legal
    simp only [recipe, hk, variantRecipe, aggregateName_input]
    rw [← hsuffix]
    cases hn : aggregateName .output "Variant" id node.name with
    | error e => rfl
    | ok name =>
      have hname := checkTypeName_of_aggregateName (by simp) legal hn
      rcases caseSlots id node.name cases with ⟨notices, e | slots⟩
      · rfl
      · exact named_input hname
  | result ok err =>
    have hsuffix : node.inputSuffix = "_Input" := by simp [TypeDef.inputSuffix, hk]
    have hname : checkTypeName (resultName .output id) = .ok () := by
      have hanonymous := @checkTypeName_anonymous "Result" (by simp) id
      simpa [resultName] using hanonymous
    simp only [recipe, hk, resultName_input]
    rw [← hsuffix]
    exact named_input hname
  | «alias» target => cases target <;> simp only [recipe, hk, Recipe.rename]
  | _ => simp only [recipe, hk, Recipe.rename]

end Recipes

/-- The second side has the types of the first one for the other direction, and has given the same
warnings. -/
structure Mirrored (s s' : Side) : Prop where
  entries : s'.cache.entries = s.cache.entries.map fun e => (e.1, e.2.mirror)
  building : s'.building = s.building
  size : s'.aggregates.length = s.aggregates.length
  lists : s'.lists = s.lists
  warnings : s'.notices.filterMap Notice.warning? = s.notices.filterMap Notice.warning?

section Mirrored

variable {s s' : Side}

theorem Mirrored.cached (h : Mirrored s s') (id : Nat) :
    s'.cached? id = (s.cached? id).map Ty.mirror := by
  unfold Side.cached? Cache.get?
  rw [h.entries, lookup_map_values]

theorem Mirrored.report (h : Mirrored s s') (notices : List Notice) :
    Mirrored (s.report notices) (s'.report notices) :=
  ⟨h.entries, h.building, h.size, h.lists, by
    simp only [Side.report, List.filterMap_append, h.warnings]⟩

theorem Mirrored.put (h : Mirrored s s') (id : Nat) (t : Ty) :
    Mirrored (s.put id t) (s'.put id t.mirror) := by
  refine ⟨?_, h.building, h.size, h.lists, h.warnings⟩
  simp only [Side.put, Cache.put, h.entries, map_insertPair]

theorem Mirrored.begin (h : Mirrored s s') (id : Nat) (f : String → String) (r : Recipe) :
    Mirrored (r.begin .output id s) ((r.rename f).begin .input id s') := by
  cases r with
  | aggregate notices name docs slots =>
    have hreport := h.report notices
    have halloc : Mirrored ((s.report notices).allocate ⟨.output, name, docs, []⟩)
        ((s'.report notices).allocate ⟨.input, f name, docs, []⟩) :=
      ⟨hreport.entries, hreport.building, by simp [Side.allocate, hreport.size], hreport.lists,
        hreport.warnings⟩
    have hput := halloc.put id (.aggregate .output s.aggregates.length)
    simp only [Recipe.rename, Recipe.begin]
    rw [h.size]
    exact hput
  | _ => exact h

theorem mirror_simulation {g : Graph} (legal : ∀ node ∈ g.types, node.IsNamedLegally) :
    Simulation g .output .input Ty.mirror Mirrored where
  scalar _ := rfl
  aggregate _ := rfl
  cached id h := h.cached id
  busy id h _ := by rw [h.building]
  chain id h _ _ := by rw [h.building]
  size h := h.size
  enter id name h := by
    refine ⟨h.entries, by simp [Side.enter, Side.report, h.building], h.size, h.lists, ?_⟩
    simp only [Side.enter, Side.report, List.filterMap_append, h.warnings]
    rfl
  leave h _ := ⟨h.entries, by simp [Side.leave, h.building], h.size, h.lists, h.warnings⟩
  report notices h := h.report notices
  put id t h := h.put id t
  addField index name t docs h :=
    ⟨h.entries, h.building, by simp [Side.addField, h.size], h.lists, h.warnings⟩
  newList t h := ⟨⟨h.entries, h.building, h.size, by simp [Side.newList, h.lists], h.warnings⟩,
    by simp [Side.newList, Ty.mirror, h.lists]⟩
  alike {id node} found := by
    rw [recipe_input id (legal node (List.mem_of_getElem? found))]
    exact alike_rename _ _
  begin {s s' id node} found h := by
    rw [recipe_input id (legal node (List.mem_of_getElem? found))]
    exact h.begin id _ _

theorem Mirrored.look (h : Mirrored s s') {g : Graph} (ref : TypeRef) :
    s'.look? g ref = (s.look? g ref).map Ty.mirror := by
  cases ref with
  | primitive p => rfl
  | node index =>
    simp only [Side.look?]
    cases g.denoted index with
    | error e => rfl
    | ok id => exact h.cached id

theorem Mirrored.entry (h : Mirrored s s') {g : Graph} (slot : Slot) :
    slot.entry (s'.look? g) =
      ((slot.entry (s.look? g)).1, (slot.entry (s.look? g)).2.mirror) := by
  unfold Slot.entry
  cases slot.type with
  | none => rfl
  | some ref =>
    simp only [Option.bind_some, h.look]
    cases s.look? g ref <;> rfl

theorem mirrored_empty : Mirrored .empty .empty := ⟨rfl, rfl, rfl, rfl, rfl⟩

end Mirrored

mutual

/-- The second tree is the first one with input types for its object types. Each is called after
the same node, with the suffix of an input type. -/
inductive Mirrors (g : Graph) : Tree → Tree → Prop
  | cut : Mirrors g .cut .cut
  | scalar (x) : Mirrors g (.scalar x) (.scalar x)
  | list {t t'} (item : Mirrors g t t') : Mirrors g (.list t) (.list t')
  | aggregate {id : Nat} {node : TypeDef} {docs fields fields'}
      (found : g.types[id]? = some node) (kind : node.kind.isAggregate = true)
      (members : MirrorsFields g fields fields') :
      Mirrors g (.aggregate .output (node.typeName .output id) docs fields)
        (.aggregate .input (node.typeName .output id ++ node.inputSuffix) docs fields')

inductive MirrorsFields (g : Graph) :
    List (String × Tree × Json) → List (String × Tree × Json) → Prop
  | nil : MirrorsFields g [] []
  | cons {name t t' docs rest rest'} (type : Mirrors g t t') (others : MirrorsFields g rest rest') :
      MirrorsFields g ((name, t, docs) :: rest) ((name, t', docs) :: rest')

end

section Trees

variable {g : Graph} {s s' : Side} {store store' : Store}

theorem mirrorsFields_map {depth : Nat} {members : List (String × Member)}
    (h : ∀ m ∈ members, Mirrors g (unfold store depth m.2.type)
      (unfold store' depth m.2.type.mirror)) :
    MirrorsFields g (members.map fun f => (f.1, unfold store depth f.2.type, f.2.description))
      ((members.map fun m => (m.1, m.2.mirror)).map
        fun f => (f.1, unfold store' depth f.2.type, f.2.description)) := by
  induction members with
  | nil => exact .nil
  | cons m rest ih =>
    rw [List.forall_mem_cons] at h
    exact .cons h.1 (ih h.2)

theorem mirrors_unfold (legal : ∀ node ∈ g.types, node.IsNamedLegally)
    (complete : Complete g .output s store) (complete' : Complete g .input s' store')
    (layered : Layered g .output s) (mirrored : Mirrored s s') (depth : Nat) {t : Ty}
    (houses : Houses g .output s t) :
    Mirrors g (unfold store depth t) (unfold store' depth t.mirror) := by
  induction depth generalizing t with
  | zero => exact .cut
  | succ depth ih =>
    cases houses with
    | scalar x => exact .scalar x
    | list inner => exact .list (ih inner)
    | @aggregate id index made cached =>
      obtain ⟨node, found, hagg⟩ := made
      have hdesc := complete.describes cached found
      have hcached' : s'.cached? id = some (.aggregate .input index) := by
        rw [mirrored.cached, cached]
        rfl
      have hdesc' := complete'.describes hcached' found
      rw [recipe_input id (legal node (List.mem_of_getElem? found))] at hdesc'
      cases hr : recipe .output id node with
      | aggregate notices name docs slots =>
        rw [hr] at hdesc hdesc'
        obtain ⟨rfl, rfl, rfl⟩ := recipe_parts hr
        obtain ⟨_, ht, hfields, hl⟩ := hdesc
        obtain ⟨_, ht', hfields', _⟩ := hdesc'
        cases ht
        cases ht'
        have hentries : node.kind.slots.map (Slot.entry (s'.look? g)) =
            (node.kind.slots.map (Slot.entry (s.look? g))).map fun m => (m.1, m.2.mirror) := by
          rw [List.map_map]
          exact List.map_congr_left fun slot _ => mirrored.entry slot
        rw [hentries, ← map_insertPairs Member.mirror] at hfields'
        have hget := (complete.holds index).trans hfields
        have hget' := (complete'.holds index).trans hfields'
        simp only [unfold, Ty.mirror, hget, hget']
        refine .aggregate found (kind_isAggregate hagg) (mirrorsFields_map fun m field => ?_)
        exact ih (houses_of_field complete.sound complete.idle layered hl field)
      | _ => simp [hr, Recipe.isAggregate] at hagg

end Trees

def onFresh (g : Graph) (direction : Direction) (ref : TypeRef) :
    Converter × List Notice × Except Error Ty := Converter.empty.convert g direction ref

/-- If the named records and variants of a graph have legal names, the two directions of a
conversion give the same error, or they give types that mirror each other, after the same nodes in
the same order and with the same warnings. -/
theorem convert_mirrored {g : Graph} (legal : ∀ node ∈ g.types, node.IsNamedLegally)
    (ref : TypeRef) :
    (∃ e, (onFresh g .output ref).2.2 = .error e ∧ (onFresh g .input ref).2.2 = .error e) ∨
    ∃ t t', (onFresh g .output ref).2.2 = .ok t ∧ (onFresh g .input ref).2.2 = .ok t' ∧
      (onFresh g .input ref).1.input.cache.keys = (onFresh g .output ref).1.output.cache.keys ∧
      (onFresh g .input ref).2.1.filterMap Notice.warning? =
        (onFresh g .output ref).2.1.filterMap Notice.warning? ∧
      ∀ depth, Mirrors g (unfold (onFresh g .output ref).1.store depth t)
        (unfold (onFresh g .input ref).1.store depth t') := by
  obtain ⟨hstate, houtcome⟩ := (mirror_simulation legal).convert_inStep ref mirrored_empty
  have hsettled := Converter.settled_empty g
  cases hr : (Side.empty.convert g .output ref).2 with
  | error e =>
    rw [hr] at houtcome
    exact .inl ⟨e, hr, houtcome⟩
  | ok t =>
    rw [hr] at houtcome
    have hok : (onFresh g .output ref).2.2 = .ok t := hr
    have hok' : (onFresh g .input ref).2.2 = .ok t.mirror := houtcome
    obtain ⟨hout, hlook⟩ := hsettled.convert hok
    obtain ⟨hinp, _⟩ := hsettled.convert hok'
    have hlayered : Layered g .output ((onFresh g .output ref).1.side .output) :=
      convert_layered .empty ref (layered_empty g .output)
    have hmirrored : Mirrored ((onFresh g .output ref).1.side .output)
        ((onFresh g .input ref).1.side .input) :=
      ⟨hstate.entries, hstate.building, hstate.size, hstate.lists, rfl⟩
    refine .inr ⟨t, t.mirror, hok, hok', ?_, hstate.warnings, fun depth => ?_⟩
    · have hkeys := congrArg (List.map Prod.fst) hmirrored.entries
      rw [List.map_map] at hkeys
      exact hkeys
    · exact mirrors_unfold legal (hout.complete .output) (hinp.complete .input) hlayered hmirrored
        depth (houses_of_looked (hout.sound .output) (hout.idle .output) hlayered hlook)

theorem forest_mirrored : (∀ node ∈ forest.types, node.IsNamedLegally) ∧
    ∃ t t', (onFresh forest .output (.node 1)).2.2 = .ok t ∧
      (onFresh forest .input (.node 1)).2.2 = .ok t' ∧
      ∀ depth, Mirrors forest (unfold (onFresh forest .output (.node 1)).1.store depth t)
        (unfold (onFresh forest .input (.node 1)).1.store depth t') := by
  have hlegal : ∀ node ∈ forest.types, node.IsNamedLegally := by
    have hname : checkTypeName (Name.pascal "node") = .ok () := rfl
    refine List.forall_mem_cons.mpr ⟨trivial, List.forall_mem_singleton.mpr fun text htext _ => ?_⟩
    cases htext
    exact hname
  have hok : (onFresh forest .output (.node 1)).2.2 = .ok (.aggregate .output 0) := by
    simp only [onFresh, Converter.convert, convert_eq_evaluated]
    rfl
  rcases convert_mirrored hlegal (.node 1) with ⟨e, herror, _⟩ | ⟨t, t', hout, hinp, _, _, htrees⟩
  · rw [hok] at herror
    cases herror
  · exact ⟨hlegal, t, t', hout, hinp, htrees⟩

end Conversion

end WitSchema
