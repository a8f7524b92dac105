import WitSchema.Proofs.Conversion.Cycle
import WitSchema.Proofs.Conversion.TypeName
import WitSchema.Proofs.Name

/-! Names in a graph whose own names are hyphenated. Such a node is refused for
its kind, or because it is called after a type that every schema has; its type
has a name that is legal, and only types of nodes with one hyphenated name can
have one name. -/

namespace WitSchema

open GraphQL

namespace GraphQL

def IsFreeName (name : String) : Prop := checkName name = .ok () ∧ isIntrospective name = false

theorem isFreeName_of_plain {name : String} (legal : isNameChars name.toList = true)
    (plain : '_' ∉ name.toList) : IsFreeName name := by
  refine ⟨checkName_ok_iff.mpr legal, ?_⟩
  rw [isIntrospective]
  split
  · rename_i chars
    exact absurd (chars ▸ List.mem_cons_self) plain
  · rfl

end GraphQL

namespace Name

theorem Kebab.camel_free {name : String} (h : Kebab name) : IsFreeName (camel name) :=
  isFreeName_of_plain h.camel_legal h.underscore_not_mem_camel

theorem Kebab.pascal_free {name : String} (h : Kebab name) : IsFreeName (pascal name) :=
  isFreeName_of_plain h.pascal_legal h.underscore_not_mem_pascal

end Name

def Json.IsKebab (v : Json) : Prop := ∃ text, v = .str text ∧ Name.Kebab text

theorem Json.IsKebab.camel_free {v : Json} (h : v.IsKebab) : IsFreeName (Name.camel v.text) := by
  obtain ⟨text, rfl, kebab⟩ := h
  exact kebab.camel_free

/-- The errors that are announced to whoever builds a schema. -/
inductive Error.IsDocumented : Error → Prop
  | noWorld (name) : IsDocumented (.noWorld name)
  | noFunctions (world) : IsDocumented (.noFunctions world)
  | unresolvedType (index available) : IsDocumented (.unresolvedType index available)
  | unsupportedKind (raw) : IsDocumented (.unsupportedKind raw)
  | unsupportedPrimitive (raw) : IsDocumented (.unsupportedPrimitive raw)
  | typeCycle (chain) : IsDocumented (.typeCycle chain)

/-- The errors of conversion that are announced: they are about the graph, not about a name. -/
inductive Error.IsOfGraph : Error → Prop
  | unresolvedType (index available) : IsOfGraph (.unresolvedType index available)
  | unsupportedKind (raw) : IsOfGraph (.unsupportedKind raw)
  | typeCycle (chain) : IsOfGraph (.typeCycle chain)

theorem Error.IsOfGraph.isDocumented {e : Error} (h : e.IsOfGraph) : e.IsDocumented := by
  cases h with
  | unresolvedType => exact .unresolvedType ..
  | unsupportedKind => exact .unsupportedKind _
  | typeCycle => exact .typeCycle _

namespace Wit

structure TypeDef.IsKebab (node : TypeDef) : Prop where
  name : node.name = .null ∨ node.name.IsKebab
  fields : ∀ fields, node.kind = .record fields → ∀ f ∈ fields, f.name.IsKebab
  cases : ∀ cases, node.kind = .variant cases → ∀ c ∈ cases, c.name.IsKebab

structure Graph.IsKebab (g : Graph) : Prop where
  types : ∀ node ∈ g.types, node.IsKebab
  exports : ∀ w ∈ g.worlds, ∀ e ∈ w.functionExports, Name.Kebab e.1
  params : ∀ w ∈ g.worlds, ∀ e ∈ w.functionExports, ∀ p ∈ e.2.params, p.name.IsKebab

def nameToward : Direction → String → String
  | .output, name => name
  | .input, name => name ++ "-input"

/-- The hyphenated name that the type of the node spells. Results are numbered, and so are nodes
without a name. -/
def TypeDef.text? (direction : Direction) (node : TypeDef) : Option String :=
  match node.kind, node.name with
  | .record _, .str name | .variant _, .str name => some (nameToward direction name)
  | _, _ => none

theorem TypeDef.isKebab_of_record {node : TypeDef} {fields : List Field}
    (kind : node.kind = .record fields) (name : node.name.IsKebab)
    (members : ∀ f ∈ fields, f.name.IsKebab) : node.IsKebab := by
  refine ⟨.inr name, ?_, ?_⟩
  · intro fields' kind'
    cases kind.symm.trans kind'
    exact members
  · intro cases kind'
    cases kind.symm.trans kind'

theorem Graph.IsKebab.node {g : Graph} (h : g.IsKebab) {id : Nat} {node : TypeDef}
    (found : g.types[id]? = some node) : node.IsKebab :=
  h.types node (List.mem_of_getElem? found)

theorem walk_error {g : Graph} {start : Nat} {chain fresh : List Nat} {index : Int} {e : Error}
    (h : g.walk start chain fresh index = .error e) : e.IsOfGraph := by
  fun_induction Graph.walk g start chain fresh index with
  | case1 =>
    cases h
    exact .unresolvedType ..
  | case2 chain fresh index node found member next kind ih => exact ih h
  | case3 => cases h
  | case4 => cases h
  | case5 =>
    cases h
    exact .typeCycle _

theorem resolveAlias_error {g : Graph} {ref : TypeRef} {e : Error}
    (h : g.resolveAlias ref = .error e) : e.IsDocumented := by
  obtain ⟨index, rfl, denoted⟩ := Graph.resolveAlias_eq_error.mp h
  exact (walk_error denoted).isDocumented

end Wit

namespace Conversion

open Wit

/-! ### Members -/

section Members

theorem camelOf_kebab {name : Json} (h : name.IsKebab) : camelOf name = .ok (Name.camel name.text) := by
  obtain ⟨text, rfl, -⟩ := h
  rfl

theorem mapM_fieldSlot_kebab {fields : List Field} (h : ∀ f ∈ fields, f.name.IsKebab) :
    fields.mapM fieldSlot = .ok (fields.map Field.slot) := by
  induction fields with
  | nil => rfl
  | cons f rest ih =>
    obtain ⟨first, others⟩ := List.forall_mem_cons.mp h
    have slot : fieldSlot f = .ok f.slot := by
      rw [fieldSlot, camelOf_kebab first]
      rfl
    rw [List.mapM_cons, slot, ih others]
    rfl

theorem caseSlots_kebab {id : Nat} {node : Json} {cases : List Case}
    (h : ∀ c ∈ cases, c.name.IsKebab) :
    ∃ notices, caseSlots id node cases = (notices, .ok (cases.filterMap Case.slot?)) := by
  suffices known : ∃ notices slots, caseSlots id node cases = (notices, .ok slots) by
    obtain ⟨notices, slots, made⟩ := known
    exact ⟨notices, by rw [made, caseSlots_ok made]⟩
  induction cases with
  | nil => exact ⟨[], [], rfl⟩
  | cons c rest ih =>
    obtain ⟨first, others⟩ := List.forall_mem_cons.mp h
    obtain ⟨notices, slots, tail⟩ := ih others
    rw [caseSlots, tail]
    cases payload : c.payload with
    | none => exact ⟨notices, slots, rfl⟩
    | some ref =>
      simp only [camelOf_kebab first]
      split
      · exact ⟨_, _, rfl⟩
      · exact ⟨_, _, rfl⟩

theorem slots_free {node : TypeDef} (kebab : node.IsKebab) :
    ∀ slot ∈ node.kind.slots, IsFreeName slot.name := by
  intro slot member
  cases kind : node.kind with
  | record fields =>
    rw [kind] at member
    obtain ⟨f, there, rfl⟩ := List.mem_map.mp member
    exact (kebab.fields fields kind f there).camel_free
  | variant cases =>
    rw [kind] at member
    rcases List.mem_cons.mp member with rfl | member
    · exact ⟨by decide, by decide⟩
    · obtain ⟨c, there, made⟩ := List.mem_filterMap.mp member
      obtain ⟨ref, -, made⟩ := Option.bind_eq_some_iff.mp made
      split at made
      · cases made
      · cases made
        exact (kebab.cases cases kind c there).camel_free
  | result ok err =>
    rw [kind] at member
    have names : ∀ slot ∈ resultSlots ok err, slot.name ∈ ["ok", "error"] := by
      simp [resultSlots]
    have free : ∀ name ∈ ["ok", "error"], IsFreeName name := by
      simp only [List.forall_mem_cons]
      exact ⟨⟨by decide, by decide⟩, ⟨by decide, by decide⟩, List.forall_mem_nil _⟩
    exact free _ (names slot member)
  | _ => simp [kind, Kind.slots] at member

end Members

/-! ### Names of types -/

section Names

variable {direction : Direction} {id : Nat} {node : TypeDef} {text : String}

theorem kebab_isTruthy (h : Name.Kebab text) : (Json.str text).isTruthy = true := by
  obtain ⟨w, words, first, -, chars⟩ := h
  have other : text ≠ "" := by
    rintro rfl
    obtain ⟨c, rest, rfl, -⟩ := Name.exists_of_isWord first
    cases chars
  simpa [Json.isTruthy] using other

theorem aggregateName_kebab {sort : String} {name : Json} (h : name = .null ∨ name.IsKebab) :
    aggregateName direction sort id name = .ok (typeName direction sort id name) := by
  cases made : aggregateName direction sort id name with
  | ok own => rw [aggregateName_ok made]
  | error e =>
    rcases h with rfl | ⟨text, rfl, kebab⟩
    · cases made
    · simp only [aggregateName, kebab_isTruthy kebab, if_true] at made
      cases made

theorem recipe_kebab (kebab : node.IsKebab) (aggregate : node.kind.isAggregate = true) :
    ∃ notices, recipe direction id node =
      .named notices (node.typeName direction id) node.docs node.kind.slots := by
  cases kind : node.kind with
  | record fields =>
    refine ⟨[], ?_⟩
    simp only [recipe, kind, recordRecipe, recordParts, aggregateName_kebab kebab.name,
      mapM_fieldSlot_kebab (kebab.fields fields kind), TypeDef.typeName, Kind.slots]
    rfl
  | variant cases =>
    obtain ⟨notices, slots⟩ := @caseSlots_kebab id node.name cases (kebab.cases cases kind)
    refine ⟨notices, ?_⟩
    simp only [recipe, kind, variantRecipe, aggregateName_kebab kebab.name, slots,
      TypeDef.typeName, Kind.slots]
  | result ok err => exact ⟨[], by simp only [recipe, kind, TypeDef.typeName, Kind.slots]⟩
  | _ => simp [kind, Kind.isAggregate] at aggregate

def numbered (direction : Direction) (sort : String) (id : Nat) : String :=
  sort ++ "_" ++ toString id ++ (if direction = .input then "_Input" else "")

def sorts : List String := ["Record", "Variant", "Result"]

theorem numbered_chars (direction : Direction) (sort : String) (id : Nat) :
    (numbered direction sort id).toList = sort.toList ++ '_' :: ((Nat.toDigits 10 id) ++
      (if direction = .input then "_Input" else "").toList) := by
  simp only [numbered, String.toList_append, Nat.toString_eq_repr, Nat.toList_repr,
    List.append_assoc]
  rfl

theorem numbered_injective {direction' : Direction} {sort sort' : String} {id' : Nat}
    (member : sort ∈ sorts) (member' : sort' ∈ sorts)
    (same : numbered direction sort id = numbered direction' sort' id') :
    direction = direction' ∧ sort = sort' ∧ id = id' := by
  have plain : ∀ sort ∈ sorts, sort.toList.all (· != '_') = true := by decide
  have digits (id : Nat) : ∀ c ∈ Nat.toDigits 10 id, c.isDigit = true := fun c there =>
    Nat.isDigit_of_mem_toDigits (by omega) (by omega) there
  have starts (sort : String) (member : sort ∈ sorts) (tail : List Char) :
      (sort.toList ++ '_' :: tail).takeWhile (· != '_') = sort.toList := by
    rw [List.takeWhile_append_of_pos (List.all_eq_true.mp (plain sort member))]
    exact List.append_nil _
  have ends (direction : Direction) (id : Nat) : (Nat.toDigits 10 id ++
      (if direction = .input then "_Input" else "").toList).takeWhile Char.isDigit =
        Nat.toDigits 10 id := by
    rw [List.takeWhile_append_of_pos (digits id)]
    cases direction <;> exact List.append_nil _
  have chars := congrArg String.toList same
  rw [numbered_chars, numbered_chars] at chars
  have heads := congrArg (List.takeWhile (· != '_')) chars
  rw [starts sort member, starts sort' member'] at heads
  rw [heads, List.append_cancel_left_eq] at chars
  have rest := (List.cons.inj chars).2
  have numbers := congrArg (List.takeWhile Char.isDigit) rest
  rw [ends, ends] at numbers
  rw [numbers, List.append_cancel_left_eq] at rest
  refine ⟨?_, String.toList_injective heads, ?_⟩
  · cases direction with
    | output =>
      cases direction' with
      | output => rfl
      | input => cases rest
    | input =>
      cases direction' with
      | output => cases rest
      | input => rfl
  · calc
      id = Nat.ofDigitChars 10 (Nat.toDigits 10 id) 0 := Nat.ofDigitChars_ten_toDigits.symm
      _ = Nat.ofDigitChars 10 (Nat.toDigits 10 id') 0 := by rw [numbers]
      _ = id' := Nat.ofDigitChars_ten_toDigits

theorem underscore_mem_numbered (direction : Direction) (sort : String) (id : Nat) :
    '_' ∈ (numbered direction sort id).toList := by
  rw [numbered_chars]
  exact List.mem_append_right _ List.mem_cons_self

theorem pascal_ne_numbered {sort : String} (word : Name.Kebab text) :
    Name.pascal text ≠ numbered direction sort id := by
  intro same
  apply word.underscore_not_mem_pascal
  rw [same]
  exact underscore_mem_numbered direction sort id

theorem checkTypeName_numbered {sort : String} (member : sort ∈ sorts) :
    checkTypeName (numbered direction sort id) = .ok () := by
  have plain := checkTypeName_anonymous member id
  cases direction with
  | input => exact checkTypeName_append plain (by decide) (by decide)
  | output =>
    rw [numbered, if_neg (by decide), String.append_empty]
    exact plain

theorem nameToward_kebab (h : Name.Kebab text) : Name.Kebab (nameToward direction text) := by
  cases direction with
  | output => exact h
  | input => exact h.append_input

theorem typeName_kebab {sort : String} (h : Name.Kebab text) :
    typeName direction sort id (.str text) = Name.pascal (nameToward direction text) := by
  rw [typeName, if_pos (kebab_isTruthy h)]
  cases direction with
  | output => exact String.append_empty
  | input => exact h.pascal_append_input.symm

theorem typeName_of_name (direction : Direction) (sort : String) (id : Nat) {name : Json}
    (h : name = .null ∨ name.IsKebab) :
    (∃ text, name = .str text ∧ Name.Kebab (nameToward direction text) ∧
      typeName direction sort id name = Name.pascal (nameToward direction text)) ∨
    typeName direction sort id name = numbered direction sort id := by
  rcases h with rfl | ⟨text, rfl, word⟩
  · exact .inr (if_neg Bool.false_ne_true)
  · exact .inl ⟨text, rfl, nameToward_kebab word, typeName_kebab word⟩

theorem typeName_cases (direction : Direction) (id : Nat) (kebab : node.IsKebab)
    (aggregate : node.kind.isAggregate = true) :
    (∃ text, node.text? direction = some text ∧ Name.Kebab text ∧
      node.typeName direction id = Name.pascal text) ∨
    ∃ sort ∈ sorts, node.typeName direction id = numbered direction sort id := by
  cases kind : node.kind with
  | record fields =>
    rw [TypeDef.typeName, TypeDef.text?, kind]
    rcases typeName_of_name direction "Record" id kebab.name with ⟨text, named, word, same⟩ | same
    · exact .inl ⟨_, by rw [named], word, same⟩
    · exact .inr ⟨_, by decide, same⟩
  | variant cases =>
    rw [TypeDef.typeName, TypeDef.text?, kind]
    rcases typeName_of_name direction "Variant" id kebab.name with ⟨text, named, word, same⟩ | same
    · exact .inl ⟨_, by rw [named], word, same⟩
    · exact .inr ⟨_, by decide, same⟩
  | result ok err =>
    right
    refine ⟨"Result", by decide, ?_⟩
    rw [TypeDef.typeName, kind]
    cases direction <;> rfl
  | _ => simp [kind, Kind.isAggregate] at aggregate

theorem typeName_free (direction : Direction) (id : Nat) (kebab : node.IsKebab)
    (aggregate : node.kind.isAggregate = true) : IsFreeName (node.typeName direction id) := by
  rcases typeName_cases direction id kebab aggregate with ⟨text, -, word, same⟩ | ⟨sort, member, same⟩
  · rw [same]
    exact word.pascal_free
  · rw [same]
    obtain ⟨-, legal⟩ := checkTypeName_ok_iff.mp (@checkTypeName_numbered direction id sort member)
    refine ⟨checkName_ok_iff.mpr legal, ?_⟩
    simp only [sorts, List.mem_cons, List.not_mem_nil, or_false] at member
    rw [isIntrospective, numbered_chars]
    rcases member with rfl | rfl | rfl
    · rfl
    · rfl
    · rfl

end Names

/-! ### Refusals -/

section Refusals

variable {direction : Direction} {id : Nat} {node : TypeDef} {notices : List Notice} {e : Error}

theorem checkTypeName_reserved {name : String} (legal : checkName name = .ok ())
    (refused : checkTypeName name = .error e) :
    name ∈ reservedNames ∧ e = .reservedType name := by
  rw [checkTypeName, legal] at refused
  split at refused
  · rename_i reserved
    cases refused
    exact ⟨List.contains_iff_mem.mp reserved, rfl⟩
  · cases refused

theorem checkTypeName_kebab {text : String} (h : Name.Kebab text)
    (refused : checkTypeName (Name.pascal text) = .error e) :
    text ∈ Name.reservedTexts ∧ e = .reservedType (Name.pascal text) := by
  obtain ⟨reserved, rfl⟩ := checkTypeName_reserved h.pascal_free.1 refused
  exact ⟨h.mem_reservedTexts reserved, rfl⟩

theorem nameToward_reserved {name : String} (h : nameToward direction name ∈ Name.reservedTexts) :
    direction = .output := by
  cases direction with
  | output => rfl
  | input =>
    have plain : ∀ text ∈ Name.reservedTexts, ¬ "-input".toList <:+ text.toList := by decide
    apply absurd _ (plain _ h)
    rw [nameToward, String.toList_append]
    exact List.suffix_append ..

theorem checkTypeName_input {text : String} (h : Name.Kebab text) :
    checkTypeName (Name.pascal text ++ "Input") = .ok () := by
  rw [← h.pascal_append_input]
  cases checked : checkTypeName (Name.pascal (text ++ "-input")) with
  | ok _ => rfl
  | error e =>
    have reserved : nameToward .input text ∈ Name.reservedTexts :=
      (checkTypeName_kebab h.append_input checked).1
    cases nameToward_reserved reserved

theorem refusal_kebab (kebab : node.IsKebab)
    (refused : recipe direction id node = .refuse notices e) :
    e.IsDocumented ∨ direction = .output ∧ node.kind.isAggregate = true ∧
      ∃ text ∈ Name.reservedTexts, node.text? direction = some text ∧
        e = .reservedType (Name.pascal text) := by
  cases aggregate : node.kind.isAggregate with
  | true =>
    right
    obtain ⟨own, followed⟩ := @recipe_kebab direction id node kebab aggregate
    have checked : checkTypeName (node.typeName direction id) = .error e := by
      rw [followed, Recipe.named] at refused
      cases checked : checkTypeName (node.typeName direction id) with
      | ok _ => simp [checked] at refused
      | error e' =>
        rw [checked] at refused
        cases refused
        rfl
    rcases typeName_cases direction id kebab aggregate with
      ⟨text, spelled, word, same⟩ | ⟨sort, member, same⟩
    · rw [same] at checked
      obtain ⟨reserved, rfl⟩ := checkTypeName_kebab word checked
      refine ⟨?_, rfl, text, reserved, spelled, rfl⟩
      rw [TypeDef.text?] at spelled
      split at spelled
      · cases spelled
        exact nameToward_reserved reserved
      · cases spelled
        exact nameToward_reserved reserved
      · cases spelled
    · rw [same, checkTypeName_numbered member] at checked
      cases checked
  | false =>
    left
    cases kind : node.kind with
    | unrecognised raw =>
      simp only [recipe, kind, Recipe.refuse.injEq] at refused
      rw [← refused.2]
      exact .unsupportedKind raw
    | «alias» target => cases target <;> simp [recipe, kind] at refused
    | record | variant | result => simp [kind, Kind.isAggregate] at aggregate
    | _ => simp [recipe, kind] at refused

theorem typeName_unreserved (kebab : node.IsKebab)
    (made : (recipe direction id node).isAggregate = true) :
    node.typeName direction id ∉ reservedNames := by
  obtain ⟨own, followed⟩ := @recipe_kebab direction id node kebab (kind_isAggregate made)
  rw [followed, Recipe.named] at made
  cases checked : checkTypeName (node.typeName direction id) with
  | ok _ => exact (checkTypeName_ok_iff.mp checked).1
  | error e => simp [checked, Recipe.isAggregate] at made

end Refusals

/-! ### Conversions -/

section Conversions

variable {g : Graph} {direction : Direction} {s : Side} {ref : TypeRef} {P : Nat → Prop}

/-- A set of nodes that contains their members contains all nodes of a walk that starts in it. -/
theorem order_inside (closed : ∀ a b, P a → g.Edge a b → P b)
    (start : ∀ id, g.resolveAlias ref = .ok (some id) → P id) (seen : List Nat) :
    ∀ id ∈ g.order seen ref, P id := by
  classical
  have known : ∀ id, id ∈ g.ids.filter (fun id => decide (P id)) ↔ id < g.size ∧ P id := by
    simp [Graph.mem_ids]
  have bounded {ref : TypeRef} {id : Nat} (h : g.resolveAlias ref = .ok (some id)) : id < g.size := by
    obtain ⟨index, rfl, denoted⟩ := Graph.resolveAlias_eq_some.mp h
    exact Graph.denoted_lt denoted
  have inside : g.EdgeClosed (g.ids.filter fun id => decide (P id)) := by
    intro a there b edge
    obtain ⟨ref, member, denoted⟩ := edge
    exact (known b).mpr ⟨bounded denoted, closed a b ((known a).mp there).2 ⟨ref, member, denoted⟩⟩
  obtain ⟨new, visited, subset⟩ := Graph.visit_inside inside g.size
    (fun id denoted => (known id).mpr ⟨bounded denoted, start id denoted⟩) seen
  intro id member
  rw [Graph.order_eq visited] at member
  exact ((known id).mp (subset member)).2

theorem convert_cached_inside (closed : ∀ a b, P a → g.Edge a b → P b)
    (start : ∀ id, g.resolveAlias ref = .ok (some id) → P id) (idle : s.building = [])
    (cached : ∀ id, (s.cached? id).isSome = true → P id) {t : Ty}
    (ok : (s.convert g direction ref).2 = .ok t) :
    ∀ id, ((s.convert g direction ref).1.cached? id).isSome = true → P id := by
  have follows := @convert_follows_order g direction s ref idle
  rw [ok] at follows
  obtain ⟨new, visited, entered⟩ := follows
  intro id there
  rcases List.mem_append.mp ((entered.seen id).mpr (.inl there)) with old | met
  · exact cached id (lookup_isSome_iff_mem_keys.mpr old)
  · rw [← Graph.order_eq visited] at met
    exact order_inside closed start _ id met

/-- A conversion fails for a reason that is announced, or because an object type that it meets would
have a reserved name. -/
theorem convert_error_kebab (kebab : g.IsKebab) (closed : ∀ a b, P a → g.Edge a b → P b)
    (start : ∀ id, g.resolveAlias ref = .ok (some id) → P id) (idle : s.building = []) {e : Error}
    (error : (s.convert g direction ref).2 = .error e) :
    e.IsDocumented ∨ direction = .output ∧ ∃ id node, P id ∧ g.types[id]? = some node ∧
      node.kind.isAggregate = true ∧ ∃ text ∈ Name.reservedTexts,
        node.text? direction = some text ∧ e = .reservedType (Name.pascal text) := by
  rcases blame_of_error idle error with ⟨ref', -, dangling⟩ | ⟨id, node, notices, met, found, refused⟩ |
    ⟨w, path, rfl, -⟩
  · exact .inl (resolveAlias_error dangling)
  · refine (refusal_kebab (kebab.node found) refused).imp_right ?_
    rintro ⟨toward, aggregate, reserved⟩
    exact ⟨toward, id, node, order_inside closed start _ id met, found, aggregate, reserved⟩
  · exact .inl (.typeCycle _)

end Conversions

end Conversion

end WitSchema
