import WitSchema.Proofs.Conversion.Naming

/-! Which types can have one name. A type is called after its node or after the
function whose parameters it holds, or it is numbered. The capital letters of a
name give the words of the source name back, and only numbered names have an
underscore, so names are equal for two reasons only: they spell one source name
in one direction, or the last word of an output name is `input`. -/

namespace WitSchema

namespace Conversion

inductive Form
  | record (name : Json)
  | variant (name : Json)
  | result

end Conversion

namespace Wit

def TypeDef.form? (node : TypeDef) : Option Conversion.Form :=
  match node.kind with
  | .record _ => some (.record node.name)
  | .variant _ => some (.variant node.name)
  | .result .. => some .result
  | _ => none

end Wit

namespace Conversion

open GraphQL Wit

/-- What a type is made for: a node in one direction, or the parameters of an exported function. -/
inductive Origin
  | node (direction : Direction) (id : Nat) (form : Form)
  | parameters (exportName : String)

def Origin.name : Origin → Except Error String
  | .node direction id (.record name) => aggregateName direction "Record" id name
  | .node direction id (.variant name) => aggregateName direction "Variant" id name
  | .node direction id .result => .ok (resultName direction id)
  | .parameters exportName => .ok (Name.pascal exportName ++ "Input")

def Form.IsKebab : Form → Prop
  | .record name | .variant name => name = .null ∨ name.IsKebab
  | .result => True

def Origin.IsKebab : Origin → Prop
  | .node _ _ form => form.IsKebab
  | .parameters exportName => Name.Kebab exportName

/-- What a name is made from: a direction and the source name that is spelled in it, or a direction,
a sort and an id. -/
inductive Tag
  | spelled (direction : Direction) (text : String)
  | numbered (direction : Direction) (sort : String) (id : Nat)

def tagOf (direction : Direction) (sort : String) (id : Nat) : Json → Tag
  | .str text => .spelled direction text
  | _ => .numbered direction sort id

def Origin.tag : Origin → Tag
  | .node direction id (.record name) => tagOf direction "Record" id name
  | .node direction id (.variant name) => tagOf direction "Variant" id name
  | .node direction id .result => .numbered direction "Result" id
  | .parameters exportName => .spelled .input exportName

/-- The tags of equal names. -/
inductive Clash : Tag → Tag → Prop
  | numbered (direction sort id) : Clash (.numbered direction sort id) (.numbered direction sort id)
  | spelled (direction text) : Clash (.spelled direction text) (.spelled direction text)
  | input (text) : Clash (.spelled .input text) (.spelled .output (text ++ "-input"))
  | output (text) : Clash (.spelled .output (text ++ "-input")) (.spelled .input text)

section Tags

def Tag.name : Tag → String
  | .spelled direction text => Name.pascal (nameToward direction text)
  | .numbered direction sort id => Conversion.numbered direction sort id

def Tag.IsKebab : Tag → Prop
  | .spelled _ text => Name.Kebab text
  | .numbered _ sort _ => sort ∈ sorts

variable {a b : Tag}

theorem Clash.name_eq (h : Clash a b) : a.name = b.name := by
  cases h <;> rfl

theorem not_clash_spelled (text : String) :
    ¬ Clash (.spelled .output text) (.spelled .input text) := by
  intro h
  generalize same : Tag.spelled .input text = b at h
  cases h with
  | spelled => cases same
  | output other =>
    have chars := congrArg String.length (Tag.spelled.inj same).2
    rw [String.length_append] at chars
    have longer : "-input".length = 6 := rfl
    omega

theorem Clash.eq_of_numbered {direction : Direction} {sort : String} {id : Nat}
    (h : Clash (.numbered direction sort id) b) : b = .numbered direction sort id := by
  cases h
  rfl

theorem clash_of_nameToward {direction direction' : Direction} {text text' : String}
    (same : nameToward direction text = nameToward direction' text') :
    Clash (.spelled direction text) (.spelled direction' text') := by
  cases direction with
  | output =>
    cases direction' with
    | output =>
      obtain rfl : text = text' := same
      exact .spelled _ _
    | input =>
      obtain rfl : text = text' ++ "-input" := same
      exact .output _
  | input =>
    cases direction' with
    | output =>
      obtain rfl : text ++ "-input" = text' := same
      exact .input _
    | input =>
      have chars := congrArg String.toList same
      rw [nameToward, nameToward, String.toList_append, String.toList_append,
        List.append_cancel_right_eq] at chars
      obtain rfl : text = text' := String.toList_injective chars
      exact .spelled _ _

theorem Tag.name_eq_iff (ha : a.IsKebab) (hb : b.IsKebab) : a.name = b.name ↔ Clash a b := by
  refine ⟨fun same => ?_, Clash.name_eq⟩
  cases a with
  | spelled direction text =>
    cases b with
    | spelled direction' text' =>
      have words := (nameToward_kebab ha).pascal_injective (nameToward_kebab hb) same
      exact clash_of_nameToward words
    | numbered => exact absurd same (pascal_ne_numbered (nameToward_kebab ha))
  | numbered direction sort id =>
    cases b with
    | spelled => exact absurd same.symm (pascal_ne_numbered (nameToward_kebab hb))
    | numbered direction' sort' id' =>
      obtain ⟨rfl, rfl, rfl⟩ := numbered_injective ha hb same
      exact .numbered _ _ _

end Tags

section Origins

variable {a b : Origin}

theorem aggregateName_tag {direction : Direction} {sort : String} {id : Nat} {name : Json}
    (member : sort ∈ sorts) (h : name = .null ∨ name.IsKebab) :
    (tagOf direction sort id name).IsKebab ∧
      aggregateName direction sort id name = .ok (tagOf direction sort id name).name := by
  rw [aggregateName_kebab h]
  rcases h with rfl | ⟨text, rfl, word⟩
  · exact ⟨member, rfl⟩
  · exact ⟨word, congrArg _ (typeName_kebab word)⟩

theorem Origin.name_tag (h : a.IsKebab) : a.tag.IsKebab ∧ a.name = .ok a.tag.name := by
  cases a with
  | node direction id form =>
    cases form with
    | record name => exact aggregateName_tag (by decide) h
    | variant name => exact aggregateName_tag (by decide) h
    | result =>
      refine ⟨show "Result" ∈ sorts by decide, ?_⟩
      cases direction <;> rfl
  | parameters exportName =>
    have word : Name.Kebab exportName := h
    exact ⟨word, congrArg _ word.pascal_append_input.symm⟩

theorem not_clash_opposite (id : Nat) (form : Form) :
    ¬ Clash (Origin.node .output id form).tag (Origin.node .input id form).tag := by
  have tags (sort : String) (name : Json) :
      ¬ Clash (tagOf .output sort id name) (tagOf .input sort id name) := by
    cases name with
    | str text => exact not_clash_spelled text
    | _ => exact fun h => nomatch h
  cases form with
  | record name => exact tags "Record" name
  | variant name => exact tags "Variant" name
  | result => exact fun h => nomatch h

theorem form?_name {direction : Direction} {id : Nat} {node : TypeDef} {form : Form}
    (is : node.form? = some form) (h : form.IsKebab) :
    (Origin.node direction id form).name = .ok (node.typeName direction id) := by
  rw [TypeDef.form?] at is
  cases kind : node.kind with
  | record fields =>
    rw [kind] at is
    cases is
    rw [Origin.name, aggregateName_kebab h, TypeDef.typeName, kind]
  | variant cases =>
    rw [kind] at is
    cases is
    rw [Origin.name, aggregateName_kebab h, TypeDef.typeName, kind]
  | result ok err =>
    rw [kind] at is
    cases is
    rw [Origin.name, TypeDef.typeName, kind]
  | _ => simp [kind] at is

/-- The aggregate that is made for a node has the name that is made up for it. -/
theorem recipe_origin {direction : Direction} {id : Nat} {node : TypeDef} {form : Form}
    {notices : List Notice} {name : String} {docs : Json} {slots : List Slot}
    (made : recipe direction id node = .aggregate notices name docs slots)
    (is : node.form? = some form) (h : form.IsKebab) :
    (Origin.node direction id form).name = .ok name := by
  rw [form?_name is h, (recipe_parts made).1]

/-- Hyphenated names and ids give equal type names exactly if their tags clash. A number clashes
with itself only, and the two types of one node have different names. -/
theorem names_clash_iff (ha : a.IsKebab) (hb : b.IsKebab) :
    (∃ n m, a.name = .ok n ∧ b.name = .ok m ∧ (n = m ↔ Clash a.tag b.tag)) ∧
    (∀ direction sort id, a.tag = .numbered direction sort id → a.name = b.name → b.tag = a.tag) ∧
    ∀ id form, a = .node .output id form → b = .node .input id form → a.name ≠ b.name := by
  obtain ⟨legal, named⟩ := Origin.name_tag ha
  obtain ⟨legal', named'⟩ := Origin.name_tag hb
  have equal : a.tag.name = b.tag.name ↔ Clash a.tag b.tag := Tag.name_eq_iff legal legal'
  have clash (same : a.name = b.name) : Clash a.tag b.tag := by
    rw [named, named'] at same
    exact equal.mp (Except.ok.inj same)
  refine ⟨⟨_, _, named, named', equal⟩, ?_, ?_⟩
  · intro direction sort id number same
    have met := clash same
    rw [number] at met ⊢
    exact met.eq_of_numbered
  · rintro id form rfl rfl same
    exact not_clash_opposite id form (clash same)

theorem add_input_clashes :
    (Origin.node .output 0 (.record (.str "add-input"))).IsKebab ∧
      (Origin.parameters "add").IsKebab ∧
      (Origin.node .output 0 (.record (.str "add-input"))).name =
        (Origin.parameters "add").name := by
  have add : Name.Kebab "add" := Name.kebab_of_isWord (by decide)
  have ha : (Origin.node .output 0 (.record (.str "add-input"))).IsKebab :=
    .inr ⟨_, rfl, add.append_input⟩
  obtain ⟨⟨n, m, named, named', equal⟩, -⟩ := names_clash_iff ha (b := .parameters "add") add
  refine ⟨ha, add, ?_⟩
  rw [named, named', equal.mpr (.output "add")]

end Origins

end Conversion

end WitSchema
