import Mathlib.Data.List.Forall2
import WitSchema.Wit.Reader

/-! The ways to write a graph as JSON, as a relation for each of its parts.
What a relation does not name is free: members nobody reads may stand in any
object, in any order, and each part is spelled independently of the others. A
part that may be left out is related to an optional value, `none` being the
member that is not there. -/

namespace WitSchema.Wit

inductive Blank : Option Json → Prop
  | missing : Blank none
  | null : Blank (some .null)

inductive Verbatim : Json → Option Json → Prop
  | missing : Verbatim .null none
  | given (v : Json) : Verbatim v (some v)

inductive OptionSpelled {α : Type} (spells : α → Json → Prop) : Option α → Option Json → Prop
  | absent {member} (blank : Blank member) : OptionSpelled spells none member
  | given {a raw} (spelled : spells a raw) : OptionSpelled spells (some a) (some raw)

def ArraySpelled {α : Type} (spells : α → Json → Prop) (items : List α)
    (member : Option Json) : Prop :=
  ∃ raws, member = some (.arr raws) ∧ List.Forall₂ spells items raws

inductive ListSpelled {α : Type} (spells : α → Json → Prop) : List α → Option Json → Prop
  | empty {member} (blank : Blank member) : ListSpelled spells [] member
  | array {items raws} (each : List.Forall₂ spells items raws) :
      ListSpelled spells items (some (.arr raws))

inductive MapSpelled {α : Type} (spells : α → Json → Prop) :
    List (String × α) → Option Json → Prop
  | empty {member} (blank : Blank member) : MapSpelled spells [] member
  | object {entries members}
      (each : List.Forall₂ (fun e m => e.1 = m.1 ∧ spells e.2 m.2) entries members) :
      MapSpelled spells entries (some (.obj members))

inductive TableSpelled : List (Json × Json) → Option Json → Prop
  | empty {member} (blank : Blank member) : TableSpelled [] member
  | object (members : List (String × Json)) :
      TableSpelled (members.map fun m => (.str m.1, m.2)) (some (.obj members))

inductive DocsSpelled : Json → Option Json → Prop
  | missing : DocsSpelled .null none
  | null : DocsSpelled .null (some .null)
  | text (s : String) : DocsSpelled (.str s) (some (.str s))
  | nested {docs members} (contents : Verbatim docs (members.lookup "contents")) :
      DocsSpelled docs (some (.obj members))

inductive StabilitySpelled : Json → Option Json → Prop
  | absent {member} (blank : Blank member) : StabilitySpelled .null member
  | text (s : String) : StabilitySpelled (.str s) (some (.str s))
  | keyed (s : String) (body : Json) : StabilitySpelled (.str s) (some (.obj [(s, body)]))

inductive TypeRef.SpelledBy : TypeRef → Json → Prop
  | primitive (p : Primitive) : SpelledBy (.primitive p) (.str p.tag)
  | node (index : Int) : SpelledBy (.node index) (.int index)

structure Field.SpelledBy (f : Field) (raw : Json) : Prop where
  name : raw.member? "name" = some f.name
  type : ∃ type, raw.member? "type" = some type ∧ f.type.SpelledBy type
  docs : DocsSpelled f.docs (raw.member? "docs")

structure Label.SpelledBy (l : Label) (raw : Json) : Prop where
  name : raw.member? "name" = some l.name
  docs : DocsSpelled l.docs (raw.member? "docs")

structure Case.SpelledBy (c : Case) (raw : Json) : Prop where
  name : raw.member? "name" = some c.name
  payload : OptionSpelled TypeRef.SpelledBy c.payload (raw.member? "type")
  docs : DocsSpelled c.docs (raw.member? "docs")

/-- The object of a kind holds its tag alone, and the array of its parts is never left out. -/
inductive Kind.SpelledBy : Kind → Json → Prop
  | resource : SpelledBy .resource (.str "resource")
  | record {fields body} (items : ArraySpelled Field.SpelledBy fields (body.member? "fields")) :
      SpelledBy (.record fields) (.obj [("record", body)])
  | own {index body} (here : body.member? "own" = some index) :
      SpelledBy (.handle .own index) (.obj [("handle", body)])
  | borrow {index members} (other : members.lookup "own" = none)
      (here : members.lookup "borrow" = some index) :
      SpelledBy (.handle .borrow index) (.obj [("handle", .obj members)])
  | flags {labels body} (items : ArraySpelled Label.SpelledBy labels (body.member? "flags")) :
      SpelledBy (.flags labels) (.obj [("flags", body)])
  | tuple {types body} (items : ArraySpelled TypeRef.SpelledBy types (body.member? "types")) :
      SpelledBy (.tuple types) (.obj [("tuple", body)])
  | variant {cases body} (items : ArraySpelled Case.SpelledBy cases (body.member? "cases")) :
      SpelledBy (.variant cases) (.obj [("variant", body)])
  | enum {labels body} (items : ArraySpelled Label.SpelledBy labels (body.member? "cases")) :
      SpelledBy (.enum labels) (.obj [("enum", body)])
  | option {type raw} (spelled : type.SpelledBy raw) :
      SpelledBy (.option type) (.obj [("option", raw)])
  | result {ok err members} (left : OptionSpelled TypeRef.SpelledBy ok (members.lookup "ok"))
      (right : OptionSpelled TypeRef.SpelledBy err (members.lookup "err")) :
      SpelledBy (.result ok err) (.obj [("result", .obj members)])
  | list {type raw} (spelled : type.SpelledBy raw) : SpelledBy (.list type) (.obj [("list", raw)])
  | future {type raw} (spelled : OptionSpelled TypeRef.SpelledBy type (some raw)) :
      SpelledBy (.future type) (.obj [("future", raw)])
  | stream {type raw} (spelled : OptionSpelled TypeRef.SpelledBy type (some raw)) :
      SpelledBy (.stream type) (.obj [("stream", raw)])
  | alias {target raw} (spelled : target.SpelledBy raw) :
      SpelledBy (.alias target) (.obj [("type", raw)])

inductive Owner.SpelledBy : Owner → Json → Prop
  | world {index raw} (here : raw.member? "world" = some index) : SpelledBy ⟨.world, index⟩ raw
  | interface {index members} (other : members.lookup "world" = none)
      (here : members.lookup "interface" = some index) :
      SpelledBy ⟨.interface, index⟩ (.obj members)

structure TypeDef.SpelledBy (t : TypeDef) (raw : Json) : Prop where
  kind : ∃ kind, raw.member? "kind" = some kind ∧ t.kind.SpelledBy kind
  name : Verbatim t.name (raw.member? "name")
  owner : OptionSpelled Owner.SpelledBy t.owner (raw.member? "owner")
  docs : DocsSpelled t.docs (raw.member? "docs")
  stability : StabilitySpelled t.stability (raw.member? "stability")

inductive Param.SpelledBy : Param → Json → Prop
  | object {p : Param} {raw type} (name : raw.member? "name" = some p.name)
      (here : raw.member? "type" = some type) (spelled : p.type.SpelledBy type) : SpelledBy p raw
  | pair {p : Param} {type} (spelled : p.type.SpelledBy type) : SpelledBy p (.arr [p.name, type])

inductive ResultSpelled (raw : Json) : Option TypeRef → Prop
  | result {type value} (here : raw.member? "result" = some value)
      (spelled : type.SpelledBy value) : ResultSpelled raw (some type)
  | anon {type value results} (blank : Blank (raw.member? "result"))
      (here : raw.member? "results" = some results) (inside : results.member? "anon" = some value)
      (spelled : type.SpelledBy value) : ResultSpelled raw (some type)
  | absent (blank : Blank (raw.member? "result"))
      (anonymous : ∀ results, raw.member? "results" = some results →
        Blank (results.member? "anon")) : ResultSpelled raw none

inductive FunctionKind.SpelledBy : FunctionKind → Json → Option Json → Prop
  | missing : SpelledBy .freestanding .null none
  | bare (kind : FunctionKind) : SpelledBy kind .null (some (.str kind.tag))
  | tagged (kind : FunctionKind) (resource : Json) :
      SpelledBy kind resource (some (.obj [(kind.tag, resource)]))

structure Function.SpelledBy (f : Function) (raw : Json) : Prop where
  name : raw.member? "name" = some f.name
  params : ListSpelled Param.SpelledBy f.params (raw.member? "params")
  result : ResultSpelled raw f.result
  kind : f.kind.SpelledBy f.resource (raw.member? "kind")
  docs : DocsSpelled f.docs (raw.member? "docs")
  stability : StabilitySpelled f.stability (raw.member? "stability")

inductive IndexSpelled : Json → Json → Prop
  | bare (index : Int) : IndexSpelled (.int index) (.int index)
  | object {index members} (here : members.lookup "id" = some index) :
      IndexSpelled index (.obj members)

/-- The first of the keys `function`, `interface` and `type` that is there says what an item is,
whatever stands under it. -/
inductive WorldItem.SpelledBy : WorldItem → Json → Prop
  | function {f raw value} (here : raw.member? "function" = some value)
      (spelled : f.SpelledBy value) : SpelledBy (.function f) raw
  | interface {index members value} (function : members.lookup "function" = none)
      (here : members.lookup "interface" = some value) (spelled : IndexSpelled index value) :
      SpelledBy (.interface index) (.obj members)
  | type {index members} (function : members.lookup "function" = none)
      (interface : members.lookup "interface" = none)
      (here : members.lookup "type" = some index) : SpelledBy (.type index) (.obj members)

structure World.SpelledBy (w : World) (raw : Json) : Prop where
  name : raw.member? "name" = some w.name
  exports : MapSpelled WorldItem.SpelledBy w.exports (raw.member? "exports")
  imports : MapSpelled WorldItem.SpelledBy w.imports (raw.member? "imports")
  package : Verbatim w.package (raw.member? "package")
  docs : DocsSpelled w.docs (raw.member? "docs")

structure Interface.SpelledBy (i : Interface) (raw : Json) : Prop where
  object : ∃ members, raw = .obj members
  name : Verbatim i.name (raw.member? "name")
  types : TableSpelled i.types (raw.member? "types")
  functions : MapSpelled Function.SpelledBy i.functions (raw.member? "functions")
  package : Verbatim i.package (raw.member? "package")

structure Package.SpelledBy (p : Package) (raw : Json) : Prop where
  name : raw.member? "name" = some p.name
  interfaces : TableSpelled p.interfaces (raw.member? "interfaces")
  worlds : TableSpelled p.worlds (raw.member? "worlds")

structure Graph.SpelledBy (g : Graph) (raw : Json) : Prop where
  object : ∃ members, raw = .obj members
  types : ListSpelled TypeDef.SpelledBy g.types (raw.member? "types")
  worlds : ListSpelled World.SpelledBy g.worlds (raw.member? "worlds")
  interfaces : ListSpelled Interface.SpelledBy g.interfaces (raw.member? "interfaces")
  packages : ListSpelled Package.SpelledBy g.packages (raw.member? "packages")

/-! ### What has a spelling

The reader does not check names, indices and docs, so any value can stand for
them. A spelling asks for no more than a recognised kind, stabilities that are
texts and texts as the keys of maps. -/

def NullOrText (v : Json) : Prop := v = .null ∨ ∃ s, v = .str s

def KeyedByTexts (entries : List (Json × Json)) : Prop := ∀ e ∈ entries, ∃ s, e.1 = .str s

structure Graph.Writable (g : Graph) : Prop where
  kinds : ∀ t ∈ g.types, ∀ raw, t.kind ≠ .unrecognised raw
  types : ∀ t ∈ g.types, NullOrText t.stability
  items : ∀ w ∈ g.worlds, ∀ e ∈ w.exports ++ w.imports, ∀ f, e.2 = .function f →
    NullOrText f.stability
  functions : ∀ i ∈ g.interfaces, ∀ e ∈ i.functions, NullOrText e.2.stability
  interfaces : ∀ i ∈ g.interfaces, KeyedByTexts i.types
  packages : ∀ p ∈ g.packages, KeyedByTexts p.interfaces ∧ KeyedByTexts p.worlds

section

variable {α : Type} {spells : α → Json → Prop}

theorem exists_forall₂ {β : Type} {R : α → β → Prop} {items : List α}
    (each : ∀ a ∈ items, ∃ b, R a b) : ∃ bs, List.Forall₂ R items bs := by
  induction items with
  | nil => exact ⟨[], .nil⟩
  | cons a rest ih =>
    obtain ⟨b, hb⟩ := each a List.mem_cons_self
    obtain ⟨bs, hbs⟩ := ih fun x hx => each x (List.mem_cons_of_mem a hx)
    exact ⟨b :: bs, .cons hb hbs⟩

theorem exists_optionSpelled (each : ∀ a, ∃ raw, spells a raw) (o : Option α) :
    ∃ raw, OptionSpelled spells o (some raw) := by
  cases o with
  | none => exact ⟨.null, .absent .null⟩
  | some a =>
    obtain ⟨raw, spelled⟩ := each a
    exact ⟨raw, .given spelled⟩

theorem exists_listSpelled {items : List α} (each : ∀ a ∈ items, ∃ raw, spells a raw) :
    ∃ raw, ListSpelled spells items (some raw) := by
  obtain ⟨raws, spelled⟩ := exists_forall₂ each
  exact ⟨.arr raws, .array spelled⟩

theorem exists_mapSpelled {entries : List (String × α)}
    (each : ∀ e ∈ entries, ∃ raw, spells e.2 raw) :
    ∃ raw, MapSpelled spells entries (some raw) := by
  have paired : ∀ e ∈ entries, ∃ m : String × Json, e.1 = m.1 ∧ spells e.2 m.2 := by
    intro e he
    obtain ⟨raw, spelled⟩ := each e he
    exact ⟨(e.1, raw), rfl, spelled⟩
  obtain ⟨members, spelled⟩ := exists_forall₂ paired
  exact ⟨.obj members, .object spelled⟩

end

theorem exists_tableSpelled {entries : List (Json × Json)} (keyed : KeyedByTexts entries) :
    ∃ raw, TableSpelled entries (some raw) := by
  have named : ∀ e ∈ entries, ∃ m : String × Json, e = (.str m.1, m.2) := by
    intro e he
    obtain ⟨s, hs⟩ := keyed e he
    exact ⟨(s, e.2), Prod.ext hs rfl⟩
  obtain ⟨members, same⟩ := exists_forall₂ named
  have : entries = members.map fun m => (.str m.1, m.2) := by
    clear keyed named
    induction same with
    | nil => rfl
    | cons head _ ih => rw [List.map_cons, ← ih, head]
  exact ⟨.obj members, this ▸ .object members⟩

theorem docsSpelled_nested (docs : Json) : DocsSpelled docs (some (.obj [("contents", docs)])) :=
  .nested (.given docs)

theorem exists_stabilitySpelled {v : Json} (h : NullOrText v) :
    ∃ raw, StabilitySpelled v (some raw) := by
  obtain rfl | ⟨s, rfl⟩ := h
  · exact ⟨.null, .absent .null⟩
  · exact ⟨.str s, .text s⟩

theorem TypeRef.exists_spelling (r : TypeRef) : ∃ raw, r.SpelledBy raw := by
  cases r with
  | primitive p => exact ⟨_, .primitive p⟩
  | node index => exact ⟨_, .node index⟩

theorem Field.exists_spelling (f : Field) : ∃ raw, f.SpelledBy raw := by
  obtain ⟨type, spelled⟩ := f.type.exists_spelling
  exact ⟨.obj [("name", f.name), ("type", type), ("docs", .obj [("contents", f.docs)])],
    rfl, ⟨type, rfl, spelled⟩, docsSpelled_nested f.docs⟩

theorem Label.exists_spelling (l : Label) : ∃ raw, l.SpelledBy raw :=
  ⟨.obj [("name", l.name), ("docs", .obj [("contents", l.docs)])], rfl, docsSpelled_nested l.docs⟩

theorem Case.exists_spelling (c : Case) : ∃ raw, c.SpelledBy raw := by
  obtain ⟨payload, spelled⟩ := exists_optionSpelled TypeRef.exists_spelling c.payload
  exact ⟨.obj [("name", c.name), ("type", payload), ("docs", .obj [("contents", c.docs)])],
    rfl, spelled, docsSpelled_nested c.docs⟩

theorem exists_arraySpelled {α : Type} {spells : α → Json → Prop} (key : String)
    (each : ∀ a, ∃ raw, spells a raw) (items : List α) :
    ∃ body : Json, ArraySpelled spells items (body.member? key) := by
  obtain ⟨raws, spelled⟩ := exists_forall₂ fun a (_ : a ∈ items) => each a
  exact ⟨.obj [(key, .arr raws)], raws, by simp [Json.member?], spelled⟩

theorem Kind.exists_spelling (k : Kind) (recognised : ∀ raw, k ≠ .unrecognised raw) :
    ∃ raw, k.SpelledBy raw := by
  cases k with
  | record fields =>
    obtain ⟨body, items⟩ := exists_arraySpelled "fields" Field.exists_spelling fields
    exact ⟨_, .record items⟩
  | resource => exact ⟨_, .resource⟩
  | handle mode index =>
    cases mode with
    | own => exact ⟨_, @SpelledBy.own index (.obj [("own", index)]) rfl⟩
    | borrow => exact ⟨_, @SpelledBy.borrow index [("borrow", index)] rfl rfl⟩
  | flags labels =>
    obtain ⟨body, items⟩ := exists_arraySpelled "flags" Label.exists_spelling labels
    exact ⟨_, .flags items⟩
  | tuple types =>
    obtain ⟨body, items⟩ := exists_arraySpelled "types" TypeRef.exists_spelling types
    exact ⟨_, .tuple items⟩
  | variant cases =>
    obtain ⟨body, items⟩ := exists_arraySpelled "cases" Case.exists_spelling cases
    exact ⟨_, .variant items⟩
  | enum labels =>
    obtain ⟨body, items⟩ := exists_arraySpelled "cases" Label.exists_spelling labels
    exact ⟨_, .enum items⟩
  | option type =>
    obtain ⟨raw, spelled⟩ := type.exists_spelling
    exact ⟨_, .option spelled⟩
  | result ok err =>
    obtain ⟨left, hl⟩ := exists_optionSpelled TypeRef.exists_spelling ok
    obtain ⟨right, hr⟩ := exists_optionSpelled TypeRef.exists_spelling err
    exact ⟨_, @SpelledBy.result ok err [("ok", left), ("err", right)] hl hr⟩
  | list type =>
    obtain ⟨raw, spelled⟩ := type.exists_spelling
    exact ⟨_, .list spelled⟩
  | future type =>
    obtain ⟨raw, spelled⟩ := exists_optionSpelled TypeRef.exists_spelling type
    exact ⟨_, .future spelled⟩
  | stream type =>
    obtain ⟨raw, spelled⟩ := exists_optionSpelled TypeRef.exists_spelling type
    exact ⟨_, .stream spelled⟩
  | «alias» target =>
    obtain ⟨raw, spelled⟩ := target.exists_spelling
    exact ⟨_, .alias spelled⟩
  | unrecognised raw => exact absurd rfl (recognised raw)

theorem Owner.exists_spelling (o : Owner) : ∃ raw, o.SpelledBy raw := by
  obtain ⟨kind, index⟩ := o
  cases kind with
  | world => exact ⟨_, @SpelledBy.world index (.obj [("world", index)]) rfl⟩
  | interface => exact ⟨_, @SpelledBy.interface index [("interface", index)] rfl rfl⟩

theorem TypeDef.exists_spelling (t : TypeDef) (recognised : ∀ raw, t.kind ≠ .unrecognised raw)
    (text : NullOrText t.stability) : ∃ raw, t.SpelledBy raw := by
  obtain ⟨kind, hk⟩ := t.kind.exists_spelling recognised
  obtain ⟨owner, ho⟩ := exists_optionSpelled Owner.exists_spelling t.owner
  obtain ⟨stability, hs⟩ := exists_stabilitySpelled text
  exact ⟨.obj [("name", t.name), ("kind", kind), ("owner", owner),
      ("docs", .obj [("contents", t.docs)]), ("stability", stability)],
    ⟨kind, rfl, hk⟩, .given t.name, ho, docsSpelled_nested t.docs, hs⟩

theorem Param.exists_spelling (p : Param) : ∃ raw, p.SpelledBy raw := by
  obtain ⟨type, spelled⟩ := p.type.exists_spelling
  exact ⟨_, .pair spelled⟩

theorem Function.exists_spelling (f : Function) (text : NullOrText f.stability) :
    ∃ raw, f.SpelledBy raw := by
  obtain ⟨params, hp⟩ := exists_listSpelled fun p (_ : p ∈ f.params) => p.exists_spelling
  obtain ⟨result, hr⟩ := exists_optionSpelled TypeRef.exists_spelling f.result
  obtain ⟨stability, hs⟩ := exists_stabilitySpelled text
  refine ⟨.obj [("name", f.name), ("kind", .obj [(f.kind.tag, f.resource)]), ("params", params),
      ("result", result), ("docs", .obj [("contents", f.docs)]), ("stability", stability)],
    rfl, hp, ?_, .tagged f.kind f.resource, docsSpelled_nested f.docs, hs⟩
  generalize f.result = type at hr
  cases hr with
  | absent blank => exact .absent blank nofun
  | given spelled => exact .result rfl spelled

theorem WorldItem.exists_spelling (i : WorldItem)
    (text : ∀ f, i = .function f → NullOrText f.stability) : ∃ raw, i.SpelledBy raw := by
  cases i with
  | function f =>
    obtain ⟨raw, spelled⟩ := f.exists_spelling (text f rfl)
    exact ⟨.obj [("function", raw)], .function rfl spelled⟩
  | interface index =>
    exact ⟨.obj [("interface", .obj [("id", index)])], .interface rfl rfl (.object rfl)⟩
  | type index => exact ⟨.obj [("type", index)], .type rfl rfl rfl⟩

theorem World.exists_spelling (w : World) (text : ∀ e ∈ w.exports ++ w.imports,
    ∀ f, e.2 = .function f → NullOrText f.stability) : ∃ raw, w.SpelledBy raw := by
  obtain ⟨exports, he⟩ := exists_mapSpelled fun e (he : e ∈ w.exports) =>
    e.2.exists_spelling (text e (List.mem_append_left _ he))
  obtain ⟨imports, hi⟩ := exists_mapSpelled fun e (he : e ∈ w.imports) =>
    e.2.exists_spelling (text e (List.mem_append_right _ he))
  exact ⟨.obj [("name", w.name), ("exports", exports), ("imports", imports),
      ("package", w.package), ("docs", .obj [("contents", w.docs)])],
    rfl, he, hi, .given w.package, docsSpelled_nested w.docs⟩

theorem Interface.exists_spelling (i : Interface) (keyed : KeyedByTexts i.types)
    (text : ∀ e ∈ i.functions, NullOrText e.2.stability) : ∃ raw, i.SpelledBy raw := by
  obtain ⟨types, ht⟩ := exists_tableSpelled keyed
  obtain ⟨functions, hf⟩ := exists_mapSpelled fun e (he : e ∈ i.functions) =>
    e.2.exists_spelling (text e he)
  exact ⟨.obj [("name", i.name), ("types", types), ("functions", functions),
      ("package", i.package)],
    ⟨_, rfl⟩, .given i.name, ht, hf, .given i.package⟩

theorem Package.exists_spelling (p : Package) (interfaces : KeyedByTexts p.interfaces)
    (worlds : KeyedByTexts p.worlds) : ∃ raw, p.SpelledBy raw := by
  obtain ⟨interfaces, hi⟩ := exists_tableSpelled interfaces
  obtain ⟨worlds, hw⟩ := exists_tableSpelled worlds
  exact ⟨.obj [("name", p.name), ("interfaces", interfaces), ("worlds", worlds)], rfl, hi, hw⟩

theorem Graph.exists_spelling {g : Graph} (writable : g.Writable) : ∃ raw, g.SpelledBy raw := by
  obtain ⟨types, ht⟩ := exists_listSpelled fun t (m : t ∈ g.types) =>
    t.exists_spelling (writable.kinds t m) (writable.types t m)
  obtain ⟨worlds, hw⟩ := exists_listSpelled fun w (m : w ∈ g.worlds) =>
    w.exists_spelling (writable.items w m)
  obtain ⟨interfaces, hi⟩ := exists_listSpelled fun i (m : i ∈ g.interfaces) =>
    i.exists_spelling (writable.interfaces i m) (writable.functions i m)
  obtain ⟨packages, hp⟩ := exists_listSpelled fun p (m : p ∈ g.packages) =>
    p.exists_spelling (writable.packages p m).1 (writable.packages p m).2
  exact ⟨.obj [("types", types), ("worlds", worlds), ("interfaces", interfaces),
      ("packages", packages)], ⟨_, rfl⟩, ht, hw, hi, hp⟩

end WitSchema.Wit
