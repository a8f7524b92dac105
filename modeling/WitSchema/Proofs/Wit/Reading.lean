import WitSchema.Proofs.Wit.Spelling

/-! The reader inverts every spelling: each part of a graph is read back from
whatever its relation allows, and so is the graph with all maps and lists in
their order. -/

namespace WitSchema

namespace Json

theorem exists_members {raw v : Json} {key : String} (h : raw.member? key = some v) :
    ∃ members, raw = .obj members := by
  cases raw with
  | obj members => exact ⟨members, rfl⟩
  | _ => cases h

theorem item_eq_ok {raw v : Json} {key : String} (h : raw.member? key = some v) :
    raw.item key = .ok v := by
  obtain ⟨members, rfl⟩ := exists_members h
  simp only [member?] at h
  simp [item, h]

theorem get_obj (members : List (String × Json)) (key : String) :
    (obj members).get key = .ok (((obj members).member? key).getD null) := rfl

theorem has_obj (members : List (String × Json)) (key : String) :
    (obj members).has key = .ok (members.lookup key).isSome := rfl

end Json

namespace Wit

theorem ok_bind {ε α β : Type} (a : α) (next : α → Except ε β) :
    (Except.ok a >>= next) = next a := rfl

theorem pure_eq_ok {ε α : Type} (a : α) : (pure a : Except ε α) = .ok a := rfl

theorem Blank.getD_eq {member : Option Json} (h : Blank member) : member.getD .null = .null := by
  cases h <;> rfl

theorem Verbatim.getD_eq {v : Json} {member : Option Json} (h : Verbatim v member) :
    member.getD .null = v := by
  cases h <;> rfl

theorem docsOfJson_eq {docs : Json} {member : Option Json} (h : DocsSpelled docs member) :
    docsOfJson (member.getD .null) = docs := by
  cases h with
  | nested contents => exact contents.getD_eq
  | _ => rfl

theorem stabilityOfJson_eq {v : Json} {member : Option Json} (h : StabilitySpelled v member) :
    stabilityOfJson (member.getD .null) = .ok v := by
  cases h with
  | absent blank => rw [blank.getD_eq]; rfl
  | _ => rfl

section

variable {α : Type} {spells : α → Json → Prop} {read : Json → Except Error α}

theorem mapM_eq_ok {items : List α} {raws : List Json} (each : List.Forall₂ spells items raws)
    (reads : ∀ {a raw}, spells a raw → read raw = .ok a) : raws.mapM read = .ok items := by
  induction each with
  | nil => rfl
  | cons head _ ih =>
    rw [List.mapM_cons, reads head, ih]
    rfl

theorem ListSpelled.elements {items : List α} {member : Option Json}
    (h : ListSpelled spells items member) (reads : ∀ {a raw}, spells a raw → read raw = .ok a) :
    ∃ raws, (member.getD .null).elementsIfAny = .ok raws ∧ raws.mapM read = .ok items := by
  cases h with
  | empty blank => exact ⟨[], by rw [blank.getD_eq]; rfl, rfl⟩
  | @array _ raws each => exact ⟨raws, by cases raws <;> rfl, mapM_eq_ok each reads⟩

theorem ArraySpelled.elements {items : List α} {body : Json} {key : String}
    (h : ArraySpelled spells items (body.member? key))
    (reads : ∀ {a raw}, spells a raw → read raw = .ok a) :
    ∃ raws, body.item key = .ok (.arr raws) ∧ raws.mapM read = .ok items := by
  obtain ⟨raws, here, each⟩ := h
  exact ⟨raws, Json.item_eq_ok here, mapM_eq_ok each reads⟩

theorem MapSpelled.entries {entries : List (String × α)} {member : Option Json}
    (h : MapSpelled spells entries member) (reads : ∀ {a raw}, spells a raw → read raw = .ok a) :
    ∃ members, (member.getD .null).entriesIfAny = .ok members ∧
      readEntries read members = .ok entries := by
  cases h with
  | empty blank => exact ⟨[], by rw [blank.getD_eq]; rfl, rfl⟩
  | @object _ members each =>
    refine ⟨members, by cases members <;> rfl, ?_⟩
    induction each with
    | nil => rfl
    | cons head _ ih =>
      obtain ⟨key, spelled⟩ := head
      rw [readEntries] at ih ⊢
      rw [List.mapM_cons, ih, reads spelled, ← key]
      rfl

end

theorem TableSpelled.mapping_eq {entries : List (Json × Json)} {member : Option Json}
    (h : TableSpelled entries member) : (member.getD .null).mapping = .ok entries := by
  cases h with
  | empty blank => rw [blank.getD_eq]; rfl
  | object members => cases members <;> rfl

theorem TypeRef.ofJson_eq {r : TypeRef} {raw : Json} (h : r.SpelledBy raw) :
    TypeRef.ofJson raw = .ok r := by
  cases h with
  | primitive p => simp [TypeRef.ofJson, Primitive.ofJson, Primitive.ofTag?_tag, Except.map]
  | node index => rfl

theorem TypeRef.ofJson?_eq {r : Option TypeRef} {member : Option Json}
    (h : OptionSpelled TypeRef.SpelledBy r member) :
    TypeRef.ofJson? (member.getD .null) = .ok r := by
  cases h with
  | absent blank => rw [blank.getD_eq]; rfl
  | @given r raw spelled =>
    have some : raw.isNull = false := by cases spelled <;> rfl
    simp [TypeRef.ofJson?, some, TypeRef.ofJson_eq spelled, Except.map]

theorem Field.ofJson_eq {f : Field} {raw : Json} (h : f.SpelledBy raw) :
    Field.ofJson raw = .ok f := by
  obtain ⟨members, rfl⟩ := Json.exists_members h.name
  obtain ⟨type, here, spelled⟩ := h.type
  simp [Field.ofJson, Json.item_eq_ok h.name, Json.item_eq_ok here, TypeRef.ofJson_eq spelled,
    Json.get_obj, docsOfJson_eq h.docs, ok_bind, pure_eq_ok]

theorem Label.ofJson_eq {l : Label} {raw : Json} (h : l.SpelledBy raw) :
    Label.ofJson raw = .ok l := by
  obtain ⟨members, rfl⟩ := Json.exists_members h.name
  simp [Label.ofJson, Json.item_eq_ok h.name, Json.get_obj, docsOfJson_eq h.docs, ok_bind,
    pure_eq_ok]

theorem Case.ofJson_eq {c : Case} {raw : Json} (h : c.SpelledBy raw) :
    Case.ofJson raw = .ok c := by
  obtain ⟨members, rfl⟩ := Json.exists_members h.name
  simp [Case.ofJson, Json.item_eq_ok h.name, Json.get_obj, TypeRef.ofJson?_eq h.payload,
    docsOfJson_eq h.docs, ok_bind, pure_eq_ok]

theorem handleOfJson_own {index raw body : Json} (here : body.member? "own" = some index) :
    handleOfJson raw body = .ok (.handle .own index) := by
  obtain ⟨members, rfl⟩ := Json.exists_members here
  have there : members.lookup "own" = some index := here
  simp [handleOfJson, Json.has_obj, there, Json.item_eq_ok here, ok_bind, pure_eq_ok]

theorem handleOfJson_borrow {index raw : Json} {members : List (String × Json)}
    (other : members.lookup "own" = none) (here : members.lookup "borrow" = some index) :
    handleOfJson raw (.obj members) = .ok (.handle .borrow index) := by
  have there : (Json.obj members).member? "borrow" = some index := here
  simp [handleOfJson, Json.has_obj, other, here, Json.item_eq_ok there, ok_bind, pure_eq_ok]

theorem Kind.ofJson_eq {k : Kind} {raw : Json} (h : k.SpelledBy raw) : Kind.ofJson raw = .ok k := by
  cases h with
  | resource => rfl
  | record items =>
    obtain ⟨raws, here, read⟩ := items.elements Field.ofJson_eq
    simp [Kind.ofJson, Kind.ofTagged, here, Json.elements, read, ok_bind, pure_eq_ok]
  | own here => exact handleOfJson_own here
  | borrow other here => exact handleOfJson_borrow other here
  | flags items =>
    obtain ⟨raws, here, read⟩ := items.elements Label.ofJson_eq
    simp [Kind.ofJson, Kind.ofTagged, here, Json.elements, read, ok_bind, pure_eq_ok]
  | tuple items =>
    obtain ⟨raws, here, read⟩ := items.elements TypeRef.ofJson_eq
    simp [Kind.ofJson, Kind.ofTagged, here, Json.elements, read, ok_bind, pure_eq_ok]
  | variant items =>
    obtain ⟨raws, here, read⟩ := items.elements Case.ofJson_eq
    simp [Kind.ofJson, Kind.ofTagged, here, Json.elements, read, ok_bind, pure_eq_ok]
  | enum items =>
    obtain ⟨raws, here, read⟩ := items.elements Label.ofJson_eq
    simp [Kind.ofJson, Kind.ofTagged, here, Json.elements, read, ok_bind, pure_eq_ok]
  | option spelled => simp [Kind.ofJson, Kind.ofTagged, TypeRef.ofJson_eq spelled, Except.map]
  | @result ok err members left right =>
    have hl := TypeRef.ofJson?_eq left
    have hr := TypeRef.ofJson?_eq right
    simp [Kind.ofJson, Kind.ofTagged, Json.get_obj, Json.member?, hl, hr, ok_bind, pure_eq_ok]
  | list spelled => simp [Kind.ofJson, Kind.ofTagged, TypeRef.ofJson_eq spelled, Except.map]
  | @future type raw spelled =>
    have read : TypeRef.ofJson? raw = .ok type := TypeRef.ofJson?_eq spelled
    simp [Kind.ofJson, Kind.ofTagged, read, Except.map]
  | @stream type raw spelled =>
    have read : TypeRef.ofJson? raw = .ok type := TypeRef.ofJson?_eq spelled
    simp [Kind.ofJson, Kind.ofTagged, read, Except.map]
  | «alias» spelled => simp [Kind.ofJson, Kind.ofTagged, TypeRef.ofJson_eq spelled, Except.map]

theorem isTruthy_of_lookup {members : List (String × Json)} {key : String} {v : Json}
    (h : members.lookup key = some v) : (Json.obj members).isTruthy = true := by
  cases members with
  | nil => cases h
  | cons m rest => rfl

theorem Owner.ofJson?_eq {owner : Option Owner} {member : Option Json}
    (h : OptionSpelled Owner.SpelledBy owner member) :
    Owner.ofJson? (member.getD .null) = .ok owner := by
  cases h with
  | absent blank => rw [blank.getD_eq]; rfl
  | given spelled =>
    cases spelled with
    | @world index raw here =>
      obtain ⟨members, rfl⟩ := Json.exists_members here
      have there : members.lookup "world" = some index := here
      simp [Owner.ofJson?, isTruthy_of_lookup there, Json.has_obj, there, Json.item_eq_ok here,
        ok_bind, pure_eq_ok]
    | @interface index members other here =>
      have there : (Json.obj members).member? "interface" = some index := here
      simp [Owner.ofJson?, isTruthy_of_lookup here, Json.has_obj, other, Json.item_eq_ok there,
        ok_bind, pure_eq_ok]

theorem TypeDef.ofJson_eq {t : TypeDef} {raw : Json} (h : t.SpelledBy raw) :
    TypeDef.ofJson raw = .ok t := by
  obtain ⟨kind, here, spelled⟩ := h.kind
  obtain ⟨members, rfl⟩ := Json.exists_members here
  simp [TypeDef.ofJson, Json.item_eq_ok here, Kind.ofJson_eq spelled, Json.get_obj,
    h.name.getD_eq, Owner.ofJson?_eq h.owner, docsOfJson_eq h.docs, stabilityOfJson_eq h.stability,
    ok_bind, pure_eq_ok]

theorem Param.ofJson_eq {p : Param} {raw : Json} (h : p.SpelledBy raw) :
    Param.ofJson raw = .ok p := by
  cases h with
  | object name here spelled =>
    obtain ⟨members, rfl⟩ := Json.exists_members name
    simp [Param.ofJson, Json.item_eq_ok name, Json.item_eq_ok here, TypeRef.ofJson_eq spelled,
      ok_bind, pure_eq_ok]
  | pair spelled =>
    simp [Param.ofJson, Json.pair, Json.elements, TypeRef.ofJson_eq spelled, ok_bind, pure_eq_ok]

theorem resultOfJson_eq {result : Option TypeRef} {members : List (String × Json)}
    (h : ResultSpelled (.obj members) result) : resultOfJson (.obj members) = .ok result := by
  cases h with
  | @result type value here spelled =>
    have given : value.isNull = false := by cases spelled <;> rfl
    simp [resultOfJson, Json.get_obj, here, given, TypeRef.ofJson_eq spelled, ok_bind, pure_eq_ok]
  | @anon type value results blank here inside spelled =>
    obtain ⟨inner, rfl⟩ := Json.exists_members inside
    have there : inner.lookup "anon" = some value := inside
    have read : TypeRef.ofJson? value = .ok (some type) := TypeRef.ofJson?_eq (.given spelled)
    simp [resultOfJson, Json.get_obj, blank.getD_eq, Json.isNull, here, there, read, ok_bind]
  | absent blank anonymous =>
    simp only [resultOfJson, Json.get_obj, ok_bind, blank.getD_eq, Json.isNull]
    cases hr : (Json.obj members).member? "results" with
    | none => rfl
    | some results =>
      cases results with
      | obj inner =>
        have nothing : (inner.lookup "anon").getD .null = .null := (anonymous _ hr).getD_eq
        simp [nothing, TypeRef.ofJson?, Json.isNull]
      | _ => rfl

theorem taggedResource_eq {kind : FunctionKind} {resource : Json} {member : Option Json}
    (h : kind.SpelledBy resource member) :
    taggedResource (member.getD (.str "freestanding")) = .ok (.str kind.tag, resource) := by
  cases h <;> rfl

theorem FunctionKind.ofJson_tag (kind : FunctionKind) :
    FunctionKind.ofJson (.str kind.tag) = .ok kind := by
  simp [FunctionKind.ofJson, FunctionKind.ofTag?_tag]

theorem Function.ofJson_eq {f : Function} {raw : Json} (h : f.SpelledBy raw) :
    Function.ofJson raw = .ok f := by
  obtain ⟨members, rfl⟩ := Json.exists_members h.name
  obtain ⟨raws, params, readParams⟩ := h.params.elements Param.ofJson_eq
  have kind := taggedResource_eq h.kind
  simp only [Json.member?] at kind
  simp [Function.ofJson, Json.find, kind, Json.item_eq_ok h.name, Json.get_obj, params,
    readParams, resultOfJson_eq h.result, FunctionKind.ofJson_tag,
    docsOfJson_eq h.docs, stabilityOfJson_eq h.stability, ok_bind, pure_eq_ok]

theorem WorldItem.ofJson_eq {i : WorldItem} {raw : Json} (h : i.SpelledBy raw) :
    WorldItem.ofJson raw = .ok i := by
  cases h with
  | @function f raw value here spelled =>
    obtain ⟨members, rfl⟩ := Json.exists_members here
    have there : members.lookup "function" = some value := here
    simp [WorldItem.ofJson, Json.has_obj, there, Json.item_eq_ok here, Function.ofJson_eq spelled,
      ok_bind, pure_eq_ok]
  | @interface index members value function here spelled =>
    have there : (Json.obj members).member? "interface" = some value := here
    cases spelled with
    | bare =>
      simp [WorldItem.ofJson, Json.has_obj, function, here, Json.item_eq_ok there, ok_bind,
        pure_eq_ok]
    | @object _ inner id =>
      have inside : (Json.obj inner).member? "id" = some index := id
      simp [WorldItem.ofJson, Json.has_obj, function, here, Json.item_eq_ok there,
        Json.item_eq_ok inside, ok_bind, pure_eq_ok]
  | type function interface here =>
    simp [WorldItem.ofJson, Json.has_obj, function, interface, Json.get_obj, Json.member?, here,
      ok_bind, pure_eq_ok]

theorem World.ofJson_eq {w : World} {raw : Json} (h : w.SpelledBy raw) :
    World.ofJson raw = .ok w := by
  obtain ⟨members, rfl⟩ := Json.exists_members h.name
  obtain ⟨exports, he, readExports⟩ := h.exports.entries WorldItem.ofJson_eq
  obtain ⟨imports, hi, readImports⟩ := h.imports.entries WorldItem.ofJson_eq
  simp [World.ofJson, Json.item_eq_ok h.name, Json.get_obj, he, readExports, hi, readImports,
    h.package.getD_eq, docsOfJson_eq h.docs, ok_bind, pure_eq_ok]

theorem Interface.ofJson_eq {i : Interface} {raw : Json} (h : i.SpelledBy raw) :
    Interface.ofJson raw = .ok i := by
  obtain ⟨members, rfl⟩ := h.object
  obtain ⟨functions, hf, readFunctions⟩ := h.functions.entries Function.ofJson_eq
  simp [Interface.ofJson, Json.get_obj, h.name.getD_eq, h.types.mapping_eq, hf, readFunctions,
    h.package.getD_eq, ok_bind, pure_eq_ok]

theorem Package.ofJson_eq {p : Package} {raw : Json} (h : p.SpelledBy raw) :
    Package.ofJson raw = .ok p := by
  obtain ⟨members, rfl⟩ := Json.exists_members h.name
  simp [Package.ofJson, Json.item_eq_ok h.name, Json.get_obj, h.interfaces.mapping_eq,
    h.worlds.mapping_eq, ok_bind, pure_eq_ok]

theorem Graph.ofJson_eq {g : Graph} {raw : Json} (h : g.SpelledBy raw) :
    Graph.ofJson raw = .ok g := by
  obtain ⟨members, rfl⟩ := h.object
  obtain ⟨types, ht, readTypes⟩ := h.types.elements TypeDef.ofJson_eq
  obtain ⟨worlds, hw, readWorlds⟩ := h.worlds.elements World.ofJson_eq
  obtain ⟨interfaces, hi, readInterfaces⟩ := h.interfaces.elements Interface.ofJson_eq
  obtain ⟨packages, hp, readPackages⟩ := h.packages.elements Package.ofJson_eq
  simp [Graph.ofJson, Json.get_obj, ht, readTypes, hw, readWorlds, hi, readInterfaces, hp,
    readPackages, ok_bind, pure_eq_ok]

/-- Every graph whose kinds are recognised can be written, and however each of its parts is
spelled, the reader gives the graph itself. The id of a definition is its place in the list. -/
theorem reading_inverts_spelling {g : Graph} (writable : g.Writable) :
    (∃ raw, g.SpelledBy raw) ∧ ∀ raw, g.SpelledBy raw → Graph.ofJson raw = .ok g :=
  ⟨Graph.exists_spelling writable, fun _ => Graph.ofJson_eq⟩

def counterGet : Function where
  name := .str "get"
  params := [⟨.str "self", .node 1⟩, ⟨.str "step", .primitive .u8⟩]
  result := some (.primitive .u32)
  kind := .method
  resource := .int 0
  docs := .null
  stability := .str "stable"

def counter : Graph where
  types := [⟨.resource, .str "counter", some ⟨.interface, .int 0⟩, .str "Counts.", .null⟩,
    ⟨.handle .borrow (.int 0), .null, none, .null, .null⟩]
  worlds := [⟨.str "w", [("api", .interface (.int 0)), ("get", .function counterGet)], [], .null,
    .null⟩]
  interfaces := [⟨.null, [(.str "counter", .int 0)], [], .null⟩]
  packages := []

def counterGetJson : Json := .obj [("since", .int 1), ("kind", .obj [("method", .int 0)]),
  ("stability", .obj [("stable", .obj [])]), ("name", .str "get"),
  ("params", .arr [.arr [.str "self", .int 1], .obj [("name", .str "step"), ("type", .str "u8")]]),
  ("result", .null), ("results", .obj [("anon", .str "u32")])]

def counterJson : Json := .obj [
  ("types", .arr [
    .obj [("name", .str "counter"), ("kind", .str "resource"),
      ("owner", .obj [("interface", .int 0)]), ("docs", .obj [("contents", .str "Counts.")]),
      ("id", .int 7)],
    .obj [("kind", .obj [("handle", .obj [("borrow", .int 0)])]), ("owner", .null)]]),
  ("worlds", .arr [.obj [("name", .str "w"), ("imports", .null),
    ("exports", .obj [("api", .obj [("interface", .obj [("id", .int 0)])]),
      ("get", .obj [("function", counterGetJson)])])]]),
  ("interfaces", .arr [.obj [("types", .obj [("counter", .int 0)])]]),
  ("packages", .null)]

theorem counter_writable : counter.Writable where
  kinds := by simp [counter]
  types := by simp [counter, NullOrText]
  items := by
    rintro w hw e he f hf
    obtain rfl := List.mem_singleton.mp hw
    obtain rfl | rfl : e = ("api", .interface (.int 0)) ∨ e = ("get", .function counterGet) := by
      simpa using he
    · cases hf
    · cases hf
      exact .inr ⟨"stable", rfl⟩
  functions := by simp [counter]
  interfaces := by simp [counter, KeyedByTexts]
  packages := by simp [counter]

theorem counterGet_spelled : counterGet.SpelledBy counterGetJson where
  name := rfl
  params := .array (.cons (.pair (.node 1)) (.cons (.object rfl rfl (.primitive .u8)) .nil))
  result := .anon .null rfl rfl (.primitive .u32)
  kind := .tagged .method (.int 0)
  docs := .missing
  stability := .keyed "stable" (.obj [])

theorem counter_spelled : counter.SpelledBy counterJson where
  object := ⟨_, rfl⟩
  types := .array (.cons
    ⟨⟨_, rfl, .resource⟩, .given _, .given (.interface rfl rfl), .nested (.given _),
      .absent .missing⟩
    (.cons ⟨⟨_, rfl, .borrow rfl rfl⟩, .missing, .absent .null, .missing, .absent .missing⟩ .nil))
  worlds := .array (.cons
    ⟨rfl, .object (.cons ⟨rfl, .interface rfl rfl (.object rfl)⟩
      (.cons ⟨rfl, .function rfl counterGet_spelled⟩ .nil)), .empty .null, .missing, .missing⟩ .nil)
  interfaces := .array (.cons
    ⟨⟨_, rfl⟩, .missing, .object [("counter", .int 0)], .empty .missing, .missing⟩ .nil)
  packages := .empty .null

theorem counter_read_back : counter.Writable ∧ counter.SpelledBy counterJson ∧
    Graph.ofJson counterJson = .ok counter :=
  ⟨counter_writable, counter_spelled,
    (reading_inverts_spelling counter_writable).2 counterJson counter_spelled⟩

def loneKind (kind : Json) : Json := .obj [("types", .arr [.obj [("kind", kind)]])]

def loneExport (item : Json) : Json :=
  .obj [("worlds", .arr [.obj [("name", .str "w"), ("exports", .obj [("e", item)])]])]

/-- Blanks are not allowed everywhere. A record without its array of fields is no record without
fields, a future without its payload is not written as the tag alone, and an item that names an
interface is taken for a function when that key is there, even with `null` under it. -/
theorem blank_refused :
    Graph.ofJson (loneKind (.obj [("record", .obj [("fields", .arr [])])])) =
        .ok ⟨[⟨.record [], .null, none, .null, .null⟩], [], [], []⟩ ∧
      Graph.ofJson (loneKind (.obj [("record", .obj [])])) =
        .error (.shape (.missingKey "fields")) ∧
      Graph.ofJson (loneKind (.str "future")) = .error (.unsupportedKind (.str "future")) ∧
      Graph.ofJson (loneExport (.obj [("interface", .int 0)])) =
        .ok ⟨[], [⟨.str "w", [("e", .interface (.int 0))], [], .null, .null⟩], [], []⟩ ∧
      Graph.ofJson (loneExport (.obj [("function", .null), ("interface", .int 0)])) =
        .error (.shape .notObject) :=
  ⟨rfl, rfl, rfl, rfl, rfl⟩

end Wit

end WitSchema
