import Mathlib.Data.List.Nodup
import Mathlib.Logic.Relation
import WitSchema.GraphQL.Completion
import WitSchema.Proofs.GraphQL.Plan

/-! Where the errors of a completed value stand. As long as every type on the
way has `null`, a value is completed whatever fails below it, every failure has
`null` at its own path and one error there, and nothing else is reported.

A question is a value to be completed: its type, what its source answered, its
place, and what is selected on it. Questions ask others below them; the faults
of all of these are the errors of a completion. -/

namespace WitSchema

def Json.at? : List Json → Json → Option Json
  | [], v => some v
  | .str key :: rest, .obj members => (members.lookup key).bind (Json.at? rest)
  | .int (.ofNat i) :: rest, .arr items => items[i]?.bind (Json.at? rest)
  | _, _ => none

theorem Json.eq_null {v : Json} (h : v.isNull = true) : v = .null := by
  cases v with
  | null => rfl
  | _ => exact absurd h Bool.false_ne_true

namespace GraphQL

/-- Types that have `null` down to the items of their lists and lead to no object types but those
within a set. -/
def Ty.Soft (within : Nat → Prop) : Ty → Prop
  | scalar _ => True
  | list _ _ item => item.Soft within
  | aggregate _ index => within index
  | nonNull _ => False

def Store.Soft (s : Store) (within : Nat → Prop) : Prop :=
  ∀ index a, within index → s.get? .output index = some a → ∀ m ∈ a.fields, m.2.type.Soft within

theorem Ty.Soft.nullable {within : Nat → Prop} {t : Ty} (soft : t.Soft within) :
    t.isNonNull = false := by
  cases t with
  | nonNull _ => exact soft.elim
  | _ => rfl

namespace Completion

theorem settle_nullable {t : Ty} (nullable : t.isNonNull = false) (c : Completion) :
    c.settle t = ⟨c.errors, some (c.value.getD .null)⟩ := by
  rw [settle, nullable]
  rfl

/-- A completed value whose errors stand below a path, each at a `null` of its own. -/
structure Owned (path : List Json) (c : Completion) : Prop where
  located : ∃ v, c.value = some v ∧
    ∀ e ∈ c.errors, ∃ rest, e.path = path ++ rest ∧ v.at? rest = some .null
  apart : (c.errors.map (·.path)).Nodup

theorem owned_of_clean {path : List Json} {c : Completion} {v : Json} (errors : c.errors = [])
    (value : c.value = some v) : c.Owned path :=
  ⟨⟨v, value, by simp [errors]⟩, by simp [errors]⟩

theorem all_of_values {parts : List Completion} (h : ∀ c ∈ parts, ∃ v, c.value = some v) :
    all parts = (parts.flatMap (·.errors), some (parts.map fun c => c.value.getD .null)) := by
  induction parts with
  | nil => rfl
  | cons c rest ih =>
    obtain ⟨v, value⟩ := h c List.mem_cons_self
    rw [all, ih fun c member => h c (List.mem_cons_of_mem _ member)]
    simp [value]

section Parts

variable {path : List Json}

theorem apart_of_parts {parts : List (Json × Completion)} (steps : (parts.map (·.1)).Nodup)
    (owned : ∀ p ∈ parts, p.2.Owned (path ++ [p.1])) :
    ((parts.flatMap (·.2.errors)).map (·.path)).Nodup := by
  rw [List.map_flatMap, List.nodup_flatMap]
  refine ⟨fun p member => (owned p member).apart, ?_⟩
  have distinct := List.pairwise_map.mp steps
  refine distinct.imp_of_mem fun {p q} hp hq different => ?_
  intro place left right
  obtain ⟨e, he, rfl⟩ := List.mem_map.mp left
  obtain ⟨d, hd, same⟩ := List.mem_map.mp right
  obtain ⟨v, -, below⟩ := (owned p hp).located
  obtain ⟨w, -, beside⟩ := (owned q hq).located
  obtain ⟨xs, first, -⟩ := below e he
  obtain ⟨ys, second, -⟩ := beside d hd
  have := same.symm.trans second
  rw [first, List.append_assoc, List.append_assoc, List.append_cancel_left_eq] at this
  exact different (List.cons.inj this).1

theorem value_of_owned {c : Completion} (owned : c.Owned path) :
    c.value = some (c.value.getD .null) := by
  obtain ⟨v, value, -⟩ := owned.located
  simp [value]

theorem located_at {c : Completion} {e : FieldError} (owned : c.Owned path) (member : e ∈ c.errors) :
    ∃ rest, e.path = path ++ rest ∧ (c.value.getD .null).at? rest = some .null := by
  obtain ⟨v, value, below⟩ := owned.located
  simpa [value] using below e member

theorem answerObject_of_owned {parts : List (String × Completion)}
    (owned : ∀ p ∈ parts, p.2.Owned (path ++ [.str p.1])) :
    answerObject (parts.map (·.1)) (parts.map (·.2)) =
      ⟨parts.flatMap (·.2.errors),
        some (.obj (parts.map fun p => (p.1, p.2.value.getD .null)))⟩ := by
  rw [answerObject, all_of_values]
  · simp [List.flatMap_map, List.zip_map', Function.comp_def]
  · intro c member
    obtain ⟨p, there, rfl⟩ := List.mem_map.mp member
    exact ⟨_, value_of_owned (owned p there)⟩

theorem owned_object {parts : List (String × Completion)} (keys : (parts.map (·.1)).Nodup)
    (owned : ∀ p ∈ parts, p.2.Owned (path ++ [.str p.1])) :
    (answerObject (parts.map (·.1)) (parts.map (·.2))).Owned path := by
  rw [answerObject_of_owned owned]
  refine ⟨⟨_, rfl, ?_⟩, ?_⟩
  · intro e member
    obtain ⟨p, there, member⟩ := List.mem_flatMap.mp member
    obtain ⟨rest, place, value⟩ := located_at (owned p there) member
    refine ⟨.str p.1 :: rest, by rw [place, List.append_assoc]; rfl, ?_⟩
    have found : (parts.map fun p => (p.1, p.2.value.getD .null)).lookup p.1 =
        some (p.2.value.getD .null) := by
      apply lookup_of_mem
      · simpa [Function.comp_def] using keys
      · exact List.mem_map.mpr ⟨p, there, rfl⟩
    rw [Json.at?, found]
    exact value
  · have steps : ((parts.map fun p => (Json.str p.1, p.2)).map (·.1)).Nodup := by
      have := keys.map (f := Json.str) fun _ _ => Json.str.inj
      simpa [Function.comp_def] using this
    have below : ∀ p ∈ parts.map fun p => (Json.str p.1, p.2), p.2.Owned (path ++ [p.1]) := by
      intro p member
      obtain ⟨q, there, rfl⟩ := List.mem_map.mp member
      exact owned q there
    simpa [List.flatMap_map] using apart_of_parts steps below

theorem owned_list {parts : List Completion}
    (owned : ∀ (i : Nat) (c : Completion), parts[i]? = some c → c.Owned (path ++ [.int i])) :
    Owned path ⟨(all parts).1, (all parts).2.map .arr⟩ := by
  have valued : ∀ c ∈ parts, ∃ v, c.value = some v := by
    intro c member
    obtain ⟨i, there⟩ := List.mem_iff_getElem?.mp member
    exact ⟨_, value_of_owned (owned i c there)⟩
  rw [all_of_values valued]
  refine ⟨⟨_, rfl, ?_⟩, ?_⟩
  · intro e member
    obtain ⟨c, there, member⟩ := List.mem_flatMap.mp member
    obtain ⟨i, there⟩ := List.mem_iff_getElem?.mp there
    obtain ⟨rest, place, value⟩ := located_at (owned i c there) member
    refine ⟨.int i :: rest, by rw [place, List.append_assoc]; rfl, ?_⟩
    change (((parts.map fun c => c.value.getD .null)[i]?).bind (Json.at? rest)) = _
    rw [List.getElem?_map, there]
    exact value
  · have steps : ((parts.mapIdx fun i c => (Json.int i, c)).map (·.1)).Nodup := by
      rw [List.nodup_iff_injective_get]
      intro i j same
      have : (i.val : Int) = j.val := by simpa using same
      omega
    have below : ∀ p ∈ parts.mapIdx fun i c => (Json.int i, c), p.2.Owned (path ++ [p.1]) := by
      intro p member
      obtain ⟨i, there⟩ := List.mem_iff_getElem?.mp member
      simp only [List.getElem?_mapIdx, Option.map_eq_some_iff] at there
      obtain ⟨c, there, rfl⟩ := there
      exact owned i c there
    have flat : (parts.mapIdx fun i c => (Json.int i, c)).flatMap (·.2.errors) =
        parts.flatMap (·.errors) := by
      rw [← List.flatMap_map (f := Prod.snd) (g := Completion.errors)]
      congr 1
      apply List.ext_getElem?
      intro i
      rw [List.getElem?_map, List.getElem?_mapIdx]
      cases parts[i]? <;> rfl
    exact flat ▸ apart_of_parts steps below

end Parts

end Completion

structure Question where
  type : Ty
  value : Except String Json
  spot : Spot
  children : List PlannedField

namespace Question

def complete (s : Store) (q : Question) : Completion :=
  match q.value with
  | .error message => (q.spot.fail message).settle q.type
  | .ok v =>
    (completeWith (fun i v spot => answerObject (q.children.map (·.key))
      (answerMembers s i v spot.path q.children)) q.type v q.spot).settle q.type

/-- Why there is no value to show: the source has none, or it does not fit the type. What goes
wrong below does not count. -/
def fault? (q : Question) : Option String :=
  match q.value with
  | .error message => some message
  | .ok .null => none
  | .ok v =>
    match q.type, v with
    | .scalar scalar, v =>
      match scalar.output v with
      | .ok _ => none
      | .error fault => some fault.message
    | .list .., .arr _ => none
    | .list .., _ =>
      some ("Expected Iterable, but did not find one for field '" ++ q.spot.field ++ "'.")
    | _, _ => none

def error? (q : Question) : Option FieldError :=
  q.fault?.map fun message => ⟨q.spot.path, q.spot.offsets, message⟩

def ofMember (a : Aggregate) (m : Member) (source : Json) (path : List Json) (f : PlannedField) :
    Question :=
  ⟨m.type, Attribute.ofValue source f.name,
    ⟨path ++ [.str f.key], f.offsets, a.name ++ "." ++ f.name⟩, f.children⟩

inductive Asks (s : Store) : Question → Question → Prop
  | item {direction : Direction} {serial : Nat} {item : Ty} {items : List Json} {spot : Spot}
      {children : List PlannedField} {i : Nat} {v : Json} (there : items[i]? = some v) :
      Asks s ⟨.list direction serial item, .ok (.arr items), spot, children⟩
        ⟨item, .ok v, spot.element i, children⟩
  | member {direction : Direction} {index : Nat} {v : Json} {spot : Spot}
      {children : List PlannedField} {f : PlannedField} {a : Aggregate} {m : Member}
      (present : v.isNull = false) (selected : f ∈ children)
      (object : s.get? .output index = some a) (real : f.name ≠ "__typename")
      (field : a.fields.lookup f.name = some m) :
      Asks s ⟨.aggregate direction index, .ok v, spot, children⟩ (ofMember a m v spot.path f)

abbrev Reaches (s : Store) : Question → Question → Prop := Relation.ReflTransGen (Asks s)

/-- The faults of a question and of all below it are exactly the errors of its completion, each
where its value would be and with `null` there. -/
structure Contained (s : Store) (q : Question) : Prop where
  owned : (q.complete s).Owned q.spot.path
  exact : ∀ e, e ∈ (q.complete s).errors ↔ ∃ r, Reaches s q r ∧ r.error? = some e

section

variable {s : Store} {q : Question}

theorem contained_of_fault {e : FieldError} (fault : q.error? = some e)
    (last : ∀ r, ¬ Asks s q r) (complete : q.complete s = ⟨[e], some .null⟩) :
    q.Contained s := by
  obtain ⟨message, -, rfl⟩ := Option.map_eq_some_iff.mp fault
  constructor
  · rw [complete]
    exact ⟨⟨.null, rfl, fun d member => ⟨[], by simp_all [Json.at?]⟩⟩, by simp⟩
  · intro d
    rw [complete]
    constructor
    · intro member
      exact ⟨q, .refl, by rw [fault, List.mem_singleton.mp member]⟩
    · rintro ⟨r, reached, found⟩
      rcases reached.cases_head with rfl | ⟨r, ask, -⟩
      · exact List.mem_singleton.mpr (Option.some.inj (found.symm.trans fault))
      · exact absurd ask (last r)

/-- A question without a fault of its own has the errors of those it asks. -/
theorem contained_of_parts (clean : q.error? = none) (owned : (q.complete s).Owned q.spot.path)
    (parts : ∀ e, e ∈ (q.complete s).errors ↔ ∃ r, Asks s q r ∧ e ∈ (r.complete s).errors)
    (below : ∀ r, Asks s q r → r.Contained s) : q.Contained s := by
  refine ⟨owned, fun e => ?_⟩
  rw [parts]
  constructor
  · rintro ⟨r, ask, member⟩
    obtain ⟨t, reached, found⟩ := ((below r ask).exact e).mp member
    exact ⟨t, .head ask reached, found⟩
  · rintro ⟨t, reached, found⟩
    rcases reached.cases_head with rfl | ⟨r, ask, reached⟩
    · rw [clean] at found
      exact absurd found (by simp)
    · exact ⟨r, ask, ((below r ask).exact e).mpr ⟨t, reached, found⟩⟩

theorem contained_of_leaf {v : Json} (clean : q.error? = none) (last : ∀ r, ¬ Asks s q r)
    (complete : q.complete s = ⟨[], some v⟩) : q.Contained s := by
  apply contained_of_parts clean
  · rw [complete]
    exact Completion.owned_of_clean rfl rfl
  · intro e
    simp [complete, last]
  · exact fun r ask => absurd ask (last r)

end

section

variable {s : Store} {spot : Spot} {children : List PlannedField}

theorem contained_error {t : Ty} (nullable : t.isNonNull = false) (message : String) :
    Contained s ⟨t, .error message, spot, children⟩ := by
  apply contained_of_fault rfl
  · intro r ask
    cases ask
  · exact Completion.settle_nullable nullable _

theorem contained_null {t : Ty} {within : Nat → Prop} (soft : t.Soft within) :
    Contained s ⟨t, .ok .null, spot, children⟩ := by
  apply contained_of_leaf rfl
  · intro r ask
    cases ask with
    | member present => exact absurd present (by decide)
  · change Completion.settle t (completeWith _ t .null spot) = ⟨[], some .null⟩
    rw [Completion.settle_nullable soft.nullable]
    cases t with
    | nonNull _ => exact soft.elim
    | scalar _ => rfl
    | list _ _ _ => rfl
    | aggregate _ _ => rfl

theorem contained_scalar (scalar : Scalar) {v : Json} (present : v.isNull = false) :
    Contained s ⟨.scalar scalar, .ok v, spot, children⟩ := by
  have last : ∀ r, ¬ Asks s ⟨.scalar scalar, .ok v, spot, children⟩ r := by
    intro r ask
    cases ask
  cases shown : scalar.output v with
  | ok w =>
    apply contained_of_leaf (v := w) _ last
    · simp only [complete, completeWith, present, shown]
      rfl
    · cases v <;> simp_all [error?, fault?, Json.isNull]
  | error fault =>
    apply contained_of_fault (e := ⟨spot.path, spot.offsets, fault.message⟩) _ last
    · simp only [complete, completeWith, present, shown]
      rfl
    · cases v <;> simp_all [error?, fault?, Json.isNull]

theorem contained_not_list {direction : Direction} {serial : Nat} {item : Ty} {v : Json}
    (present : v.isNull = false) (single : ∀ items, v ≠ .arr items) :
    Contained s ⟨.list direction serial item, .ok v, spot, children⟩ := by
  apply contained_of_fault (e := ⟨spot.path, spot.offsets,
    "Expected Iterable, but did not find one for field '" ++ spot.field ++ "'."⟩)
  · cases v with
    | null => exact absurd present (by decide)
    | arr items => exact absurd rfl (single items)
    | _ => rfl
  · intro r ask
    cases ask with
    | item => exact single _ rfl
  · cases v with
    | null => exact absurd present (by decide)
    | arr items => exact absurd rfl (single items)
    | _ => rfl

theorem contained_list {direction : Direction} {serial : Nat} {item : Ty} {items : List Json}
    (below : ∀ v spot, Contained s ⟨item, .ok v, spot, children⟩) :
    Contained s ⟨.list direction serial item, .ok (.arr items), spot, children⟩ := by
  let parts := items.mapIdx fun i v => complete s ⟨item, .ok v, spot.element i, children⟩
  have part : ∀ (i : Nat) (c : Completion), parts[i]? = some c →
      ∃ v, items[i]? = some v ∧ complete s ⟨item, .ok v, spot.element i, children⟩ = c := by
    intro i c there
    simpa [parts] using there
  have owned : ∀ (i : Nat) (c : Completion), parts[i]? = some c →
      c.Owned (spot.path ++ [.int i]) := by
    intro i c there
    obtain ⟨v, -, rfl⟩ := part i c there
    exact (below v (spot.element i)).owned
  have whole := Completion.owned_list owned
  have equation : complete s ⟨.list direction serial item, .ok (.arr items), spot, children⟩ =
      ⟨(Completion.all parts).1, (Completion.all parts).2.map .arr⟩ := by
    change Completion.settle _ ⟨(Completion.all parts).1, (Completion.all parts).2.map .arr⟩ = _
    obtain ⟨v, value, -⟩ := whole.located
    rw [Completion.settle_nullable rfl]
    simp only at value ⊢
    rw [value]
    rfl
  apply contained_of_parts rfl
  · rw [equation]
    exact whole
  · intro e
    rw [equation, Completion.all_of_values]
    · rw [List.mem_flatMap]
      constructor
      · rintro ⟨c, there, member⟩
        obtain ⟨i, there⟩ := List.mem_iff_getElem?.mp there
        obtain ⟨v, place, rfl⟩ := part i c there
        exact ⟨_, .item place, member⟩
      · rintro ⟨r, ask, member⟩
        cases ask with
        | item there =>
          exact ⟨_, List.mem_iff_getElem?.mpr ⟨_, by rw [List.getElem?_mapIdx, there]; rfl⟩, member⟩
    · intro c there
      obtain ⟨i, there⟩ := List.mem_iff_getElem?.mp there
      exact ⟨_, Completion.value_of_owned (owned i c there)⟩
  · intro r ask
    cases ask with
    | item => exact below _ _

theorem answerMembers_eq_map (index : Nat) (source : Json) (path : List Json)
    (fields : List PlannedField) :
    answerMembers s index source path fields =
      fields.map (answerMember s index source path) := by
  induction fields with
  | nil => rfl
  | cons f rest ih => rw [answerMembers, ih, List.map_cons]

theorem answerMember_cases (s : Store) (index : Nat) (source : Json) (path : List Json)
    (f : PlannedField) :
    (∃ a m, s.get? .output index = some a ∧ f.name ≠ "__typename" ∧
      a.fields.lookup f.name = some m ∧
      answerMember s index source path f = (ofMember a m source path f).complete s) ∨
    (∃ v, answerMember s index source path f = .ok v) ∧
      ∀ a m, s.get? .output index = some a → f.name ≠ "__typename" →
        a.fields.lookup f.name ≠ some m := by
  obtain ⟨key, name, arguments, offsets, hasBraces, children⟩ := f
  rw [answerMember]
  cases object : s.get? .output index with
  | none => exact .inr ⟨⟨_, rfl⟩, by simp⟩
  | some a =>
    by_cases real : name = "__typename"
    · exact .inr ⟨⟨.str a.name, by simp [real]⟩, fun _ _ _ other => absurd real other⟩
    · simp only [if_neg real]
      cases field : a.fields.lookup name with
      | none => exact .inr ⟨⟨_, rfl⟩, by rintro b m ⟨⟩ -; simp [field]⟩
      | some m =>
        refine .inl ⟨a, m, rfl, real, field, ?_⟩
        simp only [complete, ofMember]
        cases Attribute.ofValue source name <;> rfl

theorem contained_object {direction : Direction} {index : Nat} {v : Json}
    (present : v.isNull = false) (keys : (children.map (·.key)).Nodup)
    (below : ∀ f ∈ children, ∀ a m path, s.get? .output index = some a →
      a.fields.lookup f.name = some m → (ofMember a m v path f).Contained s) :
    Contained s ⟨.aggregate direction index, .ok v, spot, children⟩ := by
  let parts := children.map fun f => (f.key, answerMember s index v spot.path f)
  have owned : ∀ p ∈ parts, p.2.Owned (spot.path ++ [.str p.1]) := by
    intro p there
    obtain ⟨f, selected, rfl⟩ := List.mem_map.mp there
    obtain ⟨a, m, object, -, field, asked⟩ | ⟨⟨w, known⟩, -⟩ :=
      answerMember_cases s index v spot.path f
    · rw [asked]
      exact (below f selected a m spot.path object field).owned
    · rw [known]
      exact Completion.owned_of_clean rfl rfl
  have split : answerObject (children.map (·.key))
      (answerMembers s index v spot.path children) =
        answerObject (parts.map (·.1)) (parts.map (·.2)) := by
    simp [parts, answerMembers_eq_map, Function.comp_def]
  have equation : complete s ⟨.aggregate direction index, .ok v, spot, children⟩ =
      answerObject (parts.map (·.1)) (parts.map (·.2)) := by
    rw [complete]
    simp only [completeWith, present, split]
    rw [Completion.answerObject_of_owned owned, Completion.settle_nullable rfl]
    rfl
  apply contained_of_parts
  · cases v <;> rfl
  · rw [equation]
    apply Completion.owned_object _ owned
    simpa [parts, Function.comp_def] using keys
  · intro e
    rw [equation, Completion.answerObject_of_owned owned, List.mem_flatMap]
    constructor
    · rintro ⟨p, there, member⟩
      obtain ⟨f, selected, rfl⟩ := List.mem_map.mp there
      obtain ⟨a, m, object, real, field, asked⟩ | ⟨⟨w, known⟩, -⟩ :=
        answerMember_cases s index v spot.path f
      · exact ⟨_, .member present selected object real field, asked ▸ member⟩
      · rw [known] at member
        exact absurd member List.not_mem_nil
    · rintro ⟨r, ask, member⟩
      cases ask with
      | @member _ _ _ _ _ f a m _ selected object real field =>
        obtain ⟨b, n, other, -, named, asked⟩ | ⟨-, silent⟩ :=
          answerMember_cases s index v spot.path f
        · obtain rfl := Option.some.inj (object.symm.trans other)
          obtain rfl := Option.some.inj (field.symm.trans named)
          exact ⟨_, List.mem_map_of_mem selected, asked ▸ member⟩
        · exact absurd field (silent a m object real)
  · intro r ask
    cases ask with
    | member _ selected object _ field => exact below _ selected _ _ _ object field

end

/-- On soft types nothing fails but where its own question has a fault. The induction is on the
selections and, for one object, on the lists around it. -/
theorem contained_of_soft {s : Store} {within : Nat → Prop} (soft : s.Soft within)
    {children : List PlannedField} (distinct : Plan.Distinct children) :
    ∀ (t : Ty) (value : Except String Json) (spot : Spot), t.Soft within →
      Contained s ⟨t, value, spot, children⟩ := by
  induction distinct with
  | @intro children keys _ ih =>
    intro t
    induction t with
    | nonNull _ => exact fun _ _ h => h.elim
    | scalar scalar =>
      intro value spot h
      cases value with
      | error message => exact contained_error rfl message
      | ok v =>
        cases absent : v.isNull with
        | false => exact contained_scalar scalar absent
        | true =>
          obtain rfl := Json.eq_null absent
          exact contained_null h
    | list direction serial item below =>
      intro value spot h
      match value with
      | .error message => exact contained_error rfl message
      | .ok .null => exact contained_null h
      | .ok (.arr items) => exact contained_list fun v spot => below (.ok v) spot h
      | .ok (.bool _) | .ok (.int _) | .ok (.float _) | .ok (.str _) | .ok (.obj _) =>
        exact contained_not_list rfl nofun
    | aggregate direction index =>
      intro value spot h
      cases value with
      | error message => exact contained_error rfl message
      | ok v =>
        cases absent : v.isNull with
        | true =>
          obtain rfl := Json.eq_null absent
          exact contained_null h
        | false =>
          apply contained_object absent keys
          intro f selected a m path object field
          exact ih f selected _ _ _
            (soft index a h object _ (mem_of_lookup field))

end Question

end GraphQL

end WitSchema
