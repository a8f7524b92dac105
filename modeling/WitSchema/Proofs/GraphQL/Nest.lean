import WitSchema.Proofs.GraphQL.Completion

/-! Integers under lists and options. A type without `null` stands nowhere in
such a nest, so each integer is shown by itself: the value is completed without
errors exactly if the scalar takes all the integers in it. -/

namespace WitSchema

namespace Wit

inductive Nest
  | integer
  | list (item : Nest)
  | option (inner : Nest)

namespace Nest

def Holds (allowed : Int → Prop) : Nest → Json → Prop
  | integer, v => ∃ n, v = .int n ∧ allowed n
  | list item, v => ∃ items, v = .arr items ∧ ∀ v ∈ items, item.Holds allowed v
  | option inner, v => v = .null ∨ inner.Holds allowed v

def shown (write : Int → Json) : Nest → Json → Json
  | integer, .int n => write n
  | list item, .arr items => .arr (items.map (item.shown write))
  | option inner, v => if v.isNull then .null else inner.shown write v
  | _, v => v

def Typed (x : GraphQL.Scalar) : Nest → GraphQL.Ty → Prop
  | integer, t => t = .scalar x
  | list item, t => ∃ direction serial inner, t = .list direction serial inner ∧ item.Typed x inner
  | option inner, t => inner.Typed x t

section Holds

variable {allowed allowed' : Int → Prop} {nest : Nest} {v : Json}

theorem Holds.mono (sub : ∀ n, allowed n → allowed' n) (h : nest.Holds allowed v) :
    nest.Holds allowed' v := by
  induction nest generalizing v with
  | integer =>
    obtain ⟨n, rfl, inside⟩ := h
    exact ⟨n, rfl, sub n inside⟩
  | list item ih =>
    obtain ⟨items, rfl, each⟩ := h
    exact ⟨items, rfl, fun v member => ih (each v member)⟩
  | option inner ih => exact h.imp_right ih

theorem Holds.and (h : nest.Holds allowed v) (h' : nest.Holds allowed' v) :
    nest.Holds (fun n => allowed n ∧ allowed' n) v := by
  induction nest generalizing v with
  | integer =>
    obtain ⟨n, rfl, inside⟩ := h
    obtain ⟨_, ⟨⟩, inside'⟩ := h'
    exact ⟨n, rfl, inside, inside'⟩
  | list item ih =>
    obtain ⟨items, rfl, each⟩ := h
    obtain ⟨_, ⟨⟩, each'⟩ := h'
    exact ⟨items, rfl, fun v member => ih (each v member) (each' v member)⟩
  | option inner ih =>
    obtain rfl | h := h
    · exact .inl rfl
    · exact h'.imp_right (ih h)

end Holds

end Nest

end Wit

namespace GraphQL

open Wit

section Complete

variable {object : Nat → Json → Spot → Completion} {x : Scalar} {nest : Nest} {t : Ty}
  {allowed wide : Int → Prop} {v : Json} {spot : Spot}

theorem nullable_of_typed (typed : nest.Typed x t) : t.isNonNull = false := by
  induction nest with
  | integer =>
    cases typed
    rfl
  | list item =>
    obtain ⟨_, _, _, rfl, -⟩ := typed
    rfl
  | option inner ih => exact ih typed

theorem completeWith_null (typed : nest.Typed x t) :
    completeWith object t .null spot = .ok .null := by
  induction nest with
  | integer =>
    cases typed
    rfl
  | list item =>
    obtain ⟨_, _, _, rfl, -⟩ := typed
    rfl
  | option inner ih => exact ih typed

theorem Completion.all_errors (parts : List Completion) :
    (all parts).1 = parts.flatMap (·.errors) := by
  induction parts with
  | nil => rfl
  | cons c rest ih => rw [all, List.flatMap_cons, ← ih]

theorem completeWith_nest {write : Int → Json}
    (takes : ∀ n, allowed n → x.output (.int n) = .ok (write n)) (typed : nest.Typed x t)
    (holds : nest.Holds allowed v) :
    completeWith object t v spot = ⟨[], some (nest.shown write v)⟩ := by
  induction nest generalizing t v spot with
  | integer =>
    cases typed
    obtain ⟨n, rfl, inside⟩ := holds
    simp only [completeWith, takes n inside]
    rfl
  | list item ih =>
    obtain ⟨_, _, inner, rfl, typed⟩ := typed
    obtain ⟨items, rfl, each⟩ := holds
    have parts : (items.mapIdx fun i v =>
        (completeWith object inner v (spot.element i)).settle inner) =
          items.map fun v => Completion.ok (item.shown write v) := by
      refine List.ext_getElem? fun i => ?_
      rw [List.getElem?_mapIdx, List.getElem?_map]
      refine Option.map_congr fun v there => ?_
      rw [ih typed (each v (List.mem_of_getElem? there)),
        Completion.settle_nullable (nullable_of_typed typed)]
      rfl
    have valued : ∀ c ∈ items.map fun v => Completion.ok (item.shown write v),
        ∃ w, c.value = some w := by
      intro c member
      obtain ⟨v, -, rfl⟩ := List.mem_map.mp member
      exact ⟨_, rfl⟩
    simp only [completeWith, parts, Completion.all_of_values valued]
    simp [Completion.ok, Nest.shown, List.flatMap_map, Function.comp_def]
  | option inner ih =>
    have typed : inner.Typed x t := typed
    cases absent : v.isNull with
    | true =>
      obtain rfl := Json.eq_null absent
      exact completeWith_null typed
    | false =>
      have present : v ≠ .null := by
        rintro rfl
        cases absent
      rw [ih typed (holds.resolve_left present)]
      simp [Nest.shown, absent]

theorem errors_of_nest (refuses : ∀ n, ¬ allowed n → ∃ fault, x.output (.int n) = .error fault)
    (typed : nest.Typed x t) (holds : nest.Holds wide v) (beyond : ¬ nest.Holds allowed v) :
    (completeWith object t v spot).errors ≠ [] := by
  induction nest generalizing t v spot with
  | integer =>
    cases typed
    obtain ⟨n, rfl, -⟩ := holds
    obtain ⟨fault, refused⟩ := refuses n fun inside => beyond ⟨n, rfl, inside⟩
    simp only [completeWith, refused]
    exact List.cons_ne_nil _ _
  | list item ih =>
    obtain ⟨_, _, inner, rfl, typed⟩ := typed
    obtain ⟨items, rfl, each⟩ := holds
    obtain ⟨v, member, beyond⟩ : ∃ v ∈ items, ¬ item.Holds allowed v := by
      by_contra none
      simp only [not_exists, not_and, not_not] at none
      exact beyond ⟨items, rfl, none⟩
    obtain ⟨i, there⟩ := List.mem_iff_getElem?.mp member
    have failed : (completeWith object inner v (spot.element i)).errors ≠ [] :=
      ih typed (each v member) beyond
    have part : (completeWith object inner v (spot.element i)).settle inner ∈
        items.mapIdx fun i v => (completeWith object inner v (spot.element i)).settle inner :=
      List.mem_iff_getElem?.mpr ⟨i, by rw [List.getElem?_mapIdx, there]; rfl⟩
    simp only [completeWith, Completion.all_errors]
    intro none
    have clean := List.flatMap_eq_nil_iff.mp none _ part
    rw [Completion.settle_nullable (nullable_of_typed typed)] at clean
    exact failed clean
  | option inner ih =>
    obtain rfl | holds := holds
    · exact (beyond (.inl rfl)).elim
    · exact ih typed holds fun inside => beyond (.inr inside)

end Complete

end GraphQL

end WitSchema
