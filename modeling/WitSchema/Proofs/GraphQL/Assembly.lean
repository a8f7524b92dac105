import Mathlib.Data.List.Nodup
import WitSchema.GraphQL.Schema

/-! Assembling a schema. Every aggregate that the query type leads to is
collected once, and nothing else is. Assembling fails only with a name that is
not legal or with a name that two types have. -/

namespace WitSchema.GraphQL

def Ty.Within (P : Direction → Nat → Prop) (t : Ty) : Prop :=
  ∀ direction index, t.named = .aggregate direction index → P direction index

def Store.Closed (s : Store) (P : Direction → Nat → Prop) : Prop :=
  ∀ direction index a, P direction index → s.get? direction index = some a →
    ∀ m ∈ a.fields, m.2.type.Within P

theorem Store.mem_ids {s : Store} {direction : Direction} {index : Nat} :
    (direction, index) ∈ s.ids ↔ (s.get? direction index).isSome = true := by
  cases direction <;> simp [ids, get?]

theorem Store.nodup_ids (s : Store) : s.ids.Nodup := by
  rw [ids, List.nodup_append]
  refine ⟨List.nodup_range.map fun _ _ => by simp, List.nodup_range.map fun _ _ => by simp, ?_⟩
  intro a ha b hb
  obtain ⟨i, -, rfl⟩ := List.mem_map.mp ha
  obtain ⟨j, -, rfl⟩ := List.mem_map.mp hb
  simp

section Checks

theorem forM_cons {ε α : Type} (f : α → Except ε Unit) (x : α) (rest : List α) :
    (x :: rest).forM f = f x >>= fun _ => rest.forM f := rfl

theorem forM_error {ε α : Type} {f : α → Except ε Unit} {xs : List α} {e : ε}
    (h : xs.forM f = .error e) : ∃ x ∈ xs, f x = .error e := by
  induction xs with
  | nil => cases h
  | cons x rest ih =>
    rw [forM_cons] at h
    cases first : f x with
    | error e' =>
      rw [first] at h
      cases h
      exact ⟨x, List.mem_cons_self, first⟩
    | ok _ =>
      rw [first] at h
      obtain ⟨y, there, refused⟩ := ih h
      exact ⟨y, List.mem_cons_of_mem _ there, refused⟩

theorem legalName_ok {name : String} (h : checkName name = .ok ()) : legalName name = .ok () := by
  rw [legalName, h]
  rfl

theorem legalFields_error {a : Aggregate} {e : Error} (h : a.legalFields = .error e) :
    ∃ m ∈ a.fields, legalName m.1 = .error e := by
  apply forM_error
  rw [Aggregate.legalFields] at h
  cases checked : a.fields.forM fun f => legalName f.1 with
  | error e' =>
    rw [checked] at h
    cases h
    rfl
  | ok _ =>
    rw [checked] at h
    cases h

end Checks

/-- What is collected from the work: an aggregate when it is met for the first time, and then what
its fields lead to. -/
inductive Collects (s : Store) : List (Direction × Nat) → List Ty → List (Direction × Nat) → Prop
  | done {fresh} : Collects s fresh [] []
  | skip {fresh t rest types}
      (old : t.Within fun direction index => (direction, index) ∈ fresh →
        s.get? direction index = none)
      (later : Collects s fresh rest types) : Collects s fresh (t :: rest) types
  | meet {fresh t rest types direction index a} (named : t.named = .aggregate direction index)
      (new : (direction, index) ∈ fresh) (found : s.get? direction index = some a)
      (later : Collects s (fresh.erase (direction, index)) (a.fields.map (·.2.type) ++ rest) types) :
      Collects s fresh (t :: rest) ((direction, index) :: types)

section Collect

variable {s : Store} {P : Direction → Nat → Prop} {fresh types : List (Direction × Nat)}
  {work : List Ty}

theorem legalFields_ok {a : Aggregate} {fields : List (String × Member)}
    (h : a.legalFields = .ok fields) : fields = a.fields := by
  rw [Aggregate.legalFields] at h
  cases checked : a.fields.forM fun f => legalName f.1 with
  | error e =>
    rw [checked] at h
    cases h
  | ok _ =>
    rw [checked] at h
    cases h
    rfl

theorem map_ok {ε α β : Type} {x : Except ε α} {f : α → β} {b : β} (h : x.map f = .ok b) :
    ∃ a, x = .ok a ∧ f a = b := by
  cases x with
  | error e => cases h
  | ok a => exact ⟨a, rfl, Except.ok.inj h⟩

theorem map_error {ε α β : Type} {x : Except ε α} {f : α → β} {e : ε} (h : x.map f = .error e) :
    x = .error e := by
  cases x with
  | error e' => exact congrArg _ (Except.error.inj h)
  | ok a => cases h

theorem within_fields {a : Aggregate} {rest : List Ty} (members : ∀ m ∈ a.fields, m.2.type.Within P)
    (others : ∀ t ∈ rest, t.Within P) :
    ∀ t ∈ a.fields.map (·.2.type) ++ rest, t.Within P := by
  intro t member
  rcases List.mem_append.mp member with member | member
  · obtain ⟨m, there, rfl⟩ := List.mem_map.mp member
    exact members m there
  · exact others t member

theorem collect_error (closed : s.Closed P) (start : ∀ t ∈ work, t.Within P) {e : Error}
    (h : collect s fresh work = .error e) :
    ∃ direction index a, P direction index ∧ s.get? direction index = some a ∧
      a.legalFields = .error e := by
  fun_induction collect s fresh work with
  | case1 => cases h
  | case2 fresh t rest direction index named member found ih =>
    exact ih (List.forall_mem_cons.mp start).2 h
  | case3 fresh t rest direction index named member a found e' refused =>
    cases h
    exact ⟨direction, index, a, (List.forall_mem_cons.mp start).1 _ _ named, found, refused⟩
  | case4 fresh t rest direction index named member a found fields legal ih =>
    obtain ⟨first, others⟩ := List.forall_mem_cons.mp start
    cases legalFields_ok legal
    exact ih (within_fields (closed _ _ a (first _ _ named) found) others) (map_error h)
  | case5 fresh t rest direction index named member ih =>
    exact ih (List.forall_mem_cons.mp start).2 h
  | case6 fresh t rest other ih => exact ih (List.forall_mem_cons.mp start).2 h

theorem collects_of_ok (h : collect s fresh work = .ok types) : Collects s fresh work types := by
  fun_induction collect s fresh work generalizing types with
  | case1 =>
    cases h
    exact .done
  | case2 fresh t rest direction index named member found ih =>
    refine .skip ?_ (ih h)
    intro d i same _
    cases named.symm.trans same
    exact found
  | case3 fresh t rest direction index named member a found e' refused => cases h
  | case4 fresh t rest direction index named member a found fields legal ih =>
    obtain ⟨later, collected, rfl⟩ := map_ok h
    cases legalFields_ok legal
    exact .meet named member found (ih collected)
  | case5 fresh t rest direction index named member ih =>
    refine .skip ?_ (ih h)
    intro d i same new
    cases named.symm.trans same
    exact absurd new member
  | case6 fresh t rest other ih =>
    refine .skip ?_ (ih h)
    intro d i same
    exact absurd same (other d i)

theorem Collects.within (h : Collects s fresh work types) (closed : s.Closed P)
    (start : ∀ t ∈ work, t.Within P) : ∀ t ∈ types, P t.1 t.2 := by
  induction h with
  | done => exact fun t member => absurd member List.not_mem_nil
  | skip old later ih => exact ih (List.forall_mem_cons.mp start).2
  | meet named new found later ih =>
    obtain ⟨first, others⟩ := List.forall_mem_cons.mp start
    have met := first _ _ named
    have rest := ih (within_fields (closed _ _ _ met found) others)
    exact List.forall_mem_cons.mpr ⟨met, rest⟩

theorem Collects.nodup (h : Collects s fresh work types) (once : fresh.Nodup) :
    types.Nodup ∧ types ⊆ fresh := by
  induction h with
  | done => exact ⟨List.nodup_nil, List.nil_subset _⟩
  | skip old later ih => exact ih once
  | meet named new found later ih =>
    obtain ⟨nodup, inside⟩ := ih (once.erase _)
    constructor
    · refine List.nodup_cons.mpr ⟨?_, nodup⟩
      intro again
      exact (once.mem_erase_iff.mp (inside again)).1 rfl
    · exact List.cons_subset.mpr ⟨new, List.Subset.trans inside List.erase_subset⟩

def Covers (s : Store) (fresh types : List (Direction × Nat)) (direction : Direction) (index : Nat) :
    Prop :=
  (direction, index) ∈ fresh → (s.get? direction index).isSome = true → (direction, index) ∈ types

theorem Covers.cons {direction : Direction} {index : Nat} {t : Direction × Nat}
    (h : Covers s (fresh.erase t) types direction index) :
    Covers s fresh (t :: types) direction index := by
  intro new there
  by_cases same : (direction, index) = t
  · exact same ▸ List.mem_cons_self
  · exact List.mem_cons_of_mem _ (h ((List.mem_erase_of_ne same).mpr new) there)

/-- What is met, at the start or in a field of what is collected, is collected. -/
theorem Collects.covers (h : Collects s fresh work types) :
    (∀ t ∈ work, t.Within (Covers s fresh types)) ∧
    ∀ t ∈ types, ∀ a, s.get? t.1 t.2 = some a → ∀ m ∈ a.fields,
      m.2.type.Within (Covers s fresh types) := by
  induction h with
  | done =>
    exact ⟨fun t member => absurd member List.not_mem_nil,
      fun t member => absurd member List.not_mem_nil⟩
  | skip old later ih =>
    obtain ⟨start, inner⟩ := ih
    refine ⟨List.forall_mem_cons.mpr ⟨?_, start⟩, inner⟩
    intro d i named new there
    simp [old d i named new] at there
  | meet named new found later ih =>
    obtain ⟨start, inner⟩ := ih
    obtain ⟨own, others⟩ := List.forall_mem_append.mp start
    constructor
    · refine List.forall_mem_cons.mpr ⟨?_, fun t member d i named => (others t member d i named).cons⟩
      intro d i same _ _
      cases named.symm.trans same
      exact List.mem_cons_self
    · refine List.forall_mem_cons.mpr ⟨?_, fun t member a found m field d i named =>
        (inner t member a found m field d i named).cons⟩
      intro a same m field d i named
      cases found.symm.trans same
      exact (own _ (List.mem_map_of_mem field) d i named).cons

end Collect

/-! ### Names -/

theorem firstRepeated_some {seen names : List String} {name : String}
    (h : firstRepeated seen names = some name) :
    ∃ before after, names = before ++ name :: after ∧ name ∈ before ++ seen := by
  induction names generalizing seen with
  | nil => cases h
  | cons n rest ih =>
    rw [firstRepeated] at h
    split at h
    · rename_i again
      cases h
      exact ⟨[], rest, rfl, List.contains_iff_mem.mp again⟩
    · obtain ⟨before, after, rfl, member⟩ := ih h
      refine ⟨n :: before, after, rfl, ?_⟩
      rw [List.mem_append, List.mem_cons] at member
      rw [List.cons_append, List.mem_cons, List.mem_append]
      tauto

theorem firstRepeated_none {seen names : List String} :
    firstRepeated seen names = none ↔ names.Nodup ∧ ∀ name ∈ names, name ∉ seen := by
  induction names generalizing seen with
  | nil => simp [firstRepeated]
  | cons n rest ih =>
    rw [firstRepeated]
    split
    · rename_i again
      simp [List.contains_iff_mem.mp again]
    · rename_i new
      rw [ih, List.nodup_cons, List.forall_mem_cons]
      have absent : n ∉ seen := fun member => new (List.contains_iff_mem.mpr member)
      constructor
      · rintro ⟨nodup, others⟩
        exact ⟨⟨fun member => others n member List.mem_cons_self, nodup⟩, absent,
          fun name member old => others name member (List.mem_cons_of_mem _ old)⟩
      · rintro ⟨⟨own, nodup⟩, -, others⟩
        refine ⟨nodup, fun name member old => ?_⟩
        rcases List.mem_cons.mp old with rfl | old
        · exact own member
        · exact others name member old

/-! ### The outcome -/

section Assemble

variable {queryType : String} {fields : List (String × QueryField)} {store : Store}

inductive NameClash (queryType : String) (store : Store) (P : Direction → Nat → Prop)
    (name : String) : Prop
  | query {direction index} (own : queryType = name) (met : P direction index)
      (there : (store.get? direction index).isSome = true)
      (same : store.nameOf direction index = name)
  | aggregates {d d' i i'} (different : (d, i) ≠ (d', i')) (met : P d i) (met' : P d' i')
      (there : (store.get? d i).isSome = true) (there' : (store.get? d' i').isSome = true)
      (own : store.nameOf d i = name) (same : store.nameOf d' i' = name)

theorem clash_of_repeated {P : Direction → Nat → Prop} {types : List (Direction × Nat)}
    (nodup : types.Nodup) (met : ∀ t ∈ types, P t.1 t.2)
    (there : ∀ t ∈ types, (store.get? t.1 t.2).isSome = true) {name : String}
    (h : firstRepeated [] (queryType :: types.map fun t => store.nameOf t.1 t.2) = some name) :
    NameClash queryType store P name := by
  obtain ⟨before, after, split, member⟩ := firstRepeated_some h
  rw [List.append_nil] at member
  cases before with
  | nil => exact absurd member List.not_mem_nil
  | cons first rest =>
    obtain ⟨rfl, others⟩ := List.cons.inj split
    obtain ⟨early, late, rfl, rfl, named⟩ := List.map_eq_append_iff.mp others
    obtain ⟨t, later, rfl, own, -⟩ := List.map_eq_cons_iff.mp named
    have last : t ∈ early ++ t :: later := List.mem_append_right _ List.mem_cons_self
    rcases List.mem_cons.mp member with same | member
    · exact .query same.symm (met t last) (there t last) own
    · obtain ⟨u, before, same⟩ := List.mem_map.mp member
      have earlier : u ∈ early ++ t :: later := List.mem_append_left _ before
      refine .aggregates ?_ (met u earlier) (met t last) (there u earlier) (there t last) same own
      exact (List.nodup_append.mp nodup).2.2 u before t List.mem_cons_self

theorem assemble_error {P : Direction → Nat → Prop} (closed : store.Closed P)
    (start : ∀ f ∈ fields, ∀ t ∈ f.2.mentions, t.Within P) {e : Error}
    (h : Schema.assemble queryType fields store = .error e) :
    (∃ f ∈ fields, legalName f.1 = .error e) ∨
    (∃ direction index a, P direction index ∧ store.get? direction index = some a ∧
      a.legalFields = .error e) ∨
    ∃ name, e = .duplicateType name ∧ NameClash queryType store P name := by
  have work : ∀ t ∈ fields.flatMap (·.2.mentions), t.Within P := by
    intro t member
    obtain ⟨f, there, member⟩ := List.mem_flatMap.mp member
    exact start f there t member
  simp only [Schema.assemble, bind, Except.bind] at h
  cases names : fields.forM fun f => legalName f.1 with
  | error e' =>
    rw [names] at h
    cases h
    exact .inl (forM_error names)
  | ok _ =>
    cases collected : collect store store.ids (fields.flatMap (·.2.mentions)) with
    | error e' =>
      rw [names, collected] at h
      cases h
      exact .inr (.inl (collect_error closed work collected))
    | ok types =>
      have collects := collects_of_ok collected
      obtain ⟨nodup, inside⟩ := collects.nodup store.nodup_ids
      simp only [names, collected] at h
      split at h
      · rename_i name repeated
        cases h
        exact .inr (.inr ⟨name, rfl, clash_of_repeated nodup (collects.within closed work)
          (fun t member => Store.mem_ids.mp (inside member)) repeated⟩)
      · cases h

theorem assemble_ok {schema : Schema}
    (h : Schema.assemble queryType fields store = .ok schema) :
    ∃ types, schema = ⟨queryType, fields, store, types⟩ ∧
      collect store store.ids (fields.flatMap (·.2.mentions)) = .ok types ∧
      (queryType :: types.map fun t => store.nameOf t.1 t.2).Nodup := by
  simp only [Schema.assemble, bind, Except.bind] at h
  cases names : fields.forM fun f => legalName f.1 with
  | error e =>
    rw [names] at h
    cases h
  | ok _ =>
    cases collected : collect store store.ids (fields.flatMap (·.2.mentions)) with
    | error e =>
      rw [names, collected] at h
      cases h
    | ok types =>
      simp only [names, collected] at h
      split at h
      · cases h
      · rename_i different
        cases h
        exact ⟨types, rfl, rfl, (firstRepeated_none.mp different).1⟩

end Assemble

end WitSchema.GraphQL
