import WitSchema.Proofs.Conversion.Run

/-! Which list belongs to which node. A construction of a list or a tuple that
comes to its end makes a list with a number of its own, so no two such nodes
have the same list, whatever has failed before. -/

namespace WitSchema.Conversion

open GraphQL Wit Wit.Graph

def Recipe.isList : Recipe → Bool
  | .listOf _ | .tupleOf _ => true
  | _ => false

def Lists (g : Graph) (id : Nat) : Prop :=
  ∃ node, g.types[id]? = some node ∧ node.kind.isList = true

/-- What the cache has for lists and tuples are lists, each with a number that was given out
once. -/
structure Numbered (g : Graph) (direction : Direction) (s : Side) : Prop where
  list_of_lists : ∀ {id t}, Lists g id → s.cached? id = some t →
    ∃ serial item, t = .list direction serial item
  tallied : Tallied (Lists g) (fun t n => ∃ item, t = .list direction n item) s.lists s

section Numbered

variable {g : Graph} {direction : Direction} {s s' : Side} {id : Nat}

theorem Lists.kind {node : TypeDef} (h : Lists g id) (found : g.types[id]? = some node) :
    node.kind.isList = true := by
  obtain ⟨node', found', list⟩ := h
  cases found.symm.trans found'
  exact list

theorem numbered_empty (g : Graph) (direction : Direction) : Numbered g direction .empty where
  list_of_lists _ h := by cases h
  tallied := by
    constructor
    · intro a t n _ cached
      cases cached
    · intro a b t t' n _ _ cached
      cases cached

theorem Numbered.of_cache (h : Numbered g direction s) (hc : s'.cache = s.cache)
    (hl : s.lists ≤ s'.lists) : Numbered g direction s' where
  list_of_lists lists cached := by
    rw [Side.cached?, hc] at cached
    exact h.list_of_lists lists cached
  tallied := h.tallied.of_cache hc hl

theorem Numbered.put (h : Numbered g direction s) (other : ¬ Lists g id) (t : Ty) :
    Numbered g direction (s.put id t) where
  list_of_lists {a u} lists cached := by
    rw [cached?_put_of_ne (fun same : a = id => other (same ▸ lists))] at cached
    exact h.list_of_lists lists cached
  tallied := h.tallied.put_other other t

theorem Numbered.newList (h : Numbered g direction s) (id : Nat) (item : Ty) :
    Numbered g direction ((s.newList direction item).1.put id (s.newList direction item).2) where
  list_of_lists {a u} lists cached := by
    by_cases same : a = id
    · rw [same, cached?_put_self] at cached
      cases cached
      exact ⟨s.lists, item, rfl⟩
    · rw [cached?_put_of_ne same] at cached
      exact h.list_of_lists lists cached
  tallied := by
    have made : Tallied (Lists g) (fun t n => ∃ item, t = .list direction n item) s.lists
        (s.newList direction item).1 := h.tallied.of_cache rfl (Nat.le_refl _)
    refine made.put_next (fun n numbered => ?_) id
    obtain ⟨_, same⟩ := numbered
    exact (Ty.list.inj same).2.1.symm

theorem Numbered.begin (h : Numbered g direction s) {r : Recipe}
    (other : r.isAggregate = true → ¬ Lists g id) :
    Numbered g direction (r.begin direction id s) := by
  cases r with
  | aggregate notices name docs slots =>
    have allocated : Numbered g direction
        ((s.report notices).allocate ⟨direction, name, docs, []⟩) := h.of_cache rfl (Nat.le_refl _)
    exact allocated.put (other rfl) _
  | _ => exact h

end Numbered

theorem recipe_isList {direction : Direction} {id : Nat} {node : TypeDef}
    (h : node.kind.isList = true) : (recipe direction id node).isList = true := by
  cases hk : node.kind with
  | list | tuple => simp [recipe, hk, Recipe.isList]
  | _ => simp [hk, Kind.isList] at h

theorem Recipe.isAggregate_of_isList {r : Recipe} (h : r.isList = true) :
    r.isAggregate = false := by
  cases r with
  | listOf | tupleOf => rfl
  | _ => cases h

theorem Recipe.build_list {convert : Converts} {direction : Direction} {id : Nat} {s s' : Side}
    {t : Ty} {r : Recipe} (hr : r.isList = true)
    (h : r.build convert direction id s = (s', .ok t)) :
    ∃ s₁ item, Pass convert s.aggregates.length s r.refs s₁ none ∧
      s₁.newList direction item = (s', t) := by
  cases r with
  | listOf ref =>
    simp only [Recipe.build] at h
    rcases hc : convert s ref with ⟨s₁, e | item⟩
    · simp [hc] at h
    · simp only [hc, Prod.mk.injEq, Except.ok.injEq] at h
      exact ⟨s₁, item, .next (.refl s) hc (.done (.refl s₁)), Prod.ext h.1 h.2⟩
  | tupleOf refs =>
    have pass := @convertAll_pass convert s.aggregates.length refs s
    simp only [Recipe.build] at h
    rcases hc : convertAll convert s refs with ⟨s₁, e | items⟩
    · simp [hc] at h
    · rw [hc] at pass
      simp only [hc, Prod.mk.injEq, Except.ok.injEq] at h
      exact ⟨s₁.report (tupleNotices id items), _, pass.tidy_after (.report ..), Prod.ext h.1 h.2⟩
  | _ => cases hr

section Construction

variable {g : Graph} {direction : Direction} {s s' : Side} {id : Nat} {node : TypeDef}

theorem constructed_numbered
    (ih : ∀ s' ref, s'.building = s.building ++ [id] → Numbered g direction s' →
      Numbered g direction (s'.convert g direction ref).1)
    (found : g.types[id]? = some node) (h : Numbered g direction s) :
    Numbered g direction (constructed g direction s id node).1 := by
  have entered : Numbered g direction (s.enter direction id node.name) :=
    h.of_cache rfl (Nat.le_refl _)
  by_cases hr : (recipe direction id node).isRefusal = false
  · refine (constructed_pass hr).preserves (convert_building g direction)
      (fun _ _ tidy h => h.of_cache tidy.cache tidy.lists) ih (begun_building ..)
      (entered.begin fun aggregate lists => ?_)
    rw [Recipe.isAggregate_of_isList (recipe_isList (lists.kind found))] at aggregate
    cases aggregate
  · unfold constructed
    cases hrec : recipe direction id node with
    | refuse notices e => exact entered.of_cache rfl (Nat.le_refl _)
    | _ => simp [hrec, Recipe.isRefusal] at hr

theorem constructed_list
    (ih : ∀ s' ref, s'.building = s.building ++ [id] → Numbered g direction s' →
      Numbered g direction (s'.convert g direction ref).1)
    (list : node.kind.isList = true) (h : Numbered g direction s) {t : Ty}
    (result : constructed g direction s id node = (s', .ok t)) :
    Numbered g direction (s'.leave.put id t) := by
  obtain ⟨s₁, item, pass, made⟩ := Recipe.build_list (recipe_isList list) result
  have members : Numbered g direction s₁ :=
    pass.preserves (convert_building g direction)
      (fun _ _ tidy h => h.of_cache tidy.cache tidy.lists) ih rfl
      (h.of_cache rfl (Nat.le_refl _))
  have numbered := members.newList id item
  rw [made] at numbered
  exact numbered.of_cache rfl (Nat.le_refl _)

end Construction

theorem convert_numbered {g : Graph} {direction : Direction} (s : Side) (ref : TypeRef) :
    Numbered g direction s → Numbered g direction (s.convert g direction ref).1 := by
  refine convert_induction
    (P := fun s _ res => Numbered g direction s → Numbered g direction res.1) ?_ ?_ ?_ ?_ ?_ s ref
  · exact fun s p h => h
  · exact fun s index e _ h => h
  · exact fun s index id t _ _ h => h
  · exact fun s index id _ _ _ h => h
  · intro s index id node start ih h
    have built := constructed_numbered ih start.found h
    rcases result : constructed g direction s id node with ⟨s', e | t⟩
    · rw [result] at built
      exact built.of_cache rfl (Nat.le_refl _)
    · rw [result] at built
      cases list : node.kind.isList with
      | true => exact constructed_list ih list h result
      | false =>
        have left : Numbered g direction s'.leave := built.of_cache rfl (Nat.le_refl _)
        refine left.put (fun lists => ?_) t
        rw [lists.kind start.found] at list
        cases list

theorem Converter.run_numbered (g : Graph) (calls : List (Direction × TypeRef))
    (direction : Direction) :
    Numbered g direction ((Converter.empty.run g calls).1.side direction) := by
  refine Converter.run_keeps (fun _ _ h => h.of_cache rfl (Nat.le_refl _))
    (fun _ s ref => convert_numbered s ref) (fun d => ?_) calls direction
  cases d <;> exact numbered_empty g _

end WitSchema.Conversion
