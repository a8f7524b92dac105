import WitSchema.Proofs.Conversion.Recursion
import WitSchema.Proofs.Insertion

/-! What a conversion leaves alone, whether it succeeds or fails: the entries
of the cache, the aggregates that exist, and the nodes under construction. -/

namespace WitSchema.Conversion

open GraphQL Wit Wit.Graph

section Cached

variable {s s' : Side} {id other : Nat} {t : Ty}

theorem cached?_put_self (s : Side) (id : Nat) (t : Ty) : (s.put id t).cached? id = some t :=
  lookup_insertPair_self ..

theorem cached?_put_of_ne (h : other ≠ id) (s : Side) (t : Ty) :
    (s.put id t).cached? other = s.cached? other := lookup_insertPair_of_ne h ..

theorem entries_put_of_uncached (h : s.cached? id = none) (t : Ty) :
    (s.put id t).cache.entries = s.cache.entries ++ [(id, t)] := insertPair_of_lookup_none h

theorem put_of_cached (h : s.cached? id = some t) : s.put id t = s := by
  have hput : insertPair id t s.cache.entries = s.cache.entries := insertPair_of_lookup_some h
  simp [Side.put, Cache.put, hput]

theorem cached?_of_isPrefix (h : s.cache.entries <+: s'.cache.entries)
    (hc : s.cached? id = some t) : s'.cached? id = some t := lookup_of_isPrefix h hc

theorem isPrefix_entries_put (h : s.cached? id = none ∨ s.cached? id = some t) :
    s.cache.entries <+: (s.put id t).cache.entries := by
  rcases h with h | h
  · rw [entries_put_of_uncached h]
    exact List.prefix_append ..
  · have hput : s.put id t = s := put_of_cached h
    simp only [hput, List.prefix_rfl]

end Cached

/-- The cache and the first `n` aggregates are kept, and the nodes of `b` are cached as before. -/
structure Grows (n : Nat) (b : List Nat) (s s' : Side) : Prop where
  entries : s.cache.entries <+: s'.cache.entries
  older : ∀ l : List Aggregate, l.length ≤ n → l <+: s.aggregates → l <+: s'.aggregates
  kept : ∀ a ∈ b, s'.cached? a = s.cached? a

structure Extends (s s' : Side) : Prop where
  building : s'.building = s.building
  entries : s.cache.entries <+: s'.cache.entries
  aggregates : s.aggregates <+: s'.aggregates
  kept : ∀ a ∈ s.building, s'.cached? a = s.cached? a

section Grows

variable {n : Nat} {b b' : List Nat} {s s' s'' : Side}

theorem Grows.trans (h : Grows n b s s') (h' : Grows n b s' s'') : Grows n b s s'' :=
  ⟨h.entries.trans h'.entries, fun l hl hp => h'.older l hl (h.older l hl hp),
    fun a ha => (h'.kept a ha).trans (h.kept a ha)⟩

theorem Grows.mono (h : Grows n b s s') (hb : b' ⊆ b) : Grows n b' s s' :=
  ⟨h.entries, h.older, fun a ha => h.kept a (hb ha)⟩

theorem Tidy.grows (h : Tidy n s s') (b : List Nat) : Grows n b s s' := by
  have hc := h.cache
  exact ⟨hc ▸ List.prefix_rfl, h.older, fun a _ => by rw [Side.cached?, hc]; rfl⟩

theorem Extends.grows (h : Extends s s') (n : Nat) : Grows n s.building s s' :=
  ⟨h.entries, fun _ _ hp => hp.trans h.aggregates, h.kept⟩

theorem Grows.extends (h : Grows s.aggregates.length s.building s s')
    (hb : s'.building = s.building) : Extends s s' :=
  ⟨hb, h.entries, h.older _ (Nat.le_refl _) List.prefix_rfl, h.kept⟩

theorem Extends.refl (s : Side) : Extends s s :=
  ⟨rfl, List.prefix_rfl, List.prefix_rfl, fun _ _ => rfl⟩

theorem Extends.cached (h : Extends s s') {id : Nat} {t : Ty} (hc : s.cached? id = some t) :
    s'.cached? id = some t := cached?_of_isPrefix h.entries hc

theorem Extends.aggregate (h : Extends s s') {index : Nat} {a : Aggregate}
    (ha : s.aggregates[index]? = some a) : s'.aggregates[index]? = some a := by
  obtain ⟨rest, hrest⟩ := h.aggregates
  rw [← hrest, List.getElem?_append_left (List.getElem?_eq_some_iff.mp ha).1]
  exact ha

theorem put_grows {id : Nat} {t : Ty} (h : s.cached? id = none ∨ s.cached? id = some t)
    (hid : id ∉ b) : Grows n b s (s.put id t) :=
  ⟨isPrefix_entries_put h, fun _ _ hp => hp,
    fun _ ha => cached?_put_of_ne (ne_of_mem_of_not_mem ha hid) s t⟩

end Grows

section Build

variable {convert : Converts} {b : List Nat}

theorem Pass.grows (ih : ∀ s ref, s.building = b → Extends s (convert s ref).1) {n : Nat}
    {s s' : Side} {refs : List TypeRef} {e : Option Error} (h : Pass convert n s refs s' e)
    (hb : s.building = b) : Grows n b s s' := by
  induction h with
  | done tidy => exact tidy.grows b
  | @next s s₁ s₂ s' ref t rest e tidy call _ rec =>
    have hb₁ := tidy.building.trans hb
    have hcall := ih s₁ ref hb₁
    rw [call] at hcall
    have htail := rec (hcall.building.trans hb₁)
    exact ((tidy.grows b).trans (hb₁ ▸ hcall.grows n)).trans htail
  | @stop s s₁ s₂ ref rest e tidy call =>
    have hb₁ := tidy.building.trans hb
    have hcall := ih s₁ ref hb₁
    rw [call] at hcall
    exact (tidy.grows b).trans (hb₁ ▸ hcall.grows n)

variable {direction : Direction} {id : Nat} {s : Side}

theorem Recipe.begin_grows (hc : s.cached? id = none) (hid : id ∉ b) (r : Recipe) :
    Grows s.aggregates.length b s (r.begin direction id s) := by
  cases r with
  | aggregate notices name docs slots =>
    have halloc : Grows s.aggregates.length b s
        ((s.report notices).allocate ⟨direction, name, docs, []⟩) :=
      ⟨List.prefix_rfl, fun l _ hp => hp.trans (List.prefix_append ..), fun _ _ => rfl⟩
    exact halloc.trans (put_grows (.inl hc) hid)
  | _ => exact (Tidy.refl s).grows b

theorem Recipe.cached?_begin (r : Recipe) :
    (r.begin direction id s).cached? id =
      if r.isAggregate then some (.aggregate direction s.aggregates.length) else s.cached? id := by
  cases r with
  | aggregate notices name docs slots => exact cached?_put_self ..
  | _ => rfl

theorem Recipe.cached?_begin_of_ne {other : Nat} (h : other ≠ id) (r : Recipe) :
    (r.begin direction id s).cached? other = s.cached? other := by
  cases r with
  | aggregate notices name docs slots => exact cached?_put_of_ne h ..
  | _ => rfl

theorem Recipe.build_aggregate {r : Recipe} (hr : r.isAggregate = true) {s' : Side} {t : Ty}
    (h : r.build convert direction id s = (s', .ok t)) :
    t = .aggregate direction s.aggregates.length := by
  cases r with
  | aggregate notices name docs slots =>
    simp only [Recipe.build] at h
    split at h <;> simp at h
    exact h.2.symm
  | _ => cases hr

theorem Recipe.build_grows (ih : ∀ s ref, s.building = b → Extends s (convert s ref).1)
    (hb : s.building = b) (r : Recipe) :
    Grows s.aggregates.length b (r.begin direction id s)
      (r.build convert direction id s).1 := by
  by_cases hr : r.isRefusal = false
  · exact (r.build_pass direction id s hr).grows ih ((begin_building ..).trans hb)
  · cases r with
    | refuse notices e => exact (Tidy.report s notices).grows b
    | _ => exact (hr rfl).elim

theorem Recipe.cached?_build (ih : ∀ s ref, s.building = b → Extends s (convert s ref).1)
    (hb : s.building = b) (hid : id ∈ b) (hc : s.cached? id = none) {r : Recipe} {s' : Side}
    {t : Ty} (h : r.build convert direction id s = (s', .ok t)) :
    s'.cached? id = none ∨ s'.cached? id = some t := by
  have hkept := (@Recipe.build_grows convert b direction id s ih hb r).kept id hid
  rw [h, r.cached?_begin] at hkept
  cases hr : r.isAggregate with
  | true =>
    rw [hr, if_pos rfl, ← Recipe.build_aggregate hr h] at hkept
    exact .inr hkept
  | false =>
    rw [hr, if_neg Bool.false_ne_true, hc] at hkept
    exact .inl hkept

end Build

section Construction

variable {g : Graph} {direction : Direction} {s : Side} {index : Int} {id : Nat} {node : TypeDef}

def begun (direction : Direction) (s : Side) (id : Nat) (node : TypeDef) : Side :=
  (recipe direction id node).begin direction id (s.enter direction id node.name)

theorem begun_building (direction : Direction) (s : Side) (id : Nat) (node : TypeDef) :
    (begun direction s id node).building = s.building ++ [id] := Recipe.begin_building ..

theorem constructed_pass (hr : (recipe direction id node).isRefusal = false) :
    Pass (Side.convert g direction) s.aggregates.length (begun direction s id node)
      node.kind.members (constructed g direction s id node).1
      (errorOf (constructed g direction s id node).2) := by
  rw [← recipe_refs hr]
  exact Recipe.build_pass direction id (s.enter direction id node.name) hr

theorem constructed_building (s : Side) (id : Nat) (node : TypeDef) :
    (constructed g direction s id node).1.building = s.building ++ [id] :=
  Recipe.build_building (convert_building g direction) ..

theorem Starts.begin_grows (start : Starts g s index id node) :
    Grows s.aggregates.length s.building s
      ((recipe direction id node).begin direction id (s.enter direction id node.name)) := by
  have henter : Grows s.aggregates.length s.building s (s.enter direction id node.name) :=
    ⟨List.prefix_rfl, fun _ _ hp => hp, fun _ _ => rfl⟩
  exact henter.trans (Recipe.begin_grows (s := s.enter direction id node.name) start.uncached
    start.idle _)

theorem leave_constructed {s' : Side} {r : Except Error Ty}
    (h : constructed g direction s id node = (s', r)) : s'.leave.building = s.building := by
  have hb : s'.building = s.building ++ [id] := by
    rw [← @constructed_building g direction s id node, h]
  rw [Side.leave, hb, List.dropLast_concat]

theorem leave_grows (n : Nat) (b : List Nat) (s : Side) : Grows n b s s.leave :=
  ⟨List.prefix_rfl, fun _ _ hp => hp, fun _ _ => rfl⟩

theorem convert_extends (g : Graph) (direction : Direction) (s : Side) (ref : TypeRef) :
    Extends s (s.convert g direction ref).1 := by
  refine convert_induction (P := fun s _ res => Extends s res.1) ?_ ?_ ?_ ?_ ?_ s ref
  · exact fun s p => .refl s
  · exact fun s index e _ => .refl s
  · exact fun s index id t _ _ => .refl s
  · exact fun s index id _ _ _ => .refl s
  · intro s index id node start ih
    have hbuild : Grows s.aggregates.length (s.building ++ [id]) _
        (constructed g direction s id node).1 :=
      Recipe.build_grows (s := s.enter direction id node.name) ih rfl _
    have hgrows := start.begin_grows.trans (hbuild.mono (List.subset_append_left ..))
    rcases hres : constructed g direction s id node with ⟨s₂, e | t⟩
    · rw [hres] at hgrows
      exact (hgrows.trans (leave_grows ..)).extends (leave_constructed hres)
    · rw [hres] at hgrows
      have hcached : s₂.cached? id = none ∨ s₂.cached? id = some t :=
        Recipe.cached?_build (s := s.enter direction id node.name) ih rfl (by simp)
          start.uncached hres
      exact ((hgrows.trans (leave_grows ..)).trans (put_grows hcached start.idle)).extends
        (leave_constructed hres)

theorem constructed_grows (s : Side) (id : Nat) (node : TypeDef) :
    Grows s.aggregates.length (s.building ++ [id])
      ((recipe direction id node).begin direction id (s.enter direction id node.name))
      (constructed g direction s id node).1 :=
  Recipe.build_grows (s := s.enter direction id node.name)
    (fun s' ref _ => convert_extends g direction s' ref) rfl _

theorem Starts.cached?_constructed (start : Starts g s index id node) :
    (constructed g direction s id node).1.cached? id =
      if (recipe direction id node).isAggregate then
        some (.aggregate direction s.aggregates.length)
      else none := by
  rw [(constructed_grows s id node).kept id (by simp), Recipe.cached?_begin]
  split
  · rfl
  · exact start.uncached

theorem constructed_aggregate (ha : (recipe direction id node).isAggregate = true) {s' : Side}
    {t : Ty} (h : constructed g direction s id node = (s', .ok t)) :
    t = .aggregate direction s.aggregates.length :=
  Recipe.build_aggregate (s := s.enter direction id node.name) ha h

theorem Starts.put_constructed (start : Starts g s index id node)
    (ha : (recipe direction id node).isAggregate = true) {s' : Side} {t : Ty}
    (h : constructed g direction s id node = (s', .ok t)) : s'.put id t = s' := by
  have hc := @Starts.cached?_constructed g direction s index id node start
  rw [h, if_pos ha, ← constructed_aggregate ha h] at hc
  exact put_of_cached hc

theorem Starts.uncached_constructed (start : Starts g s index id node)
    (ha : (recipe direction id node).isAggregate = false) {s' : Side} {r : Except Error Ty}
    (h : constructed g direction s id node = (s', r)) : s'.cached? id = none := by
  have hc := @Starts.cached?_constructed g direction s index id node start
  rwa [h, ha, if_neg Bool.false_ne_true] at hc

theorem Starts.entries_finish (start : Starts g s index id node) {s' : Side} {t : Ty}
    (h : constructed g direction s id node = (s', .ok t)) :
    s'.cache.entries <+: (s'.leave.put id t).cache.entries := by
  have hc := @Starts.cached?_constructed g direction s index id node start
  rw [h] at hc
  refine isPrefix_entries_put (s := s'.leave) ?_
  cases ha : (recipe direction id node).isAggregate with
  | true =>
    rw [ha, if_pos rfl, ← constructed_aggregate ha h] at hc
    exact .inr hc
  | false =>
    rw [ha, if_neg Bool.false_ne_true] at hc
    exact .inl hc

end Construction

end WitSchema.Conversion
