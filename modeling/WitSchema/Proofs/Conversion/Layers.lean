import WitSchema.Proofs.Conversion.Traversal

/-! The order of entries in a cache. A node that is no aggregate enters it after
all nodes that it refers to, so such nodes alone form no cycle, and what a type
is made of can be followed down to scalars and to aggregates of cached nodes. -/

namespace WitSchema.Conversion

open GraphQL Wit Wit.Graph

def Side.place (s : Side) (id : Nat) : Nat := s.cache.keys.idxOf id

/-- A cached node that is no aggregate comes after its members. -/
def Layered (g : Graph) (direction : Direction) (s : Side) : Prop :=
  ∀ a b, (s.cached? a).isSome = true → ¬ Makes g direction a → g.Edge a b →
    (s.cached? b).isSome = true ∧ s.place b < s.place a

section Place

variable {s : Side} {id other : Nat}

theorem isSome_cached_iff : (s.cached? id).isSome = true ↔ id ∈ s.cache.keys :=
  lookup_isSome_iff_mem_keys

theorem place_lt (h : (s.cached? id).isSome = true) : s.place id < s.cache.keys.length :=
  List.idxOf_lt_length_of_mem (isSome_cached_iff.mp h)

theorem keys_put (hc : s.cached? id = none) (t : Ty) :
    (s.put id t).cache.keys = s.cache.keys ++ [id] := by
  unfold Cache.keys
  rw [entries_put_of_uncached hc, List.map_append]
  rfl

theorem place_put_of_cached (hc : s.cached? id = none) (t : Ty)
    (ho : (s.cached? other).isSome = true) : (s.put id t).place other = s.place other := by
  unfold Side.place
  rw [keys_put hc]
  exact List.idxOf_append_of_mem (isSome_cached_iff.mp ho)

theorem place_put_self (hc : s.cached? id = none) (t : Ty) :
    (s.put id t).place id = s.cache.keys.length := by
  unfold Side.place
  have hnot : id ∉ s.cache.keys := by
    rw [← isSome_cached_iff, hc]
    exact Bool.false_ne_true
  rw [keys_put hc, List.idxOf_append_of_notMem hnot, List.idxOf_cons_self, Nat.add_zero]

theorem isSome_cached_put (h : (s.cached? other).isSome = true) (t : Ty) :
    ((s.put id t).cached? other).isSome = true := by
  by_cases heq : other = id
  · rw [heq, cached?_put_self]
    rfl
  · rw [cached?_put_of_ne heq]
    exact h

end Place

section Layered

variable {g : Graph} {direction : Direction} {s s' : Side} {id : Nat}

theorem layered_empty (g : Graph) (direction : Direction) : Layered g direction .empty :=
  fun _ _ h => by cases h

theorem Layered.of_cache (h : Layered g direction s) (hc : s'.cache = s.cache) :
    Layered g direction s' := by
  intro a b ha hm hab
  simp only [Side.cached?, Side.place, hc] at ha ⊢
  exact h a b ha hm hab

theorem Layered.put (h : Layered g direction s) (hc : s.cached? id = none)
    (hid : ¬ Makes g direction id → ∀ b, g.Edge id b → (s.cached? b).isSome = true) (t : Ty) :
    Layered g direction (s.put id t) := by
  intro a b ha hm hab
  by_cases heq : a = id
  · subst heq
    have hb := hid hm b hab
    refine ⟨isSome_cached_put hb t, ?_⟩
    rw [place_put_of_cached hc t hb, place_put_self hc]
    exact place_lt hb
  · rw [cached?_put_of_ne heq] at ha
    obtain ⟨hb, hlt⟩ := h a b ha hm hab
    refine ⟨isSome_cached_put hb t, ?_⟩
    rwa [place_put_of_cached hc t hb, place_put_of_cached hc t ha]

theorem layered_begun {node : TypeDef} (hc : s.cached? id = none)
    (found : g.types[id]? = some node) (h : Layered g direction s) :
    Layered g direction (begun direction s id node) := by
  unfold begun
  cases hr : recipe direction id node with
  | aggregate notices name docs slots =>
    have hmakes : Makes g direction id := ⟨node, found, by rw [hr]; rfl⟩
    exact Layered.put (s := (((s.enter direction id node.name).report notices).allocate
      ⟨direction, name, docs, []⟩)) h hc (fun hm => (hm hmakes).elim) _
  | _ => exact h

theorem lasting_layered (g : Graph) (direction : Direction) :
    Lasting g direction (Layered g direction) where
  empty := layered_empty g direction
  of_cache h same _ := h.of_cache same
  begun start h := layered_begun start.uncached start.found h
  finish {s index id node s' t} start built h := by
    cases aggregate : (recipe direction id node).isAggregate with
    | true => rwa [start.put_constructed aggregate built]
    | false =>
      have uncached := start.uncached_constructed aggregate built
      refine h.put uncached (fun _ b ⟨ref, member, stands⟩ => ?_) t
      rw [members_eq start.found] at member
      exact isSome_cached_of_look stands (constructed_looked built ref member)

theorem convert_layered (s : Side) (ref : TypeRef) :
    Layered g direction s → Layered g direction (s.convert g direction ref).1 :=
  (lasting_layered g direction).convert s ref

/-- Along edges from nodes that are no aggregates the place in the cache goes down. -/
theorem Layered.place_lt_of_isChain (h : Layered g direction s) {a b : Nat} {path : List Nat}
    (chain : (a :: (path ++ [b])).IsChain g.Edge) (ha : (s.cached? a).isSome = true)
    (hm : ∀ c ∈ a :: path, ¬ Makes g direction c) : s.place b < s.place a := by
  induction path generalizing a with
  | nil =>
    have hab := (List.isChain_cons_cons.mp chain).1
    exact (h a b ha (hm a (List.mem_cons_self ..)) hab).2
  | cons c path ih =>
    obtain ⟨hac, hrest⟩ := List.isChain_cons_cons.mp chain
    obtain ⟨hc, hlt⟩ := h a c ha (hm a (List.mem_cons_self ..)) hac
    have hbc := ih hrest hc fun d hd => hm d (List.mem_cons_of_mem _ hd)
    omega

theorem Converter.run_layered (g : Graph) (calls : List (Direction × TypeRef))
    (direction : Direction) :
    Layered g direction ((Converter.empty.run g calls).1.side direction) :=
  (lasting_layered g direction).run calls

end Layered

section Named

variable {g : Graph} {direction : Direction} {s : Side}

inductive Houses (g : Graph) (direction : Direction) (s : Side) : Ty → Prop
  | scalar (x) : Houses g direction s (.scalar x)
  | list {serial item} (inner : Houses g direction s item) :
      Houses g direction s (.list direction serial item)
  | aggregate {id index} (made : Makes g direction id)
      (cached : s.cached? id = some (.aggregate direction index)) :
      Houses g direction s (.aggregate direction index)

theorem Houses.owner {t : Ty} (h : Houses g direction s t) {other : Direction} {index : Nat}
    (named : t.named = .aggregate other index) : other = direction ∧ ∃ id, Makes g direction id ∧
      s.cached? id = some (.aggregate direction index) := by
  induction h with
  | scalar x => cases named
  | list _ ih => exact ih named
  | aggregate made cached =>
    cases named
    exact ⟨rfl, _, made, cached⟩

theorem houses_of_look {ref : TypeRef} {t : Ty} (hl : s.look? g ref = some t)
    (h : ∀ id, g.resolveAlias ref = .ok (some id) → s.cached? id = some t →
      Houses g direction s t) : Houses g direction s t := by
  cases ref with
  | primitive p =>
    cases hl
    exact .scalar _
  | node index =>
    cases hd : g.denoted index with
    | error e => simp [Side.look?, hd] at hl
    | ok id =>
      simp only [Side.look?, hd] at hl
      exact h id (resolveAlias_eq_some.mpr ⟨index, rfl, hd⟩) hl

theorem houses_of_cached (sound : Sound g direction s) (idle : s.building = [])
    (layered : Layered g direction s) {id : Nat} {t : Ty} (hc : s.cached? id = some t) :
    Houses g direction s t := by
  -- on the place in the cache: the members of a node that is no aggregate come before it
  induction hn : s.place id using Nat.strongRecOn generalizing id t with
  | _ n ih =>
    obtain ⟨node, found, hdesc⟩ := sound id t hc (idle ▸ List.not_mem_nil)
    have hrefs (hr : (recipe direction id node).isRefusal = false) :
        (recipe direction id node).refs = g.members id := by
      rw [recipe_refs hr, members_eq found]
    have hmember (ha : ¬ (recipe direction id node).isAggregate = true) {ref : TypeRef}
        (href : ref ∈ g.members id) {u : Ty} (hl : s.look? g ref = some u) :
        Houses g direction s u := by
      refine houses_of_look hl fun b hb hcached => ?_
      have hlt := (layered id b (by simp [hc]) (fun hm => ha (hm.recipe found)) ⟨ref, href, hb⟩).2
      exact ih _ (hn ▸ hlt) hcached rfl
    cases hr : recipe direction id node with
    | refuse notices e =>
      rw [hr] at hdesc
      exact hdesc.elim
    | scalar x =>
      rw [hr] at hdesc
      cases hdesc
      exact .scalar x
    | same ref =>
      simp only [hr, Recipe.isRefusal, Recipe.isAggregate, Recipe.refs, Recipe.Describes]
        at hrefs hmember hdesc
      exact hmember Bool.false_ne_true (hrefs trivial ▸ List.mem_singleton_self ref) hdesc
    | listOf ref =>
      simp only [hr, Recipe.isRefusal, Recipe.isAggregate, Recipe.refs, Recipe.Describes]
        at hrefs hmember hdesc
      obtain ⟨serial, item, hl, rfl⟩ := hdesc
      exact .list (hmember Bool.false_ne_true (hrefs trivial ▸ List.mem_singleton_self ref) hl)
    | tupleOf refs =>
      simp only [hr, Recipe.isRefusal, Recipe.isAggregate, Recipe.refs, Recipe.Describes]
        at hrefs hmember hdesc
      obtain ⟨serial, items, hl, rfl⟩ := hdesc
      cases refs with
      | nil =>
        cases List.map_eq_nil_iff.mp hl.symm
        exact .list (.scalar .string)
      | cons ref rest =>
        cases items with
        | nil => simp at hl
        | cons item items =>
          rw [List.map_cons, List.map_cons, List.cons.injEq] at hl
          exact .list (hmember Bool.false_ne_true (hrefs trivial ▸ List.mem_cons_self ..) hl.1)
    | aggregate notices name docs slots =>
      rw [hr] at hdesc
      obtain ⟨index, rfl, _, _⟩ := hdesc
      exact .aggregate ⟨node, found, by rw [hr]; rfl⟩ hc

theorem houses_of_looked (sound : Sound g direction s) (idle : s.building = [])
    (layered : Layered g direction s) {ref : TypeRef} {t : Ty} (hl : s.look? g ref = some t) :
    Houses g direction s t :=
  houses_of_look hl fun _ _ hc => houses_of_cached sound idle layered hc

theorem houses_of_field (sound : Sound g direction s) (idle : s.building = [])
    (layered : Layered g direction s) {slots : List Slot}
    (looked : ∀ ref ∈ slots.filterMap (·.type), (s.look? g ref).isSome = true)
    {m : String × Member} (field : m ∈ insertPairs (slots.map (Slot.entry (s.look? g)))) :
    Houses g direction s m.2.type := by
  obtain ⟨slot, hslot, rfl⟩ := List.mem_map.mp (mem_of_mem_insertPairs field)
  cases hs : slot.type with
  | none =>
    simp only [Slot.entry, hs, Option.bind_none, Option.getD_none]
    exact .scalar _
  | some ref =>
    obtain ⟨t, ht⟩ := Option.isSome_iff_exists.mp
      (looked ref (List.mem_filterMap.mpr ⟨slot, hslot, hs⟩))
    simp only [Slot.entry, hs, Option.bind_some, ht, Option.getD_some]
    exact houses_of_looked sound idle layered ht

end Named

end WitSchema.Conversion
