import WitSchema.Proofs.Conversion.Equation
import WitSchema.Proofs.Conversion.Failure
import WitSchema.Proofs.Conversion.Simulation

/-! Nodes whose construction has failed. What is left of them in the cache is
found there like any other type, so a conversion cannot tell whether they are
still on the stack. Put back to the bottom of the stack they are out of the
way of `Sound`, which then holds of all other nodes after failures too. At the
moment of failure every aggregate on the stack has the fields of the slots
before the one that fails. -/

namespace WitSchema.Conversion

open GraphQL Wit Wit.Graph

def Side.stall (stalled : List Nat) (s : Side) : Side :=
  { s with building := stalled ++ s.building }

def AllCached (stalled : List Nat) (s : Side) : Prop := ∀ a ∈ stalled, (s.cached? a).isSome = true

section Stall

variable {g : Graph} {direction : Direction} {stalled : List Nat} {s s' : Side}

theorem AllCached.mono (h : AllCached stalled s) (he : s.cache.entries <+: s'.cache.entries) :
    AllCached stalled s' := by
  intro a ha
  obtain ⟨t, ht⟩ := Option.isSome_iff_exists.mp (h a ha)
  rw [cached?_of_isPrefix he ht]
  rfl

theorem AllCached.put (h : AllCached stalled s) (id : Nat) (t : Ty) :
    AllCached stalled (s.put id t) := by
  intro a ha
  by_cases heq : a = id
  · rw [heq, cached?_put_self]
    rfl
  · rw [cached?_put_of_ne heq]
    exact h a ha

theorem AllCached.not_mem (h : AllCached stalled s) {id : Nat} (hc : s.cached? id = none) :
    id ∉ stalled := by
  intro hid
  have hsome := h id hid
  simp [hc] at hsome

theorem stall_simulation (g : Graph) (direction : Direction) (stalled : List Nat) :
    Simulation g direction direction id
      (fun s s' => s' = s.stall stalled ∧ AllCached stalled s) where
  scalar _ := rfl
  aggregate _ := rfl
  cached id h := by
    rw [h.1, Option.map_id]
    rfl
  busy id h hc := by
    simp [h.1, Side.stall, h.2.not_mem hc]
  chain id h hc _ := by
    rw [h.1]
    refine List.dropWhile_append_of_pos fun a ha => ?_
    exact bne_iff_ne.mpr (ne_of_mem_of_not_mem ha (h.2.not_mem hc))
  size h := by
    rw [h.1]
    rfl
  enter id name h := by
    refine ⟨?_, h.2⟩
    simp [h.1, Side.stall, Side.enter, Side.report]
  leave h hb := by
    refine ⟨?_, h.2⟩
    simp [h.1, Side.stall, Side.leave, List.dropLast_append_of_ne_nil hb]
  report notices h := by
    rw [h.1]
    exact ⟨rfl, h.2⟩
  put id t h := by
    rw [h.1]
    exact ⟨rfl, h.2.put id t⟩
  addField index name t docs h := by
    rw [h.1]
    exact ⟨rfl, h.2⟩
  newList t h := by
    rw [h.1]
    exact ⟨⟨rfl, h.2⟩, rfl⟩
  alike _ := .refl _
  begin {s s' id node} _ h := by
    rw [h.1]
    cases recipe direction id node with
    | aggregate notices name docs slots => exact ⟨rfl, AllCached.put h.2 id _⟩
    | _ => exact ⟨rfl, h.2⟩

theorem convert_stall (h : AllCached stalled s) (ref : TypeRef) :
    (s.stall stalled).convert g direction ref =
      ((s.convert g direction ref).1.stall stalled, (s.convert g direction ref).2) := by
  obtain ⟨hstate, houtcome⟩ :=
    (stall_simulation g direction stalled).convert_inStep ref ⟨rfl, h⟩
  refine Prod.ext hstate.1 ?_
  rw [houtcome]
  cases (s.convert g direction ref).2 <;> rfl

theorem fill_stall (h : AllCached stalled s) {index : Nat} {slots : List Slot}
    (hf : fill (Side.convert g direction) index s slots = (s', .ok ())) :
    fill (Side.convert g direction) index (s.stall stalled) slots = (s'.stall stalled, .ok ()) := by
  have hstep := (stall_simulation g direction stalled).fill (convert_building g direction)
    (fun s s' ref _ h => (stall_simulation g direction stalled).convert_inStep ref h) index slots
    rfl ⟨rfl, h⟩
  rw [hf] at hstep
  obtain ⟨s₁, hs₁, rfl, _⟩ := hstep.of_ok
  exact hs₁

theorem convertAll_stall (h : AllCached stalled s) {refs : List TypeRef} {ts : List Ty}
    (hc : convertAll (Side.convert g direction) s refs = (s', .ok ts)) :
    convertAll (Side.convert g direction) (s.stall stalled) refs =
      (s'.stall stalled, .ok ts) := by
  have hstep := Simulation.convertAll (convert_building g direction)
    (fun s s' ref _ h => (stall_simulation g direction stalled).convert_inStep ref h) refs
    rfl ⟨rfl, h⟩
  rw [hc] at hstep
  obtain ⟨s₁, hs₁, rfl, _⟩ := hstep.of_ok
  rwa [List.map_id] at hs₁

end Stall

/-- The aggregate of a node has the fields of the slots before, and the rest has not entered it. -/
def Leftover (g : Graph) (direction : Direction) (s : Side) (id : Nat) (t : Ty)
    (before rest : List Slot) : Prop :=
  ∃ node notices name docs, g.types[id]? = some node ∧
    recipe direction id node = .aggregate notices name docs (before ++ rest) ∧
    (Recipe.aggregate notices name docs before).Describes g direction s t

/-- At the moment of failure the node is under construction, and the slot is the one whose
reference is being converted for it. -/
structure StoppedAt (g : Graph) (direction : Direction) (moment : Side) (e : Error) (id : Nat)
    (slot : Slot) : Prop where
  busy : id ∈ moment.building
  failing : ∃ ref s above, slot.type = some ref ∧ s.building = above ++ [id] ∧
    s.building <+: moment.building ∧ Raises g direction s ref moment e

section Moment

variable {g : Graph} {direction : Direction} {stalled : List Nat} {s s' : Side} {index : Int}
  {id : Nat} {node : TypeDef} {c : Call} {ref : TypeRef} {e : Error}

theorem Leftover.mono {t : Ty} {before rest : List Slot}
    (h : Leftover g direction s id t before rest) (he : s.cache.entries <+: s'.cache.entries)
    (ha : s.aggregates <+: s'.aggregates) : Leftover g direction s' id t before rest := by
  obtain ⟨node, notices, name, docs, found, hr, hdesc⟩ := h
  exact ⟨node, notices, name, docs, found, hr, hdesc.mono he ha⟩

theorem Sound.enter_stall (sound : Sound g direction (s.stall stalled)) (id : Nat) (name : Json) :
    Sound g direction ((s.enter direction id name).stall stalled) := by
  refine sound.mono List.prefix_rfl List.prefix_rfl fun a t hc hb => ⟨hc, fun hmem => hb ?_⟩
  simp only [Side.stall, Side.enter, Side.report, List.mem_append] at hmem ⊢
  tauto

theorem Starts.filling_call (start : Starts g s index id node)
    (sound : Sound g direction (s.stall stalled)) (owned : Owned g direction s)
    (cached : AllCached stalled s) {notices : List Notice} {name : String} {docs : Json}
    {slots : List Slot} (hr : recipe direction id node = .aggregate notices name docs slots)
    (call : c ∈ (recipe direction id node).calls (Side.convert g direction) direction id
      (s.enter direction id node.name)) :
    ∃ before slot after, slots = before ++ slot :: after ∧ slot.type = some c.2 ∧
      Filling g direction id s.aggregates.length name docs before (c.1.stall stalled) := by
  rw [hr] at call
  obtain ⟨before, slot, after, hslots, hslot, hfill⟩ := fill_before_call call
  refine ⟨before, slot, after, hslots, hslot, ?_⟩
  have hmakes : Makes g direction id := ⟨node, start.found, by rw [hr]; rfl⟩
  have hentered := sound.enter_stall id node.name
  have hbegun := filling_begin (s := (s.enter direction id node.name).stall stalled) notices name
    docs slots (by simp [Side.stall, Side.enter, Side.report]) hentered
    (owned.of_cache rfl (Nat.le_refl _)) start.uncached
  have hcached : AllCached stalled
      ((Recipe.aggregate notices name docs slots).begin direction id
        (s.enter direction id node.name)) := AllCached.put cached id _
  exact fill_describes (fun s ref _ => convert_keepsSound s ref) hmakes rfl hbegun
    (fill_stall hcached hfill)

theorem Starts.sound_call (start : Starts g s index id node)
    (sound : Sound g direction (s.stall stalled)) (owned : Owned g direction s)
    (cached : AllCached stalled s)
    (call : c ∈ (recipe direction id node).calls (Side.convert g direction) direction id
      (s.enter direction id node.name)) : Sound g direction (c.1.stall stalled) := by
  have hentered := sound.enter_stall id node.name
  cases hr : recipe direction id node with
  | refuse | scalar => simp [hr, Recipe.calls] at call
  | same ref =>
    rw [hr] at call
    cases List.mem_singleton.mp call
    exact hentered
  | listOf ref =>
    rw [hr] at call
    cases List.mem_singleton.mp call
    exact hentered
  | tupleOf refs =>
    rw [hr] at call
    obtain ⟨before, after, ts, _, hall⟩ := convertAll_before_call call
    have howned : Owned g direction ((s.enter direction id node.name).stall stalled) :=
      owned.of_cache rfl (Nat.le_refl _)
    have hcached : AllCached stalled (s.enter direction id node.name) := cached
    exact convertAll_sound (fun s ref _ => convert_keepsSound s ref) rfl hentered howned
      (convertAll_stall hcached hall)
  | aggregate notices name docs slots =>
    obtain ⟨_, _, _, _, _, hfilling⟩ := start.filling_call sound owned cached hr call
    exact hfilling.sound

theorem Starts.cached_call (start : Starts g s index id node) (cached : AllCached stalled s)
    (call : c ∈ (recipe direction id node).calls (Side.convert g direction) direction id
      (s.enter direction id node.name)) : AllCached stalled c.1 :=
  cached.mono (nests_grows start.uncached call).2

theorem Starts.cached?_call (start : Starts g s index id node)
    (call : c ∈ (recipe direction id node).calls (Side.convert g direction) direction id
      (s.enter direction id node.name)) :
    c.1.cached? id = if (recipe direction id node).isAggregate then
      some (.aggregate direction s.aggregates.length) else none := by
  obtain ⟨before, after, _, hpass⟩ := Recipe.mem_calls call
  have hgrows := hpass.grows (fun s ref _ => convert_extends g direction s ref) rfl
  have hmem : id ∈ ((recipe direction id node).begin direction id
      (s.enter direction id node.name)).building := by
    simp [Recipe.begin_building, Side.enter, Side.report]
  rw [hgrows.kept id hmem, Recipe.cached?_begin]
  split
  · rfl
  · exact start.uncached

theorem Raises.extends (h : Raises g direction s ref s' e) :
    Extends s { s' with building := s.building } := by
  have hext := convert_extends g direction s ref
  rwa [h.convert] at hext

/-- At the moment of failure every node satisfies its equation that is neither under construction
nor stalled. -/
theorem Raises.sound (h : Raises g direction s ref s' e)
    (sound : Sound g direction (s.stall stalled)) (owned : Owned g direction s)
    (cached : AllCached stalled s) : Sound g direction (s'.stall stalled) := by
  induction h with
  | dangling | reentry => exact sound
  | @refusal s index id node notices e start refused =>
    exact (sound.enter_stall id node.name).mono List.prefix_rfl List.prefix_rfl
      fun _ _ hc hb => ⟨hc, hb⟩
  | member start call inner ih =>
    exact ih (start.sound_call sound owned cached call)
      ((lasting_owned g direction).call start call owned) (start.cached_call cached call)

theorem Starts.stopped (start : Starts g s index id node)
    (sound : Sound g direction (s.stall stalled)) (owned : Owned g direction s)
    (cached : AllCached stalled s)
    (call : c ∈ (recipe direction id node).calls (Side.convert g direction) direction id
      (s.enter direction id node.name))
    (inner : Raises g direction c.1 c.2 s' e)
    (made : Makes g direction id ∨ (s'.cached? id).isSome = true) :
    ∃ t before slot after, s'.cached? id = some t ∧
      Leftover g direction s' id t before (slot :: after) ∧
      StoppedAt g direction s' e id slot := by
  have hbuilding := call_building call
  have hmem : id ∈ c.1.building := by simp [hbuilding]
  have hext := inner.extends
  -- the nested conversion has left the entry of the node as it was
  have hcached : s'.cached? id = if (recipe direction id node).isAggregate then
      some (.aggregate direction s.aggregates.length) else none :=
    (hext.kept id hmem).trans (start.cached?_call call)
  cases hr : recipe direction id node with
  | aggregate notices name docs slots =>
    obtain ⟨before, slot, after, rfl, hslot, hfilling⟩ :=
      start.filling_call sound owned cached hr call
    obtain ⟨entered, hentered⟩ := inner.building
    simp only [hr, Recipe.isAggregate, if_true] at hcached
    have hdesc : (Recipe.aggregate notices name docs before).Describes g direction
        (c.1.stall stalled) (.aggregate direction s.aggregates.length) :=
      ⟨_, rfl, hfilling.fields, hfilling.looked⟩
    have hentries : (c.1.stall stalled).cache.entries <+: s'.cache.entries := hext.entries
    have hbusy : id ∈ s'.building := by
      rw [hentered]
      exact List.mem_append_left _ hmem
    exact ⟨_, before, slot, after, hcached,
      ⟨node, notices, name, docs, start.found, hr, hdesc.mono hentries hext.aggregates⟩,
      hbusy, c.2, c.1, s.building, hslot, hbuilding, ⟨entered, hentered.symm⟩, inner⟩
  | _ =>
    simp only [hr, Recipe.isAggregate, Bool.false_eq_true, if_false] at hcached
    rcases made with hmakes | hsome
    · have hagg := hmakes.recipe start.found
      simp [hr, Recipe.isAggregate] at hagg
    · simp [hcached] at hsome

theorem Raises.stopped (h : Raises g direction s ref s' e)
    (sound : Sound g direction (s.stall stalled)) (owned : Owned g direction s)
    (cached : AllCached stalled s) {a : Nat} (ha : a ∈ s'.building) (hidle : a ∉ s.building)
    (made : Makes g direction a ∨ (s'.cached? a).isSome = true) :
    ∃ t before slot after, s'.cached? a = some t ∧
      Leftover g direction s' a t before (slot :: after) ∧
      StoppedAt g direction s' e a slot := by
  induction h with
  | dangling | reentry => exact (hidle ha).elim
  | @refusal s index id node notices e start refused =>
    have heq : a = id := by
      simp only [Side.enter, Side.report, List.mem_append, List.mem_singleton] at ha
      exact ha.resolve_left hidle
    subst heq
    rcases made with hmakes | hcached
    · have hagg := hmakes.recipe start.found
      simp [refused, Recipe.isAggregate] at hagg
    · have hnone : ((s.enter direction a node.name).report notices).cached? a = none :=
        start.uncached
      simp [hnone] at hcached
  | @member s index id node c s' e start call inner ih =>
    by_cases hmem : a ∈ c.1.building
    · have heq : a = id := by
        rw [call_building call, List.mem_append, List.mem_singleton] at hmem
        exact hmem.resolve_left hidle
      subst heq
      exact start.stopped sound owned cached call inner made
    · exact ih (start.sound_call sound owned cached call)
        ((lasting_owned g direction).call start call owned) (start.cached_call cached call) ha hmem made

end Moment

end WitSchema.Conversion
