import WitSchema.Proofs.Conversion.Shape
import WitSchema.Proofs.Conversion.Stall

/-! What a run leaves in the caches, failed calls included. Every cached type
goes back to a conversion of the run, that of a list, an option or a tuple to
one that built the node and came to its end. An aggregate has all its fields,
unless a call failed while it was under construction: then it has those before
the member that failed. -/

namespace WitSchema.Conversion

open GraphQL Wit Wit.Graph

section Keeps

variable {convert : Converts} {P : Side → Prop} {s : Side}

theorem fill_keeps {index : Nat} {slots : List Slot}
    (tidy : ∀ s₁ s₂, Tidy index s₁ s₂ → P s₁ → P s₂)
    (calls : ∀ c ∈ fillCalls convert index s slots, P c.1 → P (convert c.1 c.2).1) (h : P s) :
    P (fill convert index s slots).1 := by
  induction slots generalizing s with
  | nil => exact h
  | cons slot rest ih =>
    cases ht : slot.type with
    | none =>
      simp only [fillCalls, ht] at calls
      simp only [fill, ht]
      exact ih calls (tidy _ _ (.addField ..) h)
    | some ref =>
      simp only [fillCalls, ht, List.forall_mem_cons] at calls
      simp only [fill, ht]
      have hcall := calls.1 h
      rcases hc : convert s ref with ⟨s₁, e | t⟩
      · simpa only [hc] using hcall
      · simp only [hc] at hcall calls ⊢
        exact ih calls.2 (tidy _ _ (.addField ..) hcall)

theorem convertAll_keeps {refs : List TypeRef}
    (calls : ∀ c ∈ allCalls convert s refs, P c.1 → P (convert c.1 c.2).1) (h : P s) :
    P (convertAll convert s refs).1 := by
  induction refs generalizing s with
  | nil => exact h
  | cons ref rest ih =>
    simp only [allCalls, List.forall_mem_cons] at calls
    simp only [convertAll]
    have hcall := calls.1 h
    rcases hc : convert s ref with ⟨s₁, e | t⟩
    · simpa only [hc] using hcall
    · simp only [hc] at hcall calls
      have hrest := ih calls.2 hcall
      rcases hr : convertAll convert s₁ rest with ⟨s₂, e | ts⟩
      · simpa only [hr] using hrest
      · simpa only [hr] using hrest

theorem Recipe.build_keeps {direction : Direction} {id : Nat} {r : Recipe}
    (tidy : ∀ s₁ s₂, Tidy s.aggregates.length s₁ s₂ → P s₁ → P s₂)
    (calls : ∀ c ∈ r.calls convert direction id s, P c.1 → P (convert c.1 c.2).1)
    (h : P (r.begin direction id s)) : P (r.build convert direction id s).1 := by
  cases r with
  | refuse notices e => exact tidy _ _ (.report s notices) h
  | scalar x => exact h
  | same ref => exact calls (s, ref) (List.mem_singleton_self _) h
  | listOf ref =>
    have hcall := calls (s, ref) (List.mem_singleton_self _) h
    simp only [Recipe.build]
    rcases hc : convert s ref with ⟨s₁, e | t⟩
    · simpa only [hc] using hcall
    · simp only [hc] at hcall
      exact tidy _ _ (.newList s₁ direction t) hcall
  | tupleOf refs =>
    have hall := convertAll_keeps calls h
    simp only [Recipe.build]
    rcases hc : convertAll convert s refs with ⟨s₁, e | ts⟩
    · simpa only [hc] using hall
    · simp only [hc] at hall
      exact tidy _ _ (.newList _ direction (ts.head?.getD (.scalar .string)))
        (tidy _ _ (.report ..) hall)
  | aggregate notices name docs slots =>
    have hfill := fill_keeps tidy calls h
    simp only [Recipe.begin] at hfill
    simp only [Recipe.build]
    rcases hc : fill convert s.aggregates.length _ slots with ⟨s₁, e | u⟩
    · simpa only [hc] using hfill
    · simpa only [hc] using hfill

end Keeps

/-- The inner conversion is made in the course of the outer one. -/
def Within (g : Graph) (direction : Direction) : Call → Call → Prop :=
  Relation.ReflTransGen (Nests g direction)

def Builds (g : Graph) (direction : Direction) (c : Call) (id : Nat) (t : Ty) : Prop :=
  ∃ index node, c.2 = .node index ∧ Starts g c.1 index id node ∧
    (constructed g direction c.1 id node).2 = .ok t

section Origin

variable {g : Graph} {direction : Direction}

def FromBuild (g : Graph) (direction : Direction) (outer : Call) (id : Nat) (t : Ty) : Prop :=
  ∃ c, Within g direction outer c ∧ Builds g direction c id t

/-- What a conversion has added to the cache up to a state: the aggregates of their nodes, and what
constructions on the way have returned. -/
def Originates (g : Graph) (direction : Direction) (outer : Call) (s : Side) : Prop :=
  ∀ a t, s.cached? a = some t →
    outer.1.cached? a = some t ∨ Makes g direction a ∨ FromBuild g direction outer a t

theorem constructed_originates {s : Side} {index : Int} {id : Nat} {node : TypeDef}
    (start : Starts g s index id node)
    (calls : ∀ c ∈ (recipe direction id node).calls (Side.convert g direction) direction id
      (s.enter direction id node.name),
      Originates g direction c (c.1.convert g direction c.2).1) :
    Originates g direction (s, .node index) (constructed g direction s id node).1 := by
  refine Recipe.build_keeps (P := Originates g direction (s, .node index)) ?_ ?_ ?_
  · intro s₁ s₂ tidy h a t hc
    rw [Side.cached?, tidy.cache] at hc
    exact h a t hc
  · intro c call h a t hc
    rcases calls c call a t hc with hc | hmakes | ⟨c', hwithin, hbuilds⟩
    · exact h a t hc
    · exact .inr (.inl hmakes)
    · exact .inr (.inr ⟨c', hwithin.head ⟨index, id, node, rfl, start, call⟩, hbuilds⟩)
  · intro a t hc
    by_cases heq : a = id
    · subst heq
      rw [Recipe.cached?_begin] at hc
      cases hagg : (recipe direction a node).isAggregate with
      | true => exact .inr (.inl ⟨node, start.found, hagg⟩)
      | false =>
        simp only [hagg, Bool.false_eq_true, if_false] at hc
        exact .inl hc
    · rw [Recipe.cached?_begin_of_ne heq] at hc
      exact .inl hc

theorem convert_originates (s : Side) (ref : TypeRef) :
    Originates g direction (s, ref) (s.convert g direction ref).1 := by
  refine convert_induction (P := fun s ref res => Originates g direction (s, ref) res.1)
    ?_ ?_ ?_ ?_ ?_ s ref
  · exact fun _ _ _ _ h => .inl h
  · exact fun _ _ _ _ _ _ h => .inl h
  · exact fun _ _ _ _ _ _ _ _ h => .inl h
  · exact fun _ _ _ _ _ _ _ _ h => .inl h
  · intro s index id node start ih a t hc
    have hbuilt := constructed_originates start fun c call => ih c.1 c.2 (call_building call)
    rcases hres : constructed g direction s id node with ⟨s₁, e | t'⟩
    · rw [hres] at hc hbuilt
      exact hbuilt a t hc
    · rw [hres] at hc hbuilt
      by_cases heq : a = id
      · subst heq
        have hself : (finish a (s₁, .ok t')).1.cached? a = some t' := cached?_put_self ..
        rw [hself] at hc
        cases hc
        exact .inr (.inr ⟨_, .refl, index, node, rfl, start, by rw [hres]⟩)
      · have hother : (finish id (s₁, .ok t')).1.cached? a = s₁.cached? a :=
          cached?_put_of_ne heq ..
        rw [hother] at hc
        exact hbuilt a t hc

end Origin

namespace Converter

variable {g : Graph} {direction : Direction}

def During (g : Graph) (calls : List (Direction × TypeRef)) (direction : Direction)
    (P : Side → TypeRef → Prop) : Prop :=
  ∃ earlier ref later, calls = earlier ++ (direction, ref) :: later ∧
    P ((empty.run g earlier).1.side direction) ref

theorem run_concat (g : Graph) (c : Converter) (calls : List (Direction × TypeRef))
    (call : Direction × TypeRef) :
    (c.run g (calls ++ [call])).1 = ((c.run g calls).1.convert g call.1 call.2).1 :=
  run_append g c calls [call]

theorem during_concat {calls : List (Direction × TypeRef)} {call : Direction × TypeRef}
    {P : Side → TypeRef → Prop} :
    During g (calls ++ [call]) direction P ↔ During g calls direction P ∨
      direction = call.1 ∧ P ((empty.run g calls).1.side direction) call.2 := by
  constructor
  · rintro ⟨earlier, ref, later, hsplit, h⟩
    rcases List.eq_nil_or_concat later with rfl | ⟨later, last, rfl⟩
    · obtain ⟨rfl, hcall⟩ := List.append_inj' hsplit rfl
      cases hcall
      exact .inr ⟨rfl, h⟩
    · rw [List.concat_eq_append, ← List.cons_append, ← List.append_assoc] at hsplit
      exact .inl ⟨earlier, ref, later, (List.append_inj' hsplit rfl).1, h⟩
  · rintro (⟨earlier, ref, later, rfl, h⟩ | ⟨rfl, h⟩)
    · exact ⟨earlier, ref, later ++ [call], by simp, h⟩
    · exact ⟨calls, call.2, [], rfl, h⟩

def FailedAt (g : Graph) (calls : List (Direction × TypeRef)) (direction : Direction)
    (moment : Side) (e : Error) : Prop :=
  During g calls direction fun s ref => Raises g direction s ref moment e

def Made (g : Graph) (calls : List (Direction × TypeRef)) (direction : Direction) (c : Call) :
    Prop :=
  During g calls direction fun s ref => Within g direction (s, ref) c

/-- What holds of one side after a run. The stalled nodes are the aggregates that were under
construction when a call failed. -/
structure Leftovers (g : Graph) (calls : List (Direction × TypeRef)) (direction : Direction)
    (s : Side) (stalled : List Nat) : Prop where
  idle : s.building = []
  owned : Owned g direction s
  sound : Sound g direction (s.stall stalled)
  stopped : ∀ a ∈ stalled, ∃ t before slot after moment e, s.cached? a = some t ∧
    Leftover g direction s a t before (slot :: after) ∧ FailedAt g calls direction moment e ∧
    StoppedAt g direction moment e a slot
  complete : ∀ moment e a, FailedAt g calls direction moment e → a ∈ moment.building →
    Makes g direction a → a ∈ stalled
  origin : ∀ a t, s.cached? a = some t → Makes g direction a ∨
    ∃ c, Made g calls direction c ∧ Builds g direction c a t

section Leftovers

variable {calls : List (Direction × TypeRef)} {s : Side} {stalled : List Nat}

theorem Leftovers.cached (h : Leftovers g calls direction s stalled) : AllCached stalled s := by
  intro a ha
  obtain ⟨t, _, _, _, _, _, hc, _⟩ := h.stopped a ha
  rw [hc]
  rfl

theorem leftovers_empty (g : Graph) (direction : Direction) :
    Leftovers g [] direction .empty [] where
  idle := rfl
  owned := owned_empty g direction
  sound := fun a t hc => by cases hc
  stopped := fun a ha => by cases ha
  complete := by
    rintro moment e a ⟨earlier, ref, later, hsplit, _⟩
    simp at hsplit
  origin := fun a t hc => by cases hc

theorem Leftovers.other (h : Leftovers g calls direction s stalled)
    {call : Direction × TypeRef} (hd : direction ≠ call.1) :
    Leftovers g (calls ++ [call]) direction s stalled where
  idle := h.idle
  owned := h.owned
  sound := h.sound
  stopped a ha := by
    obtain ⟨t, before, slot, after, moment, e, hc, hleft, hfailed, hstopped⟩ := h.stopped a ha
    exact ⟨t, before, slot, after, moment, e, hc, hleft, during_concat.mpr (.inl hfailed), hstopped⟩
  complete moment e a hfailed := by
    rcases during_concat.mp hfailed with hfailed | ⟨rfl, _⟩
    · exact h.complete moment e a hfailed
    · exact (hd rfl).elim
  origin a t hc := by
    rcases h.origin a t hc with hmakes | ⟨c, hmade, hbuilds⟩
    · exact .inl hmakes
    · exact .inr ⟨c, during_concat.mpr (.inl hmade), hbuilds⟩

theorem Leftovers.origin_convert
    (h : Leftovers g calls direction ((empty.run g calls).1.side direction) stalled)
    (ref : TypeRef) {a : Nat} {t : Ty}
    (hc : (((empty.run g calls).1.side direction).convert g direction ref).1.cached? a = some t) :
    Makes g direction a ∨
      ∃ c, Made g (calls ++ [(direction, ref)]) direction c ∧ Builds g direction c a t := by
  rcases convert_originates _ ref _ _ hc with hc | hmakes | ⟨c, hwithin, hbuilds⟩
  · rcases h.origin a t hc with hmakes | ⟨c, hmade, hbuilds⟩
    · exact .inl hmakes
    · exact .inr ⟨c, during_concat.mpr (.inl hmade), hbuilds⟩
  · exact .inl hmakes
  · exact .inr ⟨c, during_concat.mpr (.inr ⟨rfl, hwithin⟩), hbuilds⟩

theorem Leftovers.stopped_convert
    (h : Leftovers g calls direction ((empty.run g calls).1.side direction) stalled)
    (ref : TypeRef) {a : Nat} (ha : a ∈ stalled) :
    let s := (((empty.run g calls).1.side direction).convert g direction ref).1
    ∃ t before slot after moment e, s.cached? a = some t ∧
      Leftover g direction s a t before (slot :: after) ∧
      FailedAt g (calls ++ [(direction, ref)]) direction moment e ∧
      StoppedAt g direction moment e a slot := by
  obtain ⟨t, before, slot, after, moment, e, hc, hleft, hfailed, hstopped⟩ := h.stopped a ha
  have hext := convert_extends g direction ((empty.run g calls).1.side direction) ref
  exact ⟨t, before, slot, after, moment, e, hext.cached hc,
    hleft.mono hext.entries hext.aggregates, during_concat.mpr (.inl hfailed), hstopped⟩

theorem Leftovers.succeed
    (h : Leftovers g calls direction ((empty.run g calls).1.side direction) stalled)
    {ref : TypeRef} {s' : Side} {t : Ty}
    (ok : ((empty.run g calls).1.side direction).convert g direction ref = (s', .ok t)) :
    Leftovers g (calls ++ [(direction, ref)]) direction s' stalled := by
  have hstall := @convert_stall g direction stalled _ h.cached ref
  have hbuilding := convert_building g direction ((empty.run g calls).1.side direction) ref
  have howned := convert_owned _ ref h.owned
  have hsound := convert_keepsSound _ ref h.sound (h.owned.of_cache rfl (Nat.le_refl _)) t
  rw [hstall, ok] at hsound
  rw [ok] at hbuilding howned
  constructor
  · exact hbuilding.trans h.idle
  · exact howned
  · exact hsound rfl
  · intro a ha
    have hstopped := h.stopped_convert ref ha
    rwa [ok] at hstopped
  · intro moment e a hfailed
    rcases during_concat.mp hfailed with hfailed | ⟨_, hraises⟩
    · exact h.complete moment e a hfailed
    · rw [hraises.convert] at ok
      cases ok
  · intro a t' hc
    exact h.origin_convert ref (by rw [ok]; exact hc)

theorem Leftovers.fail
    (h : Leftovers g calls direction ((empty.run g calls).1.side direction) stalled)
    {ref : TypeRef} {moment : Side} {e : Error}
    (raises : Raises g direction ((empty.run g calls).1.side direction) ref moment e) :
    Leftovers g (calls ++ [(direction, ref)]) direction { moment with building := [] }
      (stalled ++ moment.building.filter fun a => (moment.cached? a).isSome) := by
  have hbuilding := h.idle
  have hconvert := raises.convert
  rw [hbuilding] at hconvert
  have howned := convert_owned _ ref h.owned
  have hsound := raises.sound h.sound h.owned h.cached
  rw [hconvert] at howned
  constructor
  · rfl
  · exact howned
  · refine hsound.mono List.prefix_rfl List.prefix_rfl fun a t hc hb => ⟨hc, fun hmem => hb ?_⟩
    have hsome : (moment.cached? a).isSome = true := by
      rw [show moment.cached? a = some t from hc]
      rfl
    simp only [Side.stall, List.append_nil, List.mem_append, List.mem_filter] at hmem ⊢
    tauto
  · intro a ha
    rcases List.mem_append.mp ha with ha | ha
    · have hstopped := h.stopped_convert ref ha
      rwa [hconvert] at hstopped
    · obtain ⟨hbusy, hcached⟩ := List.mem_filter.mp ha
      obtain ⟨t, before, slot, after, hc, hleft, hstopped⟩ :=
        raises.stopped h.sound h.owned h.cached hbusy (by simp [hbuilding]) (.inr hcached)
      exact ⟨t, before, slot, after, moment, e, hc,
        hleft.mono List.prefix_rfl List.prefix_rfl, during_concat.mpr (.inr ⟨rfl, raises⟩), hstopped⟩
  · intro moment' e' a hfailed hbusy hmakes
    rcases during_concat.mp hfailed with hfailed | ⟨_, hraises⟩
    · exact List.mem_append_left _ (h.complete moment' e' a hfailed hbusy hmakes)
    · obtain ⟨t, _, _, _, hc, _⟩ :=
        hraises.stopped h.sound h.owned h.cached hbusy (by simp [hbuilding]) (.inl hmakes)
      cases raises.unique hraises
      exact List.mem_append_right _ (List.mem_filter.mpr ⟨hbusy, by rw [hc]; rfl⟩)
  · intro a t hc
    exact h.origin_convert ref (by rw [hconvert]; exact hc)

theorem Leftovers.forget
    (h : Leftovers g calls direction s stalled) :
    Leftovers g calls direction { s with notices := [] } stalled where
  idle := h.idle
  owned := h.owned.of_cache rfl (Nat.le_refl _)
  sound := h.sound.mono List.prefix_rfl List.prefix_rfl fun _ _ hc hb => ⟨hc, hb⟩
  stopped a ha := by
    obtain ⟨t, before, slot, after, moment, e, hc, hleft, hfailed, hstopped⟩ := h.stopped a ha
    exact ⟨t, before, slot, after, moment, e, hc, hleft.mono List.prefix_rfl List.prefix_rfl,
      hfailed, hstopped⟩
  complete := h.complete
  origin := h.origin

theorem Leftovers.convert
    (h : Leftovers g calls direction ((empty.run g calls).1.side direction) stalled)
    (call : Direction × TypeRef) :
    ∃ stalled', Leftovers g (calls ++ [call]) direction
      ((empty.run g (calls ++ [call])).1.side direction) stalled' := by
  obtain ⟨own, ref⟩ := call
  rw [run_concat]
  by_cases hd : direction = own
  · subst hd
    rw [convert_side]
    rcases hc : ((empty.run g calls).1.side direction).convert g direction ref with ⟨s', e | t⟩
    · obtain ⟨moment, raises⟩ := raises_of_error (congrArg Prod.snd hc)
      have hfail := h.fail raises
      rw [raises.convert, h.idle] at hc
      cases hc
      exact ⟨_, hfail.forget⟩
    · exact ⟨_, (h.succeed hc).forget⟩
  · rw [convert_side_of_ne hd]
    exact ⟨_, h.other hd⟩

theorem run_leftovers (g : Graph) (calls : List (Direction × TypeRef)) (direction : Direction) :
    ∃ stalled, Leftovers g calls direction ((empty.run g calls).1.side direction) stalled := by
  induction calls using List.reverseRecOn with
  | nil =>
    have hempty : (empty.run g []).1.side direction = .empty := by cases direction <;> rfl
    exact ⟨[], hempty ▸ leftovers_empty g direction⟩
  | append_singleton calls call ih =>
    obtain ⟨stalled, h⟩ := ih
    exact h.convert call

end Leftovers

end Converter

section Lasting

variable {g : Graph} {direction : Direction} {P : Side → Prop}

theorem Lasting.within (h : Lasting g direction P) {outer inner : Call} (start : P outer.1)
    (within : Within g direction outer inner) : P inner.1 := by
  induction within with
  | refl => exact start
  | tail _ nests ih => exact h.nests ih nests

theorem Lasting.made (h : Lasting g direction P) {calls : List (Direction × TypeRef)} {c : Call}
    (made : Converter.Made g calls direction c) : P c.1 := by
  obtain ⟨earlier, ref, later, -, within⟩ := made
  exact h.within (h.run earlier) within

end Lasting

/-- After any calls, failed ones included, the fields of a cached aggregate are those of its first
members: of all of them, unless a call has failed while the aggregate was under construction, and
then of those before the member that failed. A list, an option or a tuple is cached only if a
construction of the node has returned the type. -/
theorem run_leaves_prefixes {g : Graph} {calls : List (Direction × TypeRef)}
    {direction : Direction} {id : Nat} {node : TypeDef} {t : Ty} (found : g.types[id]? = some node)
    (cached : ((Converter.empty.run g calls).1.side direction).cached? id = some t) :
    (node.kind.isAggregate = true → ∃ before rest, node.kind.slots = before ++ rest ∧
      IsAggregate direction ((Converter.empty.run g calls).1.side direction) t
        (node.typeName direction id) node.docs
        (before.map (Slot.field (((Converter.empty.run g calls).1.side direction).look? g))) ∧
      ((rest = [] ∧ ∀ moment e, Converter.FailedAt g calls direction moment e →
          id ∉ moment.building) ∨
        ∃ slot after moment e, rest = slot :: after ∧
          Converter.FailedAt g calls direction moment e ∧
          StoppedAt g direction moment e id slot)) ∧
    (node.kind.isWrapper = true → ∃ c, Converter.Made g calls direction c ∧
      Builds g direction c id t) := by
  obtain ⟨stalled, h⟩ := Converter.run_leftovers g calls direction
  constructor
  · intro hagg
    by_cases hmem : id ∈ stalled
    · obtain ⟨t', before, slot, after, moment, e, hc, hleft, hfailed, hstopped⟩ := h.stopped id hmem
      cases hc.symm.trans cached
      obtain ⟨node', notices, name, docs, found', hr, hdesc⟩ := hleft
      cases found'.symm.trans found
      obtain ⟨rfl, rfl, hslots⟩ := recipe_parts hr
      exact ⟨before, slot :: after, hslots.symm, isAggregate_of_aggregate hdesc,
        .inr ⟨slot, after, moment, e, rfl, hfailed, hstopped⟩⟩
    · have hidle : id ∉ (((Converter.empty.run g calls).1.side direction).stall stalled).building := by
        simpa [Side.stall, h.idle] using hmem
      obtain ⟨node', found', hdesc⟩ := h.sound id t cached hidle
      cases found'.symm.trans found
      rcases recipe_of_isAggregate direction id hagg with
        ⟨_, _, hr, _⟩ | ⟨notices, name, slots, hr, _⟩
      · rw [hr] at hdesc
        exact hdesc.elim
      · obtain ⟨rfl, _, hslots⟩ := recipe_parts hr
        have hmakes : Makes g direction id := ⟨node, found, by rw [hr]; rfl⟩
        rw [hr] at hdesc
        have hfields := isAggregate_of_aggregate hdesc
        refine ⟨slots, [], by rw [hslots, List.append_nil], hfields,
          .inl ⟨rfl, fun moment e hfailed hbusy => hmem ?_⟩⟩
        exact h.complete moment e id hfailed hbusy hmakes
  · intro hwrapper
    refine (h.origin id t cached).resolve_left fun hmakes => ?_
    have hagg := hmakes.recipe found
    cases hk : node.kind <;> simp [hk, Kind.isWrapper, recipe, Recipe.isAggregate] at hwrapper hagg

def stub : Graph :=
  { types := [⟨.record [⟨.str "a", .primitive .string, .null⟩, ⟨.str "b", .node 9, .null⟩],
      .str "stub", none, .null, .null⟩]
    worlds := []
    interfaces := []
    packages := [] }

theorem stub_stops_at_second_field : ∃ node, stub.types[0]? = some node ∧
    ((Converter.empty.run stub [(.output, .node 0)]).1.side .output).cached? 0 =
      some (.aggregate .output 0) ∧
    ∃ slot moment e, Converter.FailedAt stub [(.output, .node 0)] .output moment e ∧
      StoppedAt stub .output moment e 0 slot := by
  have hcached : ((Converter.empty.run stub [(.output, .node 0)]).1.side .output).cached? 0 =
      some (.aggregate .output 0) := by
    simp only [Converter.run, Converter.convert, convert_eq_evaluated]
    rfl
  have hdangling : stub.denoted 9 = .error (.unresolvedType 9 1) := by cbv
  have hfound : stub.types[0]? = some stub.types[0] := rfl
  obtain ⟨before, rest, hslots, hagg, hrest⟩ := (run_leaves_prefixes hfound hcached).1 rfl
  refine ⟨_, hfound, hcached, ?_⟩
  rcases hrest with ⟨rfl, _⟩ | ⟨slot, _, moment, e, _, hfailed, hstopped⟩
  · -- the second field has no type, so the aggregate is not complete
    obtain ⟨_, members, _, hfields, _⟩ := hagg
    rw [List.append_nil] at hslots
    have hnone : ("b", none, Json.null) ∈ before.map (Slot.field
        (((Converter.empty.run stub [(.output, .node 0)]).1.side .output).look? stub)) := by
      have hcamel : Name.camel "b" = "b" := by decide
      refine List.mem_map.mpr ⟨⟨"b", some (.node 9), .string, .null⟩, ?_, ?_⟩
      · rw [← hslots]
        simp [stub, Kind.slots, Field.slot, Json.text, hcamel]
      · simp [Slot.field, Side.look?, hdangling]
    rw [hfields] at hnone
    simp at hnone
  · exact ⟨slot, moment, e, hfailed, hstopped⟩

end WitSchema.Conversion
