import Mathlib.Data.List.Pairwise
import WitSchema.Proofs.Conversion.Nesting

/-! Where a conversion fails. A construction fails with the first of its nested
conversions that fails, so a failure goes back to one moment: the state in
which the error is raised, with all nodes on the stack whose construction it
ends. What a failed conversion leaves behind is the state of that moment with
the stack unwound. -/

namespace WitSchema.Conversion

open GraphQL Wit Wit.Graph

section Calls

variable {convert : Converts} {s s₁ : Side} {e : Error}

theorem fill_error_iff {index : Nat} {slots : List Slot} :
    fill convert index s slots = (s₁, .error e) ↔
      ∃ c ∈ fillCalls convert index s slots, convert c.1 c.2 = (s₁, .error e) := by
  induction slots generalizing s with
  | nil => simp [fill, fillCalls]
  | cons slot rest ih =>
    cases ht : slot.type with
    | none => simp only [fill, fillCalls, ht, ih]
    | some ref =>
      rcases hc : convert s ref with ⟨s₂, e' | t⟩
      · simp [fill, fillCalls, ht, hc]
      · simp [fill, fillCalls, ht, hc, ih]

theorem convertAll_error_iff {refs : List TypeRef} :
    convertAll convert s refs = (s₁, .error e) ↔
      ∃ c ∈ allCalls convert s refs, convert c.1 c.2 = (s₁, .error e) := by
  induction refs generalizing s with
  | nil => simp [convertAll, allCalls]
  | cons ref rest ih =>
    rcases hc : convert s ref with ⟨s₂, e' | t⟩
    · simp [convertAll, allCalls, hc]
    · simp only [convertAll, allCalls, hc, List.exists_mem_cons_iff, ← ih]
      rcases hr : convertAll convert s₂ rest with ⟨s₃, e' | ts⟩ <;> simp

theorem Recipe.build_error_iff {direction : Direction} {id : Nat} {r : Recipe}
    (hr : r.isRefusal = false) :
    r.build convert direction id s = (s₁, .error e) ↔
      ∃ c ∈ r.calls convert direction id s, convert c.1 c.2 = (s₁, .error e) := by
  cases r with
  | refuse => cases hr
  | scalar x => simp [Recipe.build, Recipe.calls]
  | same ref => simp [Recipe.build, Recipe.calls]
  | listOf ref =>
    simp only [Recipe.build, Recipe.calls, List.mem_singleton, exists_eq_left]
    rcases convert s ref with ⟨s₂, e' | t⟩ <;> simp
  | tupleOf refs =>
    simp only [Recipe.build, Recipe.calls, ← convertAll_error_iff]
    rcases convertAll convert s refs with ⟨s₂, e' | ts⟩ <;> simp
  | aggregate notices name docs slots =>
    simp only [Recipe.build, Recipe.calls, ← fill_error_iff, Recipe.begin]
    rcases fill convert s.aggregates.length _ slots with ⟨s₂, e' | u⟩ <;> simp

theorem fill_before_call {index : Nat} {slots : List Slot} {c : Call}
    (h : c ∈ fillCalls convert index s slots) :
    ∃ before slot after, slots = before ++ slot :: after ∧ slot.type = some c.2 ∧
      fill convert index s before = (c.1, .ok ()) := by
  induction slots generalizing s with
  | nil => simp [fillCalls] at h
  | cons slot rest ih =>
    cases ht : slot.type with
    | none =>
      simp only [fillCalls, ht] at h
      obtain ⟨before, next, after, rfl, hnext, hfill⟩ := ih h
      exact ⟨slot :: before, next, after, rfl, hnext, by simpa only [fill, ht] using hfill⟩
    | some ref =>
      simp only [fillCalls, ht, List.mem_cons] at h
      rcases h with rfl | h
      · exact ⟨[], slot, rest, rfl, ht, rfl⟩
      · rcases hc : convert s ref with ⟨s₂, e' | t⟩
        · simp [hc] at h
        · simp only [hc] at h
          obtain ⟨before, next, after, rfl, hnext, hfill⟩ := ih h
          exact ⟨slot :: before, next, after, rfl, hnext, by simpa only [fill, ht, hc] using hfill⟩

theorem convertAll_before_call {refs : List TypeRef} {c : Call}
    (h : c ∈ allCalls convert s refs) :
    ∃ before after ts, refs = before ++ c.2 :: after ∧
      convertAll convert s before = (c.1, .ok ts) := by
  induction refs generalizing s with
  | nil => simp [allCalls] at h
  | cons ref rest ih =>
    simp only [allCalls, List.mem_cons] at h
    rcases h with rfl | h
    · exact ⟨[], rest, [], rfl, rfl⟩
    · rcases hc : convert s ref with ⟨s₂, e' | t⟩
      · simp [hc] at h
      · simp only [hc] at h
        obtain ⟨before, after, ts, rfl, hall⟩ := ih h
        exact ⟨ref :: before, after, t :: ts, rfl, by simp only [convertAll, hc, hall]⟩

def Succeeds (convert : Converts) (c : Call) : Prop := ∃ t, (convert c.1 c.2).2 = .ok t

theorem fillCalls_pairwise (convert : Converts) (index : Nat) (s : Side) (slots : List Slot) :
    (fillCalls convert index s slots).Pairwise fun c _ => Succeeds convert c := by
  induction slots generalizing s with
  | nil => exact .nil
  | cons slot rest ih =>
    unfold fillCalls
    cases ht : slot.type with
    | none => exact ih _
    | some ref =>
      simp only [List.pairwise_cons]
      rcases hc : convert s ref with ⟨s₂, e' | t⟩
      · simp
      · exact ⟨fun _ _ => ⟨t, congrArg Prod.snd hc⟩, ih _⟩

theorem allCalls_pairwise (convert : Converts) (s : Side) (refs : List TypeRef) :
    (allCalls convert s refs).Pairwise fun c _ => Succeeds convert c := by
  induction refs generalizing s with
  | nil => exact .nil
  | cons ref rest ih =>
    unfold allCalls
    simp only [List.pairwise_cons]
    rcases hc : convert s ref with ⟨s₂, e' | t⟩
    · simp
    · exact ⟨fun _ _ => ⟨t, congrArg Prod.snd hc⟩, ih _⟩

theorem Recipe.calls_pairwise (convert : Converts) (direction : Direction) (id : Nat) (s : Side)
    (r : Recipe) : (r.calls convert direction id s).Pairwise
      fun c _ => Succeeds convert c := by
  cases r with
  | refuse | scalar => exact .nil
  | same | listOf => exact List.pairwise_singleton ..
  | tupleOf refs => exact allCalls_pairwise ..
  | aggregate notices name docs slots => exact fillCalls_pairwise ..

theorem Recipe.failing_call_unique {direction : Direction} {id : Nat} {r : Recipe} {c c' : Call}
    {e' : Error} (h : c ∈ r.calls convert direction id s) (h' : c' ∈ r.calls convert direction id s)
    (hc : (convert c.1 c.2).2 = .error e) (hc' : (convert c'.1 c'.2).2 = .error e') : c = c' := by
  by_contra hne
  have hsymm : Std.Symm fun c c' => Succeeds convert c ∨ Succeeds convert c' :=
    ⟨fun _ _ => Or.symm⟩
  have hpairs := (r.calls_pairwise convert direction id s).imp fun {c c'} ok =>
    (.inl ok : Succeeds convert c ∨ Succeeds convert c')
  rcases hpairs.forall h h' hne with ⟨t, ok⟩ | ⟨t, ok⟩
  · rw [hc] at ok
    cases ok
  · rw [hc'] at ok
    cases ok

end Calls

/-- A conversion from `s` raises an error at a moment `s'`. The error may come from a nested
conversion. -/
inductive Raises (g : Graph) (direction : Direction) : Side → TypeRef → Side → Error → Prop
  | dangling {s index e} (dangling : g.denoted index = .error e) :
      Raises g direction s (.node index) s e
  | reentry {s index id} (denoted : g.denoted index = .ok id) (uncached : s.cached? id = none)
      (busy : id ∈ s.building) :
      Raises g direction s (.node index) s
        (.typeCycle (s.building.dropWhile (· != id) ++ [id]))
  | refusal {s index id node notices e} (start : Starts g s index id node)
      (refused : recipe direction id node = .refuse notices e) :
      Raises g direction s (.node index) ((s.enter direction id node.name).report notices) e
  | member {s index id node c s' e} (start : Starts g s index id node)
      (call : c ∈ (recipe direction id node).calls (Side.convert g direction) direction id
        (s.enter direction id node.name))
      (inner : Raises g direction c.1 c.2 s' e) : Raises g direction s (.node index) s' e

section Raises

variable {g : Graph} {direction : Direction} {s s' : Side} {ref : TypeRef} {e : Error}

theorem call_building {id : Nat} {node : TypeDef} {c : Call}
    (call : c ∈ (recipe direction id node).calls (Side.convert g direction) direction id
      (s.enter direction id node.name)) : c.1.building = s.building ++ [id] :=
  Recipe.calls_building (convert_building g direction) call

theorem not_refusal_of_call {id : Nat} {node : TypeDef} {c : Call}
    (call : c ∈ (recipe direction id node).calls (Side.convert g direction) direction id
      (s.enter direction id node.name)) : (recipe direction id node).isRefusal = false := by
  cases hr : recipe direction id node with
  | refuse => simp [hr, Recipe.calls] at call
  | _ => rfl

/-- A failed conversion leaves the state of the moment of failure, with the stack unwound. -/
theorem Raises.convert (h : Raises g direction s ref s' e) :
    s.convert g direction ref = ({ s' with building := s.building }, .error e) := by
  induction h with
  | dangling hd => exact convert_dangling hd
  | reentry hd hc hb => exact convert_cycle hd hc hb
  | @refusal s index id node notices e start refused =>
    rw [start.convert, constructed, refused]
    simp [Recipe.build, finish, Side.leave, Side.report, Side.enter]
  | @member s index id node c s' e start call inner ih =>
    have hbuild : constructed g direction s id node =
        ({ s' with building := c.1.building }, .error e) :=
      (Recipe.build_error_iff (not_refusal_of_call call)).mpr ⟨c, call, ih⟩
    rw [start.convert, hbuild]
    simp [finish, Side.leave, call_building call]

theorem raises_of_error (h : (s.convert g direction ref).2 = .error e) :
    ∃ s', Raises g direction s ref s' e := by
  refine convert_induction (P := fun s ref res =>
    ∀ e, res.2 = .error e → ∃ s', Raises g direction s ref s' e) ?_ ?_ ?_ ?_ ?_ s ref e h
  · intro s p e h
    cases h
  · intro s index e hd e' h
    cases h
    exact ⟨s, .dangling hd⟩
  · intro s index id t _ _ e h
    cases h
  · intro s index id hd hc hb e h
    cases h
    exact ⟨s, .reentry hd hc hb⟩
  · intro s index id node start ih e h
    rcases hres : constructed g direction s id node with ⟨s₁, e' | t⟩
    · rw [hres] at h
      cases h
      by_cases hr : (recipe direction id node).isRefusal = false
      · obtain ⟨c, call, hc⟩ := (Recipe.build_error_iff hr).mp hres
        obtain ⟨s', hs'⟩ := ih c.1 c.2 (call_building call) e (by rw [hc])
        exact ⟨s', .member start call hs'⟩
      · cases hrec : recipe direction id node with
        | refuse notices e' =>
          simp only [constructed, hrec, Recipe.build, Prod.mk.injEq, Except.error.injEq] at hres
          obtain ⟨rfl, rfl⟩ := hres
          exact ⟨_, .refusal start hrec⟩
        | _ => simp [hrec, Recipe.isRefusal] at hr
    · rw [hres] at h
      cases h

theorem Raises.unique {s'' : Side} {e' : Error} (h : Raises g direction s ref s' e)
    (h' : Raises g direction s ref s'' e') : s' = s'' := by
  induction h generalizing s'' e' with
  | dangling hd =>
    cases h' with
    | dangling => rfl
    | reentry hd' => cases hd.symm.trans hd'
    | refusal start | member start => cases hd.symm.trans start.denoted
  | reentry hd hc hb =>
    cases h' with
    | dangling hd' => cases hd.symm.trans hd'
    | reentry => rfl
    | refusal start | member start =>
      cases hd.symm.trans start.denoted
      exact (start.idle hb).elim
  | refusal start refused =>
    cases h' with
    | dangling hd' => cases hd'.symm.trans start.denoted
    | reentry hd' _ hb' =>
      cases hd'.symm.trans start.denoted
      exact (start.idle hb').elim
    | refusal start' refused' =>
      cases start.denoted.symm.trans start'.denoted
      cases start.found.symm.trans start'.found
      cases refused.symm.trans refused'
      rfl
    | member start' call' =>
      cases start.denoted.symm.trans start'.denoted
      cases start.found.symm.trans start'.found
      simp [refused, Recipe.calls] at call'
  | member start call inner ih =>
    cases h' with
    | dangling hd' => cases hd'.symm.trans start.denoted
    | reentry hd' _ hb' =>
      cases hd'.symm.trans start.denoted
      exact (start.idle hb').elim
    | refusal start' refused' =>
      cases start.denoted.symm.trans start'.denoted
      cases start.found.symm.trans start'.found
      simp [refused', Recipe.calls] at call
    | member start' call' inner' =>
      cases start.denoted.symm.trans start'.denoted
      cases start.found.symm.trans start'.found
      cases Recipe.failing_call_unique call call' (congrArg Prod.snd inner.convert)
        (congrArg Prod.snd inner'.convert)
      exact ih inner'

theorem Raises.building (h : Raises g direction s ref s' e) :
    ∃ entered, s'.building = s.building ++ entered := by
  induction h with
  | dangling => exact ⟨[], (List.append_nil _).symm⟩
  | reentry => exact ⟨[], (List.append_nil _).symm⟩
  | @refusal s index id node => exact ⟨[id], rfl⟩
  | @member s index id node c s' e start call inner ih =>
    obtain ⟨entered, hentered⟩ := ih
    refine ⟨id :: entered, ?_⟩
    rw [hentered, call_building call, List.append_assoc, List.singleton_append]

end Raises

end WitSchema.Conversion
