import WitSchema.Proofs.Conversion.Equation
import WitSchema.Proofs.Conversion.Nesting

/-! Runs of a converter. A run is a list of calls on one converter. Between
calls nothing is under construction, the sides do not touch each other, and
after calls that all succeeded every cached node satisfies its equation. -/

namespace WitSchema.Conversion

open GraphQL Wit Wit.Graph

namespace Converter

def run (g : Graph) (c : Converter) :
    List (Direction × TypeRef) → Converter × List (Except Error Ty)
  | [] => (c, [])
  | (direction, ref) :: rest =>
    let (c', _, r) := c.convert g direction ref
    let (c'', rs) := run g c' rest
    (c'', r :: rs)

/-- What holds of a converter between calls that all succeeded. -/
structure Settled (g : Graph) (c : Converter) : Prop where
  sound : ∀ direction, Sound g direction (c.side direction)
  owned : ∀ direction, Owned g direction (c.side direction)
  idle : ∀ direction, (c.side direction).building = []

section Sides

variable {g : Graph} {c : Converter} {direction other : Direction} {ref : TypeRef}

@[simp] theorem side_set_self (c : Converter) (direction : Direction) (s : Side) :
    (c.set direction s).side direction = s := by
  cases direction <;> rfl

theorem side_set_of_ne (h : other ≠ direction) (c : Converter) (s : Side) :
    (c.set direction s).side other = c.side other := by
  cases direction with
  | output =>
    cases other with
    | output => exact absurd rfl h
    | input => rfl
  | input =>
    cases other with
    | output => rfl
    | input => exact absurd rfl h

theorem convert_result (g : Graph) (c : Converter) (direction : Direction) (ref : TypeRef) :
    (c.convert g direction ref).2.2 = ((c.side direction).convert g direction ref).2 := rfl

theorem convert_side (g : Graph) (c : Converter) (direction : Direction) (ref : TypeRef) :
    (c.convert g direction ref).1.side direction =
      { ((c.side direction).convert g direction ref).1 with notices := [] } :=
  side_set_self ..

theorem convert_side_of_ne (h : other ≠ direction) (g : Graph) (c : Converter) (ref : TypeRef) :
    (c.convert g direction ref).1.side other = c.side other := side_set_of_ne h ..

theorem look?_convert (g : Graph) (c : Converter) (direction : Direction) (ref : TypeRef) :
    ((c.convert g direction ref).1.side direction).look? g =
      ((c.side direction).convert g direction ref).1.look? g := by
  rw [convert_side]
  exact look?_congr rfl

theorem convert_entries (g : Graph) (c : Converter) (direction : Direction) (ref : TypeRef)
    (other : Direction) :
    (c.side other).cache.entries <+:
      ((c.convert g direction ref).1.side other).cache.entries := by
  by_cases h : other = direction
  · subst h
    rw [convert_side]
    exact (convert_extends g other (c.side other) ref).entries
  · simp only [convert_side_of_ne h, List.prefix_rfl]

theorem settled_empty (g : Graph) : Settled g empty := by
  refine ⟨fun direction => ?_, fun direction => ?_, fun direction => ?_⟩
  · cases direction <;> exact fun id t h => by cases h
  · cases direction <;> exact owned_empty g _
  · cases direction <;> rfl

theorem Settled.convert (h : Settled g c) {t : Ty}
    (ok : (c.convert g direction ref).2.2 = .ok t) :
    Settled g (c.convert g direction ref).1 ∧
      ((c.convert g direction ref).1.side direction).look? g ref = some t := by
  have hsound := convert_keepsSound _ ref (h.sound direction) (h.owned direction) t ok
  have howned := convert_owned _ ref (h.owned direction)
  have hbuilding := (convert_building g direction (c.side direction) ref).trans (h.idle direction)
  refine ⟨⟨fun other => ?_, fun other => ?_, fun other => ?_⟩, ?_⟩
  · by_cases ho : other = direction
    · subst ho
      rw [convert_side]
      exact hsound.mono List.prefix_rfl List.prefix_rfl fun _ _ hc hb => ⟨hc, hb⟩
    · rw [convert_side_of_ne ho]
      exact h.sound other
  · by_cases ho : other = direction
    · subst ho
      rw [convert_side]
      exact howned.of_cache rfl (Nat.le_refl _)
    · rw [convert_side_of_ne ho]
      exact h.owned other
  · by_cases ho : other = direction
    · subst ho
      rw [convert_side]
      exact hbuilding
    · rw [convert_side_of_ne ho]
      exact h.idle other
  · rw [look?_convert]
    exact look?_of_convert (Prod.ext rfl ok)

end Sides

section Runs

variable {g : Graph}

theorem run_entries (g : Graph) (c : Converter) (calls : List (Direction × TypeRef))
    (direction : Direction) :
    (c.side direction).cache.entries <+: ((c.run g calls).1.side direction).cache.entries := by
  induction calls generalizing c with
  | nil => exact List.prefix_rfl
  | cons call rest ih =>
    exact (convert_entries g c call.1 call.2 direction).trans (ih (c.convert g call.1 call.2).1)

section Keeps

variable {P : Direction → Side → Prop}
  (forgets : ∀ direction s, P direction s → P direction { s with notices := [] })
  (converts : ∀ direction s ref, P direction s → P direction (s.convert g direction ref).1)

include forgets converts

theorem convert_keeps {c : Converter} (h : ∀ direction, P direction (c.side direction))
    (direction : Direction) (ref : TypeRef) (other : Direction) :
    P other ((c.convert g direction ref).1.side other) := by
  by_cases ho : other = direction
  · subst ho
    rw [convert_side]
    exact forgets _ _ (converts _ _ _ (h other))
  · rw [convert_side_of_ne ho]
    exact h other

theorem run_keeps {c : Converter} (h : ∀ direction, P direction (c.side direction))
    (calls : List (Direction × TypeRef)) (direction : Direction) :
    P direction ((c.run g calls).1.side direction) := by
  induction calls generalizing c with
  | nil => exact h direction
  | cons call rest ih => exact ih (convert_keeps forgets converts h call.1 call.2)

end Keeps

theorem run_append (g : Graph) (c : Converter) (calls calls' : List (Direction × TypeRef)) :
    (c.run g (calls ++ calls')).1 = ((c.run g calls).1.run g calls').1 := by
  induction calls generalizing c with
  | nil => rfl
  | cons call rest ih => exact ih (c.convert g call.1 call.2).1

theorem Settled.run {c : Converter} (h : Settled g c) {calls : List (Direction × TypeRef)}
    (ok : ∀ r ∈ (c.run g calls).2, ∃ t, r = .ok t) :
    Settled g (c.run g calls).1 ∧
      List.Forall₂ (fun call r => ∃ t, r = .ok t ∧
        ((c.run g calls).1.side call.1).look? g call.2 = some t) calls (c.run g calls).2 := by
  induction calls generalizing c with
  | nil => exact ⟨h, .nil⟩
  | cons call rest ih =>
    obtain ⟨direction, ref⟩ := call
    obtain ⟨t, ht⟩ := ok (c.convert g direction ref).2.2 (List.mem_cons_self ..)
    obtain ⟨hsettled, hlook⟩ := h.convert ht
    obtain ⟨hrun, hcalls⟩ := ih hsettled fun r hr => ok r (List.mem_cons_of_mem _ hr)
    refine ⟨hrun, .cons ⟨t, ht, ?_⟩ hcalls⟩
    exact look?_of_isPrefix (run_entries g (c.convert g direction ref).1 rest direction) hlook

end Runs

def Clean (g : Graph) (c : Converter) : Prop :=
  ∃ calls, (∀ r ∈ (empty.run g calls).2, ∃ t, r = .ok t) ∧ c = (empty.run g calls).1

theorem clean_empty (g : Graph) : Clean g empty := ⟨[], (fun _ h => nomatch h), rfl⟩

theorem Clean.settled {g : Graph} {c : Converter} (h : Clean g c) : Settled g c := by
  obtain ⟨calls, ok, rfl⟩ := h
  exact ((settled_empty g).run ok).1

def forestCalls : List (Direction × TypeRef) :=
  [(.output, .node 1), (.output, .node 0), (.input, .node 1)]

theorem forest_results : (empty.run forest forestCalls).2 =
    [.ok (.aggregate .output 0), .ok (.list .output 0 (.aggregate .output 0)),
      .ok (.aggregate .input 0)] := by
  simp only [forestCalls, run, convert, convert_eq_evaluated]
  rfl

theorem clean_forest : Clean forest (empty.run forest forestCalls).1 :=
  ⟨forestCalls, by simp [forest_results], rfl⟩

end Converter

theorem Lasting.run {g : Graph} {direction : Direction} {P : Side → Prop}
    (h : Lasting g direction P) (calls : List (Direction × TypeRef)) :
    P ((Converter.empty.run g calls).1.side direction) := by
  refine Converter.run_keeps (P := fun other s => other = direction → P s)
    (fun _ _ start same => h.of_cache (start same) rfl (Nat.le_refl _)) ?_ ?_ calls direction rfl
  · rintro other s ref start rfl
    exact h.convert s ref (start rfl)
  · rintro other rfl
    cases other <;> exact h.empty

end WitSchema.Conversion
