import WitSchema.Proofs.Conversion.Extension

/-! Two sides that run in step. What one side does on a state, the other does on
a related state, with the types of one turned into those of the other. It is
enough that the relation is kept by the small steps of a construction; that it
is kept by whole conversions is proved once, here. -/

namespace WitSchema.Conversion

open GraphQL Wit Wit.Graph

inductive Recipe.Alike : Recipe → Recipe → Prop
  | refuse (notices e) : Alike (.refuse notices e) (.refuse notices e)
  | scalar (x) : Alike (.scalar x) (.scalar x)
  | same (ref) : Alike (.same ref) (.same ref)
  | listOf (ref) : Alike (.listOf ref) (.listOf ref)
  | tupleOf (refs) : Alike (.tupleOf refs) (.tupleOf refs)
  | aggregate (notices name name' docs slots) :
      Alike (.aggregate notices name docs slots) (.aggregate notices name' docs slots)

theorem Recipe.Alike.refl (r : Recipe) : r.Alike r := by cases r <;> constructor

/-- The relation `R` is kept by every small step, and `f` turns the types of the one side into
those of the other. -/
structure Simulation (g : Graph) (d d' : Direction) (f : Ty → Ty) (R : Side → Side → Prop) :
    Prop where
  scalar : ∀ x, f (.scalar x) = .scalar x
  aggregate : ∀ index, f (.aggregate d index) = .aggregate d' index
  cached : ∀ {s s'} id, R s s' → s'.cached? id = (s.cached? id).map f
  busy : ∀ {s s'} id, R s s' → s.cached? id = none → (id ∈ s'.building ↔ id ∈ s.building)
  chain : ∀ {s s'} id, R s s' → s.cached? id = none → id ∈ s.building →
    s'.building.dropWhile (· != id) = s.building.dropWhile (· != id)
  size : ∀ {s s'}, R s s' → s'.aggregates.length = s.aggregates.length
  enter : ∀ {s s'} id name, R s s' → R (s.enter d id name) (s'.enter d' id name)
  leave : ∀ {s s'}, R s s' → s.building ≠ [] → R s.leave s'.leave
  report : ∀ {s s'} notices, R s s' → R (s.report notices) (s'.report notices)
  put : ∀ {s s'} id t, R s s' → R (s.put id t) (s'.put id (f t))
  addField : ∀ {s s'} index name t docs, R s s' →
    R (s.addField index name ⟨t, docs⟩) (s'.addField index name ⟨f t, docs⟩)
  newList : ∀ {s s'} t, R s s' → R (s.newList d t).1 (s'.newList d' (f t)).1 ∧
    (s'.newList d' (f t)).2 = f (s.newList d t).2
  alike : ∀ {id node}, g.types[id]? = some node → (recipe d id node).Alike (recipe d' id node)
  begin : ∀ {s s' id node}, g.types[id]? = some node → R s s' →
    R ((recipe d id node).begin d id s) ((recipe d' id node).begin d' id s')

structure InStep {α β : Type} (R : Side → Side → Prop) (φ : α → β)
    (res : Side × Except Error α) (res' : Side × Except Error β) : Prop where
  state : R res.1 res'.1
  outcome : res'.2 = res.2.map φ

section InStep

variable {α β : Type} {R : Side → Side → Prop} {φ : α → β} {s s' : Side}
  {res' : Side × Except Error β}

theorem InStep.of_error {e : Error} (h : InStep R φ (s, .error e) res') :
    ∃ s', res' = (s', .error e) ∧ R s s' := by
  obtain ⟨hstate, houtcome⟩ := h
  exact ⟨res'.1, Prod.ext rfl houtcome, hstate⟩

theorem InStep.of_ok {a : α} (h : InStep R φ (s, .ok a) res') :
    ∃ s', res' = (s', .ok (φ a)) ∧ R s s' := by
  obtain ⟨hstate, houtcome⟩ := h
  exact ⟨res'.1, Prod.ext rfl houtcome, hstate⟩

theorem inStep_error (h : R s s') (e : Error) : InStep R φ (s, .error e) (s', .error e) := ⟨h, rfl⟩

theorem inStep_ok (h : R s s') (a : α) : InStep R φ (s, .ok a) (s', .ok (φ a)) := ⟨h, rfl⟩

end InStep

namespace Simulation

variable {g : Graph} {d d' : Direction} {f : Ty → Ty} {R : Side → Side → Prop} {b : List Nat}
  {convert convert' : Converts} {s s' : Side}

theorem fill (sim : Simulation g d d' f R)
    (keeps : ∀ s ref, (convert s ref).1.building = s.building)
    (nested : ∀ s s' ref, s.building = b → R s s' → InStep R f (convert s ref) (convert' s' ref))
    (index : Nat) (slots : List Slot) (hb : s.building = b) (h : R s s') :
    InStep R id (fill convert index s slots) (fill convert' index s' slots) := by
  induction slots generalizing s s' with
  | nil => exact inStep_ok h ()
  | cons slot rest ih =>
    simp only [Conversion.fill]
    cases ht : slot.type with
    | none =>
      have hfield := sim.addField index slot.name (.scalar slot.fallback) slot.docs h
      rw [sim.scalar] at hfield
      exact ih hb hfield
    | some ref =>
      have hcall := nested s s' ref hb h
      have hkeep := keeps s ref
      rcases hc : convert s ref with ⟨s₁, e | t⟩
      · rw [hc] at hcall
        obtain ⟨s₁', hc', hs₁⟩ := hcall.of_error
        simp only [hc, hc']
        exact inStep_error hs₁ e
      · rw [hc] at hcall hkeep
        obtain ⟨s₁', hc', hs₁⟩ := hcall.of_ok
        simp only [hc, hc']
        exact ih (hkeep.trans hb) (sim.addField index slot.name t slot.docs hs₁)

theorem convertAll (keeps : ∀ s ref, (convert s ref).1.building = s.building)
    (nested : ∀ s s' ref, s.building = b → R s s' → InStep R f (convert s ref) (convert' s' ref))
    (refs : List TypeRef) (hb : s.building = b) (h : R s s') :
    InStep R (List.map f) (convertAll convert s refs) (convertAll convert' s' refs) := by
  induction refs generalizing s s' with
  | nil => exact inStep_ok h []
  | cons ref rest ih =>
    simp only [Conversion.convertAll]
    have hcall := nested s s' ref hb h
    have hkeep := keeps s ref
    rcases hc : convert s ref with ⟨s₁, e | t⟩
    · rw [hc] at hcall
      obtain ⟨s₁', hc', hs₁⟩ := hcall.of_error
      simp only [hc']
      exact inStep_error hs₁ e
    · rw [hc] at hcall hkeep
      obtain ⟨s₁', hc', hs₁⟩ := hcall.of_ok
      have hrest := ih (hkeep.trans hb) hs₁
      simp only [hc']
      rcases hr : Conversion.convertAll convert s₁ rest with ⟨s₂, e | ts⟩
      · rw [hr] at hrest
        obtain ⟨s₂', hr', hs₂⟩ := hrest.of_error
        simp only [hr']
        exact inStep_error hs₂ e
      · rw [hr] at hrest
        obtain ⟨s₂', hr', hs₂⟩ := hrest.of_ok
        simp only [hr']
        exact inStep_ok hs₂ (t :: ts)

theorem tupleNotices_map (id : Nat) (f : Ty → Ty) (ts : List Ty) :
    tupleNotices id (ts.map f) = tupleNotices id ts := by
  rcases ts with _ | ⟨t, _ | ⟨u, ts⟩⟩ <;> simp [tupleNotices]

theorem head_map (sim : Simulation g d d' f R) (ts : List Ty) :
    (ts.map f).head?.getD (.scalar .string) = f (ts.head?.getD (.scalar .string)) := by
  cases ts with
  | nil => simp [sim.scalar]
  | cons t ts => simp

theorem newList_inStep (sim : Simulation g d d' f R) (t : Ty) (h : R s s') :
    InStep R f ((s.newList d t).1, .ok (s.newList d t).2)
      ((s'.newList d' (f t)).1, .ok (s'.newList d' (f t)).2) := by
  obtain ⟨hstate, htype⟩ := sim.newList t h
  rw [htype]
  exact inStep_ok hstate _

theorem build (sim : Simulation g d d' f R)
    (keeps : ∀ s ref, (convert s ref).1.building = s.building)
    (nested : ∀ s s' ref, s.building = b → R s s' → InStep R f (convert s ref) (convert' s' ref))
    (id : Nat) {r r' : Recipe} (alike : r.Alike r') (hb : s.building = b) (h : R s s')
    (begin : R (r.begin d id s) (r'.begin d' id s')) :
    InStep R f (r.build convert d id s) (r'.build convert' d' id s') := by
  cases alike with
  | refuse notices e => exact inStep_error (sim.report notices h) e
  | scalar x =>
    have hok : InStep R f (s, .ok (.scalar x)) (s', .ok (f (.scalar x))) := inStep_ok h _
    rwa [sim.scalar] at hok
  | same ref => exact nested s s' ref hb h
  | listOf ref =>
    have hcall := nested s s' ref hb h
    simp only [Recipe.build]
    rcases hc : convert s ref with ⟨s₁, e | t⟩
    · rw [hc] at hcall
      obtain ⟨s₁', hc', hs₁⟩ := hcall.of_error
      simp only [hc']
      exact inStep_error hs₁ e
    · rw [hc] at hcall
      obtain ⟨s₁', hc', hs₁⟩ := hcall.of_ok
      simp only [hc']
      exact sim.newList_inStep t hs₁
  | tupleOf refs =>
    have hall := convertAll keeps nested refs hb h
    simp only [Recipe.build]
    rcases hc : Conversion.convertAll convert s refs with ⟨s₁, e | ts⟩
    · rw [hc] at hall
      obtain ⟨s₁', hc', hs₁⟩ := hall.of_error
      simp only [hc']
      exact inStep_error hs₁ e
    · rw [hc] at hall
      obtain ⟨s₁', hc', hs₁⟩ := hall.of_ok
      simp only [hc', tupleNotices_map, sim.head_map]
      exact sim.newList_inStep _ (sim.report _ hs₁)
  | aggregate notices name name' docs slots =>
    have hbegin := (Recipe.begin_building d id s (.aggregate notices name docs slots)).trans hb
    have hfill := sim.fill keeps nested s.aggregates.length slots hbegin begin
    simp only [Recipe.begin] at hfill
    rw [sim.size h] at hfill
    simp only [Recipe.build]
    rw [sim.size h]
    rcases hc : Conversion.fill convert s.aggregates.length _ slots with ⟨s₁, e | u⟩
    · rw [hc] at hfill
      obtain ⟨s₁', hc', hs₁⟩ := hfill.of_error
      simp only [hc']
      exact inStep_error hs₁ e
    · rw [hc] at hfill
      obtain ⟨s₁', hc', hs₁⟩ := hfill.of_ok
      simp only [hc', id_eq]
      have hok : InStep R f (s₁, .ok (.aggregate d s.aggregates.length))
        (s₁', .ok (f (.aggregate d s.aggregates.length))) := inStep_ok hs₁ _
      rwa [sim.aggregate] at hok

theorem finish (sim : Simulation g d d' f R) (id : Nat) {res res' : Side × Except Error Ty}
    (busy : res.1.building ≠ []) (h : InStep R f res res') :
    InStep R f (finish id res) (finish id res') := by
  rcases res with ⟨s, e | t⟩
  · obtain ⟨s', rfl, hs⟩ := h.of_error
    exact inStep_error (sim.leave hs busy) e
  · obtain ⟨s', rfl, hs⟩ := h.of_ok
    exact inStep_ok (sim.put id t (sim.leave hs busy)) t

theorem convert_inStep (sim : Simulation g d d' f R) (ref : TypeRef) (h : R s s') :
    InStep R f (s.convert g d ref) (s'.convert g d' ref) := by
  refine convert_induction (P := fun s ref res => ∀ s', R s s' →
    InStep R f res (s'.convert g d' ref)) ?_ ?_ ?_ ?_ ?_ s ref s' h
  · intro s p s' h
    rw [convert_primitive]
    have hok : InStep R f (s, .ok (.scalar (Scalar.ofPrimitive p)))
      (s', .ok (f (.scalar (Scalar.ofPrimitive p)))) := inStep_ok h _
    rwa [sim.scalar] at hok
  · intro s index e hd s' h
    rw [convert_dangling hd]
    exact inStep_error h e
  · intro s index id t hd hc s' h
    have hc' : s'.cached? id = some (f t) := by rw [sim.cached id h, hc, Option.map_some]
    rw [convert_cached hd hc']
    exact inStep_ok h t
  · intro s index id hd hc hb s' h
    have hc' : s'.cached? id = none := by rw [sim.cached id h, hc, Option.map_none]
    rw [convert_cycle hd hc' ((sim.busy id h hc).mpr hb), sim.chain id h hc hb]
    exact inStep_error h _
  · intro s index id node start ih s' h
    have hc' : s'.cached? id = none := by rw [sim.cached id h, start.uncached, Option.map_none]
    have hidle : id ∉ s'.building := fun hb => start.idle ((sim.busy id h start.uncached).mp hb)
    have start' : Starts g s' index id node := ⟨start.denoted, hc', hidle, start.found⟩
    have henter := sim.enter id node.name h
    rw [start'.convert]
    refine sim.finish id ?_ ?_
    · rw [constructed_building]
      simp
    · exact sim.build (convert_building g d) (fun s s' ref hb h => ih s ref hb s' h) id
        (sim.alike start.found) rfl henter (sim.begin start.found henter)

end Simulation

end WitSchema.Conversion
