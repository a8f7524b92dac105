import WitSchema.Proofs.Conversion.Recipe

/-! The recursion of conversion. A conversion looks at the stack of its state,
not at a list of remaining nodes: `convert_eq_step` is the equation without
that list. `calls` lists the nested conversions a recipe makes, which are all
that its outcome depends on (`build_congr`), and `convert_induction` is the
rule by which everything about conversions is proved. -/

namespace WitSchema.Conversion

open GraphQL Wit Wit.Graph

abbrev Call := Side × TypeRef

def fillCalls (convert : Converts) (index : Nat) : Side → List Slot → List Call
  | _, [] => []
  | s, slot :: rest =>
    match slot.type with
    | none =>
      fillCalls convert index (s.addField index slot.name ⟨.scalar slot.fallback, slot.docs⟩) rest
    | some ref =>
      (s, ref) :: match convert s ref with
        | (_, .error _) => []
        | (s, .ok t) => fillCalls convert index (s.addField index slot.name ⟨t, slot.docs⟩) rest

def allCalls (convert : Converts) : Side → List TypeRef → List Call
  | _, [] => []
  | s, ref :: rest =>
    (s, ref) :: match convert s ref with
      | (_, .error _) => []
      | (s, .ok _) => allCalls convert s rest

namespace Recipe

def begin (direction : Direction) (id : Nat) (s : Side) : Recipe → Side
  | .aggregate notices name docs _ =>
    ((s.report notices).allocate ⟨direction, name, docs, []⟩).put id
      (.aggregate direction s.aggregates.length)
  | _ => s

def calls (convert : Converts) (direction : Direction) (id : Nat) (s : Side) : Recipe → List Call
  | .refuse .. | .scalar _ => []
  | .same ref | .listOf ref => [(s, ref)]
  | .tupleOf refs => allCalls convert s refs
  | .aggregate notices name docs slots =>
    fillCalls convert s.aggregates.length
      ((Recipe.aggregate notices name docs slots).begin direction id s) slots

end Recipe

section Congruence

variable {convert convert' : Converts}

theorem fill_congr {index : Nat} {slots : List Slot} {s : Side}
    (h : ∀ c ∈ fillCalls convert index s slots, convert c.1 c.2 = convert' c.1 c.2) :
    fill convert index s slots = fill convert' index s slots := by
  induction slots generalizing s with
  | nil => rfl
  | cons slot rest ih =>
    unfold fillCalls at h
    unfold fill
    cases ht : slot.type with
    | none =>
      simp only [ht] at h
      exact ih h
    | some ref =>
      simp only [ht, List.forall_mem_cons] at h
      simp only [← h.1]
      rcases hc : convert s ref with ⟨s', e | t⟩
      · rfl
      · exact ih (by simpa only [hc] using h.2)

theorem convertAll_congr {refs : List TypeRef} {s : Side}
    (h : ∀ c ∈ allCalls convert s refs, convert c.1 c.2 = convert' c.1 c.2) :
    convertAll convert s refs = convertAll convert' s refs := by
  induction refs generalizing s with
  | nil => rfl
  | cons ref rest ih =>
    unfold allCalls at h
    unfold convertAll
    simp only [List.forall_mem_cons] at h
    rw [← h.1]
    rcases hc : convert s ref with ⟨s', e | t⟩
    · rfl
    · have hrest : convertAll convert s' rest = convertAll convert' s' rest :=
        ih (by simpa only [hc] using h.2)
      simp only [hrest]

theorem Recipe.build_congr {direction : Direction} {id : Nat} {s : Side} {r : Recipe}
    (h : ∀ c ∈ r.calls convert direction id s, convert c.1 c.2 = convert' c.1 c.2) :
    r.build convert direction id s = r.build convert' direction id s := by
  cases r with
  | refuse notices e => rfl
  | scalar x => rfl
  | same ref => exact h (s, ref) (List.mem_singleton_self _)
  | listOf ref =>
    have hc : convert s ref = convert' s ref := h (s, ref) (List.mem_singleton_self _)
    simp only [Recipe.build, hc]
  | tupleOf refs => simp only [Recipe.build, convertAll_congr h]
  | aggregate notices name docs slots =>
    have hf := fill_congr h
    simp only [Recipe.begin] at hf
    simp only [Recipe.build, hf]

end Congruence

theorem prefix_modify {α : Type} {l l' : List α} {index : Nat} (h : l <+: l')
    (hl : l.length ≤ index) (f : α → α) : l <+: l'.modify index f := by
  induction l generalizing l' index with
  | nil => exact List.nil_prefix
  | cons a l ih =>
    obtain ⟨rest, rfl⟩ := h
    rw [List.length_cons] at hl
    cases index with
    | zero => omega
    | succ index =>
      rw [List.cons_append, List.modify_succ_cons, List.prefix_cons_inj]
      exact ih (List.prefix_append ..) (by omega)

/-- Housekeeping between nested conversions leaves alone the cache, the stack and the first `n`
aggregates, and it numbers no list again. -/
structure Tidy (n : Nat) (s s' : Side) : Prop where
  cache : s'.cache = s.cache
  building : s'.building = s.building
  older : ∀ l : List Aggregate, l.length ≤ n → l <+: s.aggregates → l <+: s'.aggregates
  size : s.aggregates.length ≤ s'.aggregates.length
  lists : s.lists ≤ s'.lists

namespace Tidy

variable {n : Nat} {s s' s'' : Side}

theorem refl (s : Side) : Tidy n s s := ⟨rfl, rfl, fun _ _ h => h, Nat.le_refl _, Nat.le_refl _⟩

theorem trans (h : Tidy n s s') (h' : Tidy n s' s'') : Tidy n s s'' :=
  ⟨h'.cache.trans h.cache, h'.building.trans h.building,
    fun l hl hp => h'.older l hl (h.older l hl hp), Nat.le_trans h.size h'.size,
    Nat.le_trans h.lists h'.lists⟩

theorem report (s : Side) (notices : List Notice) : Tidy n s (s.report notices) :=
  ⟨rfl, rfl, fun _ _ h => h, Nat.le_refl _, Nat.le_refl _⟩

theorem newList (s : Side) (direction : Direction) (item : Ty) :
    Tidy n s (s.newList direction item).1 :=
  ⟨rfl, rfl, fun _ _ h => h, Nat.le_refl _, Nat.le_succ _⟩

theorem addField (s : Side) (index : Nat) (name : String) (m : Member) :
    Tidy index s (s.addField index name m) :=
  ⟨rfl, rfl, fun _ hl hp => prefix_modify hp hl _, Nat.le_of_eq (List.length_modify ..).symm,
    Nat.le_refl _⟩

end Tidy

/-- References are converted in order, with housekeeping in between, until one fails. -/
inductive Pass (convert : Converts) (n : Nat) :
    Side → List TypeRef → Side → Option Error → Prop
  | done {s s'} (tidy : Tidy n s s') : Pass convert n s [] s' none
  | next {s s₁ s₂ s' ref t rest e} (tidy : Tidy n s s₁) (call : convert s₁ ref = (s₂, .ok t))
      (tail : Pass convert n s₂ rest s' e) : Pass convert n s (ref :: rest) s' e
  | stop {s s₁ s₂ ref rest e} (tidy : Tidy n s s₁) (call : convert s₁ ref = (s₂, .error e)) :
      Pass convert n s (ref :: rest) s₂ (some e)

def errorOf {τ : Type} : Except Error τ → Option Error
  | .error e => some e
  | .ok _ => none

section Passes

variable {convert : Converts} {n : Nat}

theorem Pass.tidied {s s₁ s' : Side} {refs : List TypeRef} {e : Option Error}
    (tidy : Tidy n s s₁) (h : Pass convert n s₁ refs s' e) : Pass convert n s refs s' e := by
  cases h with
  | done tidy' => exact .done (tidy.trans tidy')
  | next tidy' call tail => exact .next (tidy.trans tidy') call tail
  | stop tidy' call => exact .stop (tidy.trans tidy') call

theorem Pass.tidy_after {s s' s'' : Side} {refs : List TypeRef}
    (h : Pass convert n s refs s' none) (tidy : Tidy n s' s'') :
    Pass convert n s refs s'' none := by
  generalize he : (none : Option Error) = e at h
  induction h with
  | done tidy' => exact .done (tidy'.trans tidy)
  | next tidy' call _ ih => exact .next tidy' call (ih tidy he)
  | stop => cases he

theorem fill_pass (index : Nat) (slots : List Slot) (s : Side) :
    Pass convert index s (slots.filterMap (·.type)) (fill convert index s slots).1
      (errorOf (fill convert index s slots).2) := by
  induction slots generalizing s with
  | nil => exact .done (.refl s)
  | cons slot rest ih =>
    unfold fill
    cases ht : slot.type with
    | none =>
      rw [List.filterMap_cons_none ht]
      exact (ih _).tidied (.addField ..)
    | some ref =>
      rw [List.filterMap_cons_some ht]
      rcases hc : convert s ref with ⟨s', e | t⟩
      · simpa only [hc] using .stop (.refl s) hc
      · simpa only [hc] using .next (.refl s) hc ((ih _).tidied (.addField ..))

theorem convertAll_pass (refs : List TypeRef) (s : Side) :
    Pass convert n s refs (convertAll convert s refs).1
      (errorOf (convertAll convert s refs).2) := by
  induction refs generalizing s with
  | nil => exact .done (.refl s)
  | cons ref rest ih =>
    unfold convertAll
    rcases hc : convert s ref with ⟨s', e | t⟩
    · exact .stop (.refl s) hc
    · have hrest := ih s'
      rcases hr : convertAll convert s' rest with ⟨s'', e | ts⟩
      · simp only [hr] at hrest ⊢
        exact .next (.refl s) hc hrest
      · simp only [hr] at hrest ⊢
        exact .next (.refl s) hc hrest

theorem Recipe.build_pass (direction : Direction) (id : Nat) (s : Side) {r : Recipe}
    (hr : r.isRefusal = false) :
    Pass convert s.aggregates.length (r.begin direction id s) r.refs
      (r.build convert direction id s).1 (errorOf (r.build convert direction id s).2) := by
  cases r with
  | refuse => cases hr
  | scalar x => exact .done (.refl s)
  | same ref =>
    simp only [Recipe.build, Recipe.begin, Recipe.refs]
    rcases hc : convert s ref with ⟨s', e | t⟩
    · exact .stop (.refl s) hc
    · exact .next (.refl s) hc (.done (.refl s'))
  | listOf ref =>
    simp only [Recipe.build, Recipe.begin, Recipe.refs]
    rcases hc : convert s ref with ⟨s', e | t⟩
    · exact .stop (.refl s) hc
    · exact .next (.refl s) hc (.done (.newList s' direction t))
  | tupleOf refs =>
    have hp := @convertAll_pass convert s.aggregates.length refs s
    simp only [Recipe.build, Recipe.begin, Recipe.refs]
    rcases hc : convertAll convert s refs with ⟨s', e | ts⟩
    · simp only [hc] at hp ⊢
      exact hp
    · simp only [hc] at hp ⊢
      exact hp.tidy_after ((Tidy.report ..).trans (Tidy.newList ..))
  | aggregate notices name docs slots =>
    have hp := @fill_pass convert s.aggregates.length slots
      ((Recipe.aggregate notices name docs slots).begin direction id s)
    simp only [Recipe.begin] at hp
    simp only [Recipe.build, Recipe.begin, Recipe.refs]
    rcases hc : fill convert s.aggregates.length _ slots with ⟨s', e | u⟩
    · simp only [hc] at hp ⊢
      exact hp
    · simp only [hc] at hp ⊢
      exact hp

end Passes

def finish (id : Nat) : Side × Except Error Ty → Side × Except Error Ty
  | (s, .error e) => (s.leave, .error e)
  | (s, .ok t) => (s.leave.put id t, .ok t)

/-- One step of the recursion: the nested conversions are those of `convert`, a node is under
construction if it is on the stack, and aliases are walked with the passed nodes in a list. -/
def convertStep (g : Graph) (direction : Direction) (convert : Converts) (s : Side) :
    TypeRef → Side × Except Error Ty
  | .primitive p => (s, .ok (.scalar (Scalar.ofPrimitive p)))
  | .node index =>
    match g.denotedWithin index with
    | .error e => (s, .error e)
    | .ok id =>
      match s.cached? id with
      | some t => (s, .ok t)
      | none =>
        if id ∈ s.building then
          (s, .error (.typeCycle (s.building.dropWhile (· != id) ++ [id])))
        else match g.typeDef id with
          | .error e => (s, .error e)
          | .ok node => finish id (build convert direction id node (s.enter direction id node.name))

def Side.fresh (g : Graph) (s : Side) : List Nat := g.ids.filter (!s.building.contains ·)

theorem mem_fresh {g : Graph} {s : Side} {id : Nat} :
    id ∈ s.fresh g ↔ id < g.size ∧ id ∉ s.building := by
  simp [Side.fresh, mem_ids]

theorem fresh_erase {g : Graph} {s s' : Side} {id : Nat} (h : s'.building = s.building ++ [id]) :
    (s.fresh g).erase id = s'.fresh g := by
  unfold Side.fresh
  rw [((nodup_ids g).filter _).erase_eq_filter, List.filter_filter, h]
  refine List.filter_congr fun a _ => ?_
  by_cases ha : a = id <;> simp [ha]

theorem Pass.building {convert : Converts}
    (keeps : ∀ s ref, (convert s ref).1.building = s.building) {n : Nat} {s s' : Side}
    {refs : List TypeRef} {e : Option Error} (h : Pass convert n s refs s' e) :
    s'.building = s.building := by
  induction h with
  | done tidy => exact tidy.building
  | @next s s₁ s₂ s' ref t rest e tidy call _ ih =>
    have hcall := keeps s₁ ref
    rw [call] at hcall
    exact ih.trans (hcall.trans tidy.building)
  | @stop s s₁ s₂ ref rest e tidy call =>
    have hcall := keeps s₁ ref
    rw [call] at hcall
    exact hcall.trans tidy.building

theorem Pass.preserves {convert : Converts} {P : Side → Prop} {n : Nat} {b : List Nat}
    (keeps : ∀ s ref, (convert s ref).1.building = s.building)
    (tidies : ∀ s s', Tidy n s s' → P s → P s')
    (converts : ∀ s ref, s.building = b → P s → P (convert s ref).1) {s s' : Side}
    {refs : List TypeRef} {e : Option Error} (h : Pass convert n s refs s' e)
    (hb : s.building = b) (hs : P s) : P s' := by
  induction h with
  | done tidy => exact tidies _ _ tidy hs
  | @next s s₁ s₂ s' ref t rest e tidy call _ ih =>
    have hb₁ := tidy.building.trans hb
    have hcall := converts s₁ ref hb₁ (tidies _ _ tidy hs)
    have hkeep := keeps s₁ ref
    rw [call] at hcall hkeep
    exact ih (hkeep.trans hb₁) hcall
  | @stop s s₁ s₂ ref rest e tidy call =>
    have hcall := converts s₁ ref (tidy.building.trans hb) (tidies _ _ tidy hs)
    rwa [call] at hcall

theorem Recipe.begin_building (direction : Direction) (id : Nat) (s : Side) (r : Recipe) :
    (r.begin direction id s).building = s.building := by
  cases r <;> rfl

theorem Recipe.build_building {convert : Converts}
    (keeps : ∀ s ref, (convert s ref).1.building = s.building) (direction : Direction) (id : Nat)
    (s : Side) (r : Recipe) : (r.build convert direction id s).1.building = s.building := by
  by_cases hr : r.isRefusal = false
  · exact ((r.build_pass direction id s hr).building keeps).trans (begin_building ..)
  · cases r with
    | refuse => rfl
    | _ => exact (hr rfl).elim

theorem leave_enter_building {s s' : Side} {direction : Direction} {id : Nat} {name : Json}
    (h : s'.building = (s.enter direction id name).building) : s'.leave.building = s.building := by
  simp [Side.leave, h, Side.enter, Side.report]

theorem convertWithin_building (g : Graph) (direction : Direction) (fresh : List Nat) (s : Side)
    (ref : TypeRef) : (convertWithin g direction fresh s ref).1.building = s.building := by
  have keeps {fresh : List Nat} {id : Nat} {s s' : Side} {node : TypeDef} {r : Except Error Ty}
      (ih : ∀ s ref, (convertWithin g direction fresh s ref).1.building = s.building)
      (hb : build (fun s ref => convertWithin g direction fresh s ref) direction id node
        (s.enter direction id node.name) = (s', r)) :
      s'.leave.building = s.building := by
    have hkept := Recipe.build_building ih direction id (s.enter direction id node.name)
      (recipe direction id node)
    rw [← build_eq_recipe, hb] at hkept
    exact leave_enter_building hkept
  fun_induction convertWithin g direction fresh s ref with
  | case1 | case2 | case3 | case4 | case7 => rfl
  | case5 fresh s index id hd hc member node ht s' e hb ih => exact keeps ih hb
  | case6 fresh s index id hd hc member node ht s' t hb ih => exact keeps ih hb

theorem convert_building (g : Graph) (direction : Direction) (s : Side) (ref : TypeRef) :
    (s.convert g direction ref).1.building = s.building := convertWithin_building ..

section Calls

variable {convert : Converts} {n : Nat}

theorem mem_fillCalls {index : Nat} {slots : List Slot} {s : Side} {c : Call}
    (h : c ∈ fillCalls convert index s slots) :
    ∃ before after, slots.filterMap (·.type) = before ++ c.2 :: after ∧
      Pass convert index s before c.1 none := by
  induction slots generalizing s with
  | nil => cases h
  | cons slot rest ih =>
    unfold fillCalls at h
    cases ht : slot.type with
    | none =>
      simp only [ht] at h
      obtain ⟨before, after, hsplit, hpass⟩ := ih h
      exact ⟨before, after, by rw [List.filterMap_cons_none ht, hsplit],
        hpass.tidied (.addField ..)⟩
    | some ref =>
      simp only [ht, List.mem_cons] at h
      rw [List.filterMap_cons_some ht]
      rcases h with rfl | h
      · exact ⟨[], _, rfl, .done (.refl s)⟩
      · rcases hc : convert s ref with ⟨s', e | t⟩
        · simp [hc] at h
        · simp only [hc] at h
          obtain ⟨before, after, hsplit, hpass⟩ := ih h
          exact ⟨ref :: before, after, by rw [hsplit]; rfl,
            .next (.refl s) hc (hpass.tidied (.addField ..))⟩

theorem mem_allCalls {refs : List TypeRef} {s : Side} {c : Call}
    (h : c ∈ allCalls convert s refs) :
    ∃ before after, refs = before ++ c.2 :: after ∧ Pass convert n s before c.1 none := by
  induction refs generalizing s with
  | nil => cases h
  | cons ref rest ih =>
    unfold allCalls at h
    rcases List.mem_cons.mp h with rfl | h
    · exact ⟨[], rest, rfl, .done (.refl s)⟩
    · rcases hc : convert s ref with ⟨s', e | t⟩
      · simp [hc] at h
      · simp only [hc] at h
        obtain ⟨before, after, rfl, hpass⟩ := ih h
        exact ⟨ref :: before, after, rfl, .next (.refl s) hc hpass⟩

theorem Recipe.mem_calls {direction : Direction} {id : Nat} {s : Side} {r : Recipe} {c : Call}
    (h : c ∈ r.calls convert direction id s) :
    ∃ before after, r.refs = before ++ c.2 :: after ∧
      Pass convert s.aggregates.length (r.begin direction id s) before c.1 none := by
  cases r with
  | refuse | scalar => cases h
  | same ref | listOf ref =>
    cases List.mem_singleton.mp h
    exact ⟨[], [], rfl, .done (.refl s)⟩
  | tupleOf refs => exact mem_allCalls h
  | aggregate notices name docs slots => exact mem_fillCalls h

theorem Recipe.calls_building (keeps : ∀ s ref, (convert s ref).1.building = s.building)
    {direction : Direction} {id : Nat} {s : Side} {r : Recipe} {c : Call}
    (h : c ∈ r.calls convert direction id s) : c.1.building = s.building := by
  obtain ⟨_, _, _, hpass⟩ := mem_calls h
  exact (hpass.building keeps).trans (begin_building ..)

end Calls

theorem build_convertWithin (g : Graph) (direction : Direction) (s : Side) (id : Nat)
    (node : TypeDef) :
    build (fun s' ref => convertWithin g direction ((s.fresh g).erase id) s' ref) direction id node
        (s.enter direction id node.name) =
      build (Side.convert g direction) direction id node (s.enter direction id node.name) := by
  rw [build_eq_recipe, build_eq_recipe]
  refine Recipe.build_congr fun c hc => ?_
  have hb := Recipe.calls_building (fun s ref => convertWithin_building ..) hc
  have herase := @fresh_erase g s c.1 id hb
  simp only [herase]
  rfl

theorem convert_eq_step (g : Graph) (direction : Direction) (s : Side) (ref : TypeRef) :
    s.convert g direction ref = convertStep g direction (Side.convert g direction) s ref := by
  rw [Side.convert, convertWithin.eq_def, convertStep.eq_def]
  cases ref with
  | primitive p => rfl
  | node index =>
    simp only [denotedWithin_eq]
    cases hd : g.denoted index with
    | error e => simp only
    | ok id =>
      cases hc : s.cached? id with
      | some t => simp only [hc]
      | none =>
        have hiff : id ∈ g.ids.filter (!s.building.contains ·) ↔ id ∉ s.building := by
          rw [← Side.fresh, mem_fresh]
          exact and_iff_right (denoted_lt hd)
        by_cases hb : id ∈ s.building
        · simp only [hc, hiff, hb, not_true_eq_false, dif_neg, not_false_eq_true, if_true]
        · simp only [hc, hiff, hb, not_false_eq_true, dif_pos, if_false]
          cases ht : g.typeDef id with
          | error e => rfl
          | ok node =>
            have hbuild := build_convertWithin g direction s id node
            simp only [Side.fresh] at hbuild
            simp only [hbuild]
            rcases build (Side.convert g direction) direction id node
              (s.enter direction id node.name) with ⟨s', e | t⟩
            · rfl
            · rfl

structure Starts (g : Graph) (s : Side) (index : Int) (id : Nat) (node : TypeDef) : Prop where
  denoted : g.denoted index = .ok id
  uncached : s.cached? id = none
  idle : id ∉ s.building
  found : g.types[id]? = some node

def constructed (g : Graph) (direction : Direction) (s : Side) (id : Nat) (node : TypeDef) :
    Side × Except Error Ty :=
  (recipe direction id node).build (Side.convert g direction) direction id
    (s.enter direction id node.name)

section Cases

variable {g : Graph} {direction : Direction} {s : Side} {index : Int} {id : Nat}

theorem convert_primitive (p : Primitive) :
    s.convert g direction (.primitive p) = (s, .ok (.scalar (Scalar.ofPrimitive p))) := by
  rw [convert_eq_step]
  rfl

theorem convert_dangling {e : Error} (hd : g.denoted index = .error e) :
    s.convert g direction (.node index) = (s, .error e) := by
  simp [convert_eq_step, convertStep, hd]

theorem convert_cached {t : Ty} (hd : g.denoted index = .ok id) (hc : s.cached? id = some t) :
    s.convert g direction (.node index) = (s, .ok t) := by
  simp [convert_eq_step, convertStep, hd, hc]

theorem convert_cycle (hd : g.denoted index = .ok id) (hc : s.cached? id = none)
    (hb : id ∈ s.building) :
    s.convert g direction (.node index) =
      (s, .error (.typeCycle (s.building.dropWhile (· != id) ++ [id]))) := by
  simp [convert_eq_step, convertStep, hd, hc, hb]

theorem Starts.convert {node : TypeDef} (h : Starts g s index id node) :
    s.convert g direction (.node index) = finish id (constructed g direction s id node) := by
  simp [convert_eq_step, convertStep, h.denoted, h.uncached, h.idle, typeDef_natCast g id h.found,
    build_eq_recipe, constructed]

end Cases

/-- What a nested conversion satisfies once the node above it is on the stack, every conversion
satisfies. -/
theorem convert_induction {g : Graph} {direction : Direction}
    {P : Side → TypeRef → Side × Except Error Ty → Prop}
    (primitive : ∀ s p, P s (.primitive p) (s, .ok (.scalar (Scalar.ofPrimitive p))))
    (dangling : ∀ s index e, g.denoted index = .error e → P s (.node index) (s, .error e))
    (cached : ∀ s index id t, g.denoted index = .ok id → s.cached? id = some t →
      P s (.node index) (s, .ok t))
    (cycle : ∀ s index id, g.denoted index = .ok id → s.cached? id = none → id ∈ s.building →
      P s (.node index) (s, .error (.typeCycle (s.building.dropWhile (· != id) ++ [id]))))
    (built : ∀ s index id node, Starts g s index id node →
      (∀ s' ref, s'.building = s.building ++ [id] → P s' ref (s'.convert g direction ref)) →
      P s (.node index) (finish id (constructed g direction s id node)))
    (s : Side) (ref : TypeRef) : P s ref (s.convert g direction ref) := by
  induction hn : (s.fresh g).length using Nat.strongRecOn generalizing s ref with
  | _ n ih =>
    cases ref with
    | primitive p => exact convert_primitive p ▸ primitive s p
    | node index =>
      cases hd : g.denoted index with
      | error e => exact convert_dangling hd ▸ dangling s index e hd
      | ok id =>
        cases hc : s.cached? id with
        | some t => exact convert_cached hd hc ▸ cached s index id t hd hc
        | none =>
          by_cases hb : id ∈ s.building
          · exact convert_cycle hd hc hb ▸ cycle s index id hd hc hb
          · obtain ⟨node, found⟩ := denoted_found hd
            have start : Starts g s index id node := ⟨hd, hc, hb, found⟩
            rw [start.convert]
            refine built s index id node start fun s' ref' hs' => ?_
            -- the node has left the fresh ones
            have member : id ∈ s.fresh g := mem_fresh.mpr ⟨denoted_lt hd, hb⟩
            have hlen := List.length_erase_of_mem member
            have hpos := List.length_pos_of_mem member
            rw [fresh_erase hs'] at hlen
            exact ih _ (by omega) s' ref' rfl

end WitSchema.Conversion
