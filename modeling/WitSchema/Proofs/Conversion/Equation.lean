import WitSchema.Proofs.Conversion.Ownership

/-! The equations of cached types. What a node is cached under is described by
its recipe in terms of what is cached for the references of the recipe. While
an aggregate is being filled its equation does not hold yet; all nodes that
are not under construction satisfy theirs, as long as no conversion fails. -/

namespace WitSchema.Conversion

open GraphQL Wit Wit.Graph

/-- The type a side has for a reference: a scalar, or what is cached for the node it denotes. -/
def Side.look? (g : Graph) (s : Side) : TypeRef → Option Ty
  | .primitive p => some (.scalar (Scalar.ofPrimitive p))
  | .node index =>
    match g.denoted index with
    | .error _ => none
    | .ok id => s.cached? id

def Slot.entry (look : TypeRef → Option Ty) (slot : Slot) : String × Member :=
  (slot.name, ⟨(slot.type.bind look).getD (.scalar slot.fallback), slot.docs⟩)

def Recipe.Describes (g : Graph) (direction : Direction) (s : Side) (t : Ty) : Recipe → Prop
  | .refuse .. => False
  | .scalar x => t = .scalar x
  | .same ref => s.look? g ref = some t
  | .listOf ref => ∃ serial item, s.look? g ref = some item ∧ t = .list direction serial item
  | .tupleOf refs => ∃ (serial : Nat) (items : List Ty), refs.map (s.look? g) = items.map some ∧
      t = .list direction serial (items.head?.getD (.scalar .string))
  | .aggregate _ name docs slots => ∃ index, t = .aggregate direction index ∧
      s.aggregates[index]? =
        some ⟨direction, name, docs, insertPairs (slots.map (Slot.entry (s.look? g)))⟩ ∧
      ∀ ref ∈ slots.filterMap (·.type), (s.look? g ref).isSome

/-- Every cached node that is not under construction satisfies its equation. -/
def Sound (g : Graph) (direction : Direction) (s : Side) : Prop :=
  ∀ id t, s.cached? id = some t → id ∉ s.building →
    ∃ node, g.types[id]? = some node ∧ (recipe direction id node).Describes g direction s t

section Look

variable {g : Graph} {direction : Direction} {s s' : Side} {ref : TypeRef} {t : Ty}

theorem look?_congr (h : s'.cache = s.cache) : s'.look? g = s.look? g := by
  funext ref
  cases ref with
  | primitive p => rfl
  | node index => simp only [Side.look?, Side.cached?, h]

theorem look?_of_isPrefix (h : s.cache.entries <+: s'.cache.entries)
    (hl : s.look? g ref = some t) : s'.look? g ref = some t := by
  cases ref with
  | primitive p => exact hl
  | node index =>
    simp only [Side.look?] at hl ⊢
    cases hd : g.denoted index with
    | error e => simp [hd] at hl
    | ok id =>
      simp only [hd] at hl
      exact cached?_of_isPrefix h hl

theorem isSome_look?_of_isPrefix (h : s.cache.entries <+: s'.cache.entries)
    (hl : (s.look? g ref).isSome) : (s'.look? g ref).isSome := by
  obtain ⟨t, ht⟩ := Option.isSome_iff_exists.mp hl
  rw [look?_of_isPrefix h ht]
  rfl

theorem entry_of_isPrefix (h : s.cache.entries <+: s'.cache.entries) {slot : Slot}
    (hl : ∀ ref, slot.type = some ref → (s.look? g ref).isSome) :
    slot.entry (s'.look? g) = slot.entry (s.look? g) := by
  unfold Slot.entry
  cases ht : slot.type with
  | none => rfl
  | some ref =>
    obtain ⟨t, hs⟩ := Option.isSome_iff_exists.mp (hl ref ht)
    simp only [Option.bind_some, hs, look?_of_isPrefix h hs]

theorem entries_of_isPrefix (h : s.cache.entries <+: s'.cache.entries) {slots : List Slot}
    (hl : ∀ ref ∈ slots.filterMap (·.type), (s.look? g ref).isSome) :
    slots.map (Slot.entry (s'.look? g)) = slots.map (Slot.entry (s.look? g)) :=
  List.map_congr_left fun _ hslot =>
    entry_of_isPrefix h fun ref href => hl ref (List.mem_filterMap.mpr ⟨_, hslot, href⟩)

theorem getElem?_of_isPrefix {α : Type} {l l' : List α} {i : Nat} {a : α} (h : l <+: l')
    (ha : l[i]? = some a) : l'[i]? = some a := by
  obtain ⟨rest, rfl⟩ := h
  rw [List.getElem?_append_left (List.getElem?_eq_some_iff.mp ha).1]
  exact ha

theorem Recipe.Describes.mono (he : s.cache.entries <+: s'.cache.entries)
    (ha : s.aggregates <+: s'.aggregates) {r : Recipe} (h : r.Describes g direction s t) :
    r.Describes g direction s' t := by
  cases r with
  | refuse => exact h
  | scalar => exact h
  | same ref => exact look?_of_isPrefix he h
  | listOf ref =>
    obtain ⟨serial, item, hl, ht⟩ := h
    exact ⟨serial, item, look?_of_isPrefix he hl, ht⟩
  | tupleOf refs =>
    obtain ⟨serial, items, hl, ht⟩ := h
    refine ⟨serial, items, ?_, ht⟩
    rw [← hl]
    refine List.map_congr_left fun ref href => ?_
    have hsome : s.look? g ref ∈ items.map some := hl ▸ List.mem_map_of_mem href
    obtain ⟨item, _, hitem⟩ := List.mem_map.mp hsome
    rw [← hitem, look?_of_isPrefix he hitem.symm]
  | aggregate notices name docs slots =>
    obtain ⟨index, ht, hagg, hl⟩ := h
    refine ⟨index, ht, ?_, fun ref href => isSome_look?_of_isPrefix he (hl ref href)⟩
    rw [entries_of_isPrefix he hl]
    exact getElem?_of_isPrefix ha hagg

theorem Recipe.Describes.looked {r : Recipe} (h : r.Describes g direction s t) :
    ∀ ref ∈ r.refs, (s.look? g ref).isSome := by
  intro ref href
  cases r with
  | refuse | scalar => cases href
  | same ref' =>
    cases List.mem_singleton.mp href
    exact Option.isSome_iff_exists.mpr ⟨t, h⟩
  | listOf ref' =>
    cases List.mem_singleton.mp href
    obtain ⟨_, item, hl, _⟩ := h
    exact Option.isSome_iff_exists.mpr ⟨item, hl⟩
  | tupleOf refs =>
    obtain ⟨_, items, hl, _⟩ := h
    have hsome : s.look? g ref ∈ items.map some := hl ▸ List.mem_map_of_mem href
    obtain ⟨item, _, hitem⟩ := List.mem_map.mp hsome
    exact Option.isSome_iff_exists.mpr ⟨item, hitem.symm⟩
  | aggregate notices name docs slots =>
    obtain ⟨_, _, _, hl⟩ := h
    exact hl ref href

theorem Sound.mono (h : Sound g direction s) (he : s.cache.entries <+: s'.cache.entries)
    (ha : s.aggregates <+: s'.aggregates)
    (hold : ∀ id t, s'.cached? id = some t → id ∉ s'.building →
      s.cached? id = some t ∧ id ∉ s.building) : Sound g direction s' := by
  intro id t hc hb
  obtain ⟨hc', hb'⟩ := hold id t hc hb
  obtain ⟨node, found, hdesc⟩ := h id t hc' hb'
  exact ⟨node, found, hdesc.mono he ha⟩

end Look

/-- What the slots up to some point leave behind, and the slots after it keep up, holds when an
aggregate is full. -/
theorem fill_induction {convert : Converts} {index : Nat} {P : List Slot → Side → Prop}
    (fixed : ∀ before slot s, slot.type = none → P before s →
      P (before ++ [slot]) (s.addField index slot.name ⟨.scalar slot.fallback, slot.docs⟩))
    (called : ∀ before slot s ref s' t, slot.type = some ref → P before s →
      convert s ref = (s', .ok t) →
      P (before ++ [slot]) (s'.addField index slot.name ⟨t, slot.docs⟩))
    {slots before : List Slot} {s s' : Side} (h : P before s)
    (hf : fill convert index s slots = (s', .ok ())) : P (before ++ slots) s' := by
  induction slots generalizing before s with
  | nil =>
    cases hf
    simpa using h
  | cons slot rest ih =>
    rw [List.append_cons]
    unfold fill at hf
    cases ht : slot.type with
    | none =>
      simp only [ht] at hf
      exact ih (fixed before slot s ht h) hf
    | some ref =>
      simp only [ht] at hf
      rcases hc : convert s ref with ⟨s₁, e | t⟩
      · simp [hc] at hf
      · simp only [hc] at hf
        exact ih (called before slot s ref s₁ t ht h hc) hf

/-- An aggregate under construction: the fields of the slots before are in place. -/
structure Filling (g : Graph) (direction : Direction) (id index : Nat) (name : String)
    (docs : Json) (before : List Slot) (s : Side) : Prop where
  sound : Sound g direction s
  owned : Owned g direction s
  busy : id ∈ s.building
  cached : s.cached? id = some (.aggregate direction index)
  looked : ∀ ref ∈ before.filterMap (·.type), (s.look? g ref).isSome
  fields : s.aggregates[index]? =
    some ⟨direction, name, docs, insertPairs (before.map (Slot.entry (s.look? g)))⟩

section Filling

variable {g : Graph} {direction : Direction} {id index : Nat} {name : String} {docs : Json}
  {before : List Slot} {s s' : Side}

theorem Filling.extends (h : Filling g direction id index name docs before s) (he : Extends s s')
    (hs : Sound g direction s') (ho : Owned g direction s') :
    Filling g direction id index name docs before s' :=
  { sound := hs
    owned := ho
    busy := he.building ▸ h.busy
    cached := he.cached h.cached
    looked := fun ref href => isSome_look?_of_isPrefix he.entries (h.looked ref href)
    fields := by
      rw [entries_of_isPrefix he.entries h.looked]
      exact he.aggregate h.fields }

theorem Filling.sound_addField (h : Filling g direction id index name docs before s)
    (hid : Makes g direction id) (field : String) (m : Member) :
    Sound g direction (s.addField index field m) := by
  intro a t hc hb
  obtain ⟨node, found, hdesc⟩ := h.sound a t hc hb
  refine ⟨node, found, ?_⟩
  have hlook : (s.addField index field m).look? g = s.look? g := look?_congr rfl
  cases hr : recipe direction a node with
  | aggregate notices own text slots =>
    rw [hr] at hdesc
    obtain ⟨i, ht, hagg, hl⟩ := hdesc
    have hne : index ≠ i := by
      intro heq
      have hmakes : Makes g direction a := ⟨node, found, by rw [hr]; rfl⟩
      have ha : s.cached? a = some (.aggregate direction index) := by rw [heq, ← ht]; exact hc
      exact hb (h.owned.unique hmakes hid ha h.cached ▸ h.busy)
    refine ⟨i, ht, ?_, hlook ▸ hl⟩
    rw [hlook, ← hagg]
    simp [Side.addField, hne]
  | refuse =>
    rw [hr] at hdesc
    exact hdesc.elim
  | _ =>
    rw [hr] at hdesc
    simpa only [Recipe.Describes, hlook] using hdesc

theorem Filling.addField (h : Filling g direction id index name docs before s)
    (hid : Makes g direction id) {slot : Slot} {m : Member}
    (hentry : slot.entry (s.look? g) = (slot.name, m))
    (hl : ∀ ref, slot.type = some ref → (s.look? g ref).isSome) :
    Filling g direction id index name docs (before ++ [slot])
      (s.addField index slot.name m) := by
  have hlook : (s.addField index slot.name m).look? g = s.look? g := look?_congr rfl
  constructor
  · exact h.sound_addField hid slot.name m
  · exact h.owned.of_cache rfl (Nat.le_of_eq (List.length_modify ..).symm)
  · exact h.busy
  · exact h.cached
  · rw [hlook]
    intro ref href
    rw [List.filterMap_append, List.mem_append] at href
    rcases href with href | href
    · exact h.looked ref href
    · obtain ⟨slot', hslot, ht⟩ := List.mem_filterMap.mp href
      cases List.mem_singleton.mp hslot
      exact hl ref ht
  · rw [hlook, List.map_append, List.map_singleton, insertPairs_append_singleton, hentry]
    simp [Side.addField, h.fields]

end Filling

section Answer

variable {g : Graph} {direction : Direction} {s s' : Side} {ref : TypeRef} {t : Ty}

theorem look?_of_convert (h : s.convert g direction ref = (s', .ok t)) :
    s'.look? g ref = some t := by
  refine convert_induction (P := fun _ ref res =>
    ∀ s' t, res = (s', .ok t) → s'.look? g ref = some t) ?_ ?_ ?_ ?_ ?_ s ref s' t h
  · intro s p s' t h
    cases h
    rfl
  · intro s index e _ s' t h
    cases h
  · intro s index id t hd hc s' t' h
    cases h
    simp [Side.look?, hd, hc]
  · intro s index id _ _ _ s' t h
    cases h
  · intro s index id node start _ s' t h
    rcases hres : constructed g direction s id node with ⟨s₁, e | t'⟩
    · rw [hres] at h
      cases h
    · rw [hres] at h
      cases h
      have hself : (s₁.leave.put id t).cached? id = some t := cached?_put_self ..
      simp [Side.look?, start.denoted, hself]

theorem Pass.looked {n : Nat} {refs : List TypeRef}
    (h : Pass (Side.convert g direction) n s refs s' none) :
    ∀ ref ∈ refs, (s'.look? g ref).isSome = true := by
  generalize he : (none : Option Error) = e at h
  induction h with
  | done => exact fun ref href => by cases href
  | @next s s₁ s₂ s' ref t rest e tidy call tail ih =>
    have hgrows := tail.grows (fun s ref _ => convert_extends g direction s ref) rfl
    intro ref' href
    rcases List.mem_cons.mp href with rfl | href
    · refine isSome_look?_of_isPrefix hgrows.entries ?_
      rw [look?_of_convert call]
      rfl
    · exact ih he ref' href
  | stop => cases he

theorem convertAll_looked {refs : List TypeRef} {ts : List Ty}
    (h : convertAll (Side.convert g direction) s refs = (s', .ok ts)) :
    refs.map (s'.look? g) = ts.map some := by
  induction refs generalizing s ts with
  | nil =>
    cases h
    rfl
  | cons ref rest ih =>
    unfold convertAll at h
    rcases hc : s.convert g direction ref with ⟨s₁, e | t⟩
    · simp [hc] at h
    · have pass := @convertAll_pass (Side.convert g direction) 0 rest s₁
      rcases hr : convertAll (Side.convert g direction) s₁ rest with ⟨s₂, e | us⟩
      · simp [hc, hr] at h
      · rw [hr] at pass
        simp only [hc, hr, Prod.mk.injEq, Except.ok.injEq] at h
        obtain ⟨rfl, rfl⟩ := h
        have grows := pass.grows (fun s ref _ => convert_extends g direction s ref) rfl
        rw [List.map_cons, List.map_cons, ih hr,
          look?_of_isPrefix grows.entries (look?_of_convert hc)]

theorem constructed_looked {id : Nat} {node : TypeDef}
    (built : constructed g direction s id node = (s', .ok t)) :
    ∀ ref ∈ node.kind.members, (s'.look? g ref).isSome = true := by
  have followed : (recipe direction id node).isRefusal = false := by
    cases hr : recipe direction id node with
    | refuse => simp [constructed, hr, Recipe.build] at built
    | _ => rfl
  have pass := @constructed_pass g direction s id node followed
  rw [built] at pass
  exact pass.looked

end Answer

def KeepsSound (g : Graph) (direction : Direction) (s : Side) (res : Side × Except Error Ty) :
    Prop :=
  Sound g direction s → Owned g direction s → ∀ t, res.2 = .ok t → Sound g direction res.1

section Construction

variable {g : Graph} {direction : Direction} {b : List Nat} {s s' : Side} {id : Nat}

theorem convertAll_sound
    (ih : ∀ s ref, s.building = b → KeepsSound g direction s (s.convert g direction ref))
    {refs : List TypeRef} {ts : List Ty} (hb : s.building = b) (hs : Sound g direction s)
    (ho : Owned g direction s)
    (h : convertAll (Side.convert g direction) s refs = (s', .ok ts)) : Sound g direction s' := by
  induction refs generalizing s ts with
  | nil =>
    cases h
    exact hs
  | cons ref rest rec =>
    unfold convertAll at h
    have he := convert_extends g direction s ref
    have ho₁ := convert_owned s ref ho
    have hsound := ih s ref hb hs ho
    rcases hc : s.convert g direction ref with ⟨s₁, e | t⟩
    · simp [hc] at h
    · rw [hc] at he ho₁ hsound
      rcases hr : convertAll (Side.convert g direction) s₁ rest with ⟨s₂, e | us⟩
      · simp [hc, hr] at h
      · simp only [hc, hr, Prod.mk.injEq, Except.ok.injEq] at h
        obtain ⟨rfl, rfl⟩ := h
        exact rec (he.building.trans hb) (hsound t rfl) ho₁ hr

theorem fill_describes
    (ih : ∀ s ref, s.building = b → KeepsSound g direction s (s.convert g direction ref))
    (hid : Makes g direction id) {index : Nat} {name : String} {docs : Json} {slots : List Slot}
    (hb : s.building = b) (h : Filling g direction id index name docs [] s)
    (hf : fill (Side.convert g direction) index s slots = (s', .ok ())) :
    Filling g direction id index name docs slots s' := by
  refine (fill_induction
    (P := fun before s => s.building = b ∧ Filling g direction id index name docs before s)
    ?_ ?_ ⟨hb, h⟩ hf).2
  · intro before slot s ht ⟨hb, hfill⟩
    refine ⟨hb, hfill.addField hid ?_ ?_⟩
    · simp [Slot.entry, ht]
    · simp [ht]
  · intro before slot s ref s₁ t ht ⟨hb, hfill⟩ hc
    have he := convert_extends g direction s ref
    have ho₁ := convert_owned s ref hfill.owned
    have hsound := ih s ref hb hfill.sound hfill.owned
    rw [hc] at he ho₁ hsound
    have hlook := look?_of_convert hc
    refine ⟨he.building.trans hb, (hfill.extends he (hsound t rfl) ho₁).addField hid ?_ ?_⟩
    · simp [Slot.entry, ht, hlook]
    · simp [ht, hlook]

theorem filling_begin (notices : List Notice) (name : String) (docs : Json) (slots : List Slot)
    (hid : id ∈ s.building) (hs : Sound g direction s) (ho : Owned g direction s)
    (hc : s.cached? id = none) :
    Filling g direction id s.aggregates.length name docs []
      ((Recipe.aggregate notices name docs slots).begin direction id s) := by
  constructor
  · refine hs.mono (isPrefix_entries_put (.inl hc)) (List.prefix_append ..) fun a u ha hab => ?_
    have hne : a ≠ id := fun heq => hab (heq ▸ hid)
    exact ⟨cached?_put_of_ne hne .. ▸ ha, hab⟩
  · exact ho.begin id _
  · exact hid
  · exact cached?_put_self ..
  · exact fun ref href => by cases href
  · simp [Recipe.begin, Side.put, Side.allocate, Side.report, insertPairs]

theorem Recipe.build_describes
    (ih : ∀ s ref, s.building = b → KeepsSound g direction s (s.convert g direction ref))
    (hid : id ∈ b) (hb : s.building = b) (hs : Sound g direction s) (ho : Owned g direction s)
    (hc : s.cached? id = none) {r : Recipe} (hr : r.isAggregate = true → Makes g direction id)
    {t : Ty} (h : r.build (Side.convert g direction) direction id s = (s', .ok t)) :
    Sound g direction s' ∧ r.Describes g direction s' t := by
  cases r with
  | refuse => simp [Recipe.build] at h
  | scalar x =>
    cases h
    exact ⟨hs, rfl⟩
  | same ref =>
    have hcall : s.convert g direction ref = (s', .ok t) := h
    have hsound := ih s ref hb hs ho
    rw [hcall] at hsound
    exact ⟨hsound t rfl, look?_of_convert hcall⟩
  | listOf ref =>
    have hsound := ih s ref hb hs ho
    simp only [Recipe.build] at h
    rcases hcall : s.convert g direction ref with ⟨s₁, e | item⟩
    · simp [hcall] at h
    · rw [hcall] at hsound
      have hlook := look?_of_convert hcall
      have hs₁ := hsound item rfl
      simp only [hcall, Prod.mk.injEq, Except.ok.injEq] at h
      obtain ⟨rfl, rfl⟩ := h
      refine ⟨hs₁.mono List.prefix_rfl List.prefix_rfl fun _ _ hc hb => ⟨hc, hb⟩, ?_⟩
      exact ⟨s₁.lists, item, hlook, rfl⟩
  | tupleOf refs =>
    simp only [Recipe.build] at h
    rcases hall : convertAll (Side.convert g direction) s refs with ⟨s₁, e | items⟩
    · simp [hall] at h
    · have hs₁ := convertAll_sound ih hb hs ho hall
      have hmap := convertAll_looked hall
      simp only [hall, Prod.mk.injEq, Except.ok.injEq] at h
      obtain ⟨rfl, rfl⟩ := h
      refine ⟨hs₁.mono List.prefix_rfl List.prefix_rfl fun _ _ hc hb => ⟨hc, hb⟩, ?_⟩
      exact ⟨s₁.lists, items, hmap, rfl⟩
  | aggregate notices name docs slots =>
    have hb₁ := (begin_building direction id s (.aggregate notices name docs slots)).trans hb
    have hbegun := filling_begin notices name docs slots (hb ▸ hid) hs ho hc
    simp only [Recipe.begin] at hb₁ hbegun
    simp only [Recipe.build] at h
    rcases hfill : fill (Side.convert g direction) s.aggregates.length
      (((s.report notices).allocate ⟨direction, name, docs, []⟩).put id
        (.aggregate direction s.aggregates.length)) slots with ⟨s₁, e | u⟩
    · simp [hfill] at h
    · simp only [hfill, Prod.mk.injEq, Except.ok.injEq] at h
      obtain ⟨rfl, rfl⟩ := h
      have hfull := fill_describes ih (hr rfl) hb₁ hbegun hfill
      exact ⟨hfull.sound, _, rfl, hfull.fields, hfull.looked⟩

end Construction

theorem convert_keepsSound {g : Graph} {direction : Direction} (s : Side) (ref : TypeRef) :
    KeepsSound g direction s (s.convert g direction ref) := by
  refine convert_induction (P := fun s _ res => KeepsSound g direction s res) ?_ ?_ ?_ ?_ ?_ s ref
  · exact fun s p hs _ _ _ => hs
  · exact fun s index e _ hs _ _ _ => hs
  · exact fun s index id t _ _ hs _ _ _ => hs
  · exact fun s index id _ _ _ hs _ _ _ => hs
  · intro s index id node start ih hs ho t ht
    have hs₀ : Sound g direction (s.enter direction id node.name) :=
      hs.mono List.prefix_rfl List.prefix_rfl fun a u hc hb =>
        ⟨hc, fun hmem => hb (List.mem_append_left _ hmem)⟩
    rcases hres : constructed g direction s id node with ⟨s', e | u⟩
    · simp [hres, finish] at ht
    · obtain ⟨hs', hdesc⟩ := Recipe.build_describes
        (s := s.enter direction id node.name) (b := s.building ++ [id]) ih (by simp) rfl hs₀
        (ho.of_cache rfl (Nat.le_refl _)) start.uncached (fun ha => ⟨node, start.found, ha⟩) hres
      have hentries := start.entries_finish hres
      have hb' : s'.building = s.building ++ [id] := by
        rw [← @constructed_building g direction s id node, hres]
      have hb : (s'.leave.put id u).building = s.building := leave_constructed hres
      intro a v ha hab
      by_cases heq : a = id
      · subst heq
        rw [show finish a (s', .ok u) = (s'.leave.put a u, .ok u) from rfl,
          cached?_put_self] at ha
        cases ha
        exact ⟨node, start.found, hdesc.mono hentries List.prefix_rfl⟩
      · have hold : s'.cached? a = some v := cached?_put_of_ne heq s'.leave u ▸ ha
        have hidle : a ∉ s'.building := by
          rw [hb', List.mem_append, List.mem_singleton, not_or]
          exact ⟨hb ▸ hab, heq⟩
        obtain ⟨node', found, hdesc'⟩ := hs' a v hold hidle
        exact ⟨node', found, hdesc'.mono hentries List.prefix_rfl⟩

end WitSchema.Conversion
