import WitSchema.Proofs.Conversion.Run

/-! Types as trees. A type and the store that it refers to unfold to a tree of
lists, scalars and aggregates with their fields in order; which list or which
aggregate it is does not show in the tree. Two sound sides of one graph unfold
the types of a reference to the same tree, if the aliases and options of one of
them come to an end. -/

namespace WitSchema.Conversion

open GraphQL Wit Wit.Graph

/-- A type as far as it is looked at. Below that it is cut off. -/
inductive Tree
  | cut
  | scalar (s : Scalar)
  | list (item : Tree)
  | nonNull (inner : Tree)
  | missing
  | aggregate (direction : Direction) (name : String) (description : Json)
      (fields : List (String × Tree × Json))

def unfold (store : Store) : Nat → Ty → Tree
  | 0, _ => .cut
  | _ + 1, .scalar s => .scalar s
  | depth + 1, .list _ _ item => .list (unfold store depth item)
  | depth + 1, .nonNull inner => .nonNull (unfold store depth inner)
  | depth + 1, .aggregate direction index =>
    match store.get? direction index with
    | none => .missing
    | some a => .aggregate a.direction a.name a.description
        (a.fields.map fun f => (f.1, unfold store depth f.2.type, f.2.description))

inductive Grounded (g : Graph) (direction : Direction) : Nat → Prop
  | plain {id node} (found : g.types[id]? = some node)
      (plain : ∀ ref, recipe direction id node ≠ .same ref) : Grounded g direction id
  | primitive {id node p} (found : g.types[id]? = some node)
      (same : recipe direction id node = .same (.primitive p)) : Grounded g direction id
  | next {id node index target} (found : g.types[id]? = some node)
      (same : recipe direction id node = .same (.node index))
      (denoted : g.denoted index = .ok target) (rest : Grounded g direction target) :
      Grounded g direction id

def AllGrounded (g : Graph) (direction : Direction) (s : Side) : Prop :=
  ∀ id, (s.cached? id).isSome = true → Grounded g direction id

section Grounded

variable {g : Graph} {direction : Direction} {s s' : Side} {ref : TypeRef} {id : Nat} {t : Ty}

theorem AllGrounded.put (h : AllGrounded g direction s) (hid : Grounded g direction id) (t : Ty) :
    AllGrounded g direction (s.put id t) := by
  intro a ha
  by_cases heq : a = id
  · exact heq ▸ hid
  · rw [cached?_put_of_ne heq] at ha
    exact h a ha

theorem AllGrounded.of_cache (h : AllGrounded g direction s) (same : s'.cache = s.cache) :
    AllGrounded g direction s' := by
  intro a ha
  rw [Side.cached?, same] at ha
  exact h a ha

theorem grounded_of_constructed {node : TypeDef} (found : g.types[id]? = some node)
    (hres : constructed g direction s id node = (s', .ok t)) (h : AllGrounded g direction s') :
    Grounded g direction id := by
  by_cases hsame : ∃ ref, recipe direction id node = .same ref
  · obtain ⟨ref, hsame⟩ := hsame
    have hcall : (s.enter direction id node.name).convert g direction ref = (s', .ok t) := by
      rw [constructed, hsame] at hres
      exact hres
    have hlook := look?_of_convert hcall
    cases ref with
    | primitive p => exact .primitive found hsame
    | node index =>
      cases hd : g.denoted index with
      | error e => simp [Side.look?, hd] at hlook
      | ok target =>
        refine .next found hsame hd (h target ?_)
        simp only [Side.look?, hd] at hlook
        rw [hlook]
        rfl
  · exact .plain found fun ref href => hsame ⟨ref, href⟩

theorem allGrounded_begun {node : TypeDef} (found : g.types[id]? = some node)
    (h : AllGrounded g direction s) : AllGrounded g direction (begun direction s id node) := by
  unfold begun
  cases hr : recipe direction id node with
  | aggregate notices name docs slots =>
    have hid : Grounded g direction id := .plain found fun ref => by simp [hr]
    exact AllGrounded.put (s := (((s.enter direction id node.name).report notices).allocate
      ⟨direction, name, docs, []⟩)) h hid _
  | _ => exact h

theorem lasting_grounded (g : Graph) (direction : Direction) :
    Lasting g direction (AllGrounded g direction) where
  empty _ cached := nomatch cached
  of_cache h same _ := h.of_cache same
  begun start h := allGrounded_begun start.found h
  finish start built h := h.put (grounded_of_constructed start.found built h) _

theorem convert_allGrounded (s : Side) (ref : TypeRef) :
    AllGrounded g direction s → AllGrounded g direction (s.convert g direction ref).1 :=
  (lasting_grounded g direction).convert s ref

end Grounded

def Holds (store : Store) (direction : Direction) (s : Side) : Prop :=
  ∀ index, store.get? direction index = s.aggregates[index]?

section Equal

variable {g : Graph} {direction : Direction} {s s' : Side} {store store' : Store} {depth : Nat}

def SameTrees (g : Graph) (s s' : Side) (store store' : Store) (depth : Nat) : Prop :=
  ∀ ref t t', s.look? g ref = some t → s'.look? g ref = some t' →
    unfold store depth t = unfold store' depth t'

theorem head_sameTrees (h : SameTrees g s s' store store' depth) {refs : List TypeRef}
    {items items' : List Ty} (hl : refs.map (s.look? g) = items.map some)
    (hl' : refs.map (s'.look? g) = items'.map some) :
    unfold store depth (items.head?.getD (.scalar .string)) =
      unfold store' depth (items'.head?.getD (.scalar .string)) := by
  cases refs with
  | nil =>
    cases List.map_eq_nil_iff.mp hl.symm
    cases List.map_eq_nil_iff.mp hl'.symm
    cases depth <;> rfl
  | cons ref rest =>
    cases items with
    | nil => simp at hl
    | cons t items =>
      cases items' with
      | nil => simp at hl'
      | cons t' items' =>
        rw [List.map_cons, List.map_cons, List.cons.injEq] at hl hl'
        exact h ref t t' hl.1 hl'.1

theorem fields_sameTrees (h : SameTrees g s s' store store' depth) {slots : List Slot}
    (hl : ∀ ref ∈ slots.filterMap (·.type), (s.look? g ref).isSome = true)
    (hl' : ∀ ref ∈ slots.filterMap (·.type), (s'.look? g ref).isSome = true) :
    (insertPairs (slots.map (Slot.entry (s.look? g)))).map
        (fun f => (f.1, unfold store depth f.2.type, f.2.description)) =
      (insertPairs (slots.map (Slot.entry (s'.look? g)))).map
        (fun f => (f.1, unfold store' depth f.2.type, f.2.description)) := by
  rw [map_insertPairs fun m : Member => (unfold store depth m.type, m.description),
    map_insertPairs fun m : Member => (unfold store' depth m.type, m.description),
    List.map_map, List.map_map]
  refine congrArg insertPairs (List.map_congr_left fun slot hslot => ?_)
  unfold Function.comp Slot.entry
  cases ht : slot.type with
  | none => cases depth <;> rfl
  | some ref =>
    have href := List.mem_filterMap.mpr ⟨slot, hslot, ht⟩
    obtain ⟨t, hs⟩ := Option.isSome_iff_exists.mp (hl ref href)
    obtain ⟨t', hs'⟩ := Option.isSome_iff_exists.mp (hl' ref href)
    simp only [Option.bind_some, hs, hs', Option.getD_some, h ref t t' hs hs']

theorem describes_sameTrees (h : SameTrees g s s' store store' depth)
    (holds : Holds store direction s) (holds' : Holds store' direction s') {r : Recipe}
    (plain : ∀ ref, r ≠ .same ref) {t t' : Ty} (hd : r.Describes g direction s t)
    (hd' : r.Describes g direction s' t') :
    unfold store (depth + 1) t = unfold store' (depth + 1) t' := by
  cases r with
  | refuse => exact hd.elim
  | scalar x =>
    cases hd
    cases hd'
    rfl
  | same ref => exact (plain ref rfl).elim
  | listOf ref =>
    obtain ⟨_, item, hl, rfl⟩ := hd
    obtain ⟨_, item', hl', rfl⟩ := hd'
    exact congrArg Tree.list (h ref item item' hl hl')
  | tupleOf refs =>
    obtain ⟨_, items, hl, rfl⟩ := hd
    obtain ⟨_, items', hl', rfl⟩ := hd'
    exact congrArg Tree.list (head_sameTrees h hl hl')
  | aggregate notices name docs slots =>
    obtain ⟨index, rfl, hagg, hl⟩ := hd
    obtain ⟨index', rfl, hagg', hl'⟩ := hd'
    have hget := (holds index).trans hagg
    have hget' := (holds' index').trans hagg'
    simp only [unfold, hget, hget', fields_sameTrees h hl hl']

structure Complete (g : Graph) (direction : Direction) (s : Side) (store : Store) : Prop where
  sound : Sound g direction s
  idle : s.building = []
  holds : Holds store direction s

theorem Complete.describes (h : Complete g direction s store) {id : Nat} {t : Ty}
    (hc : s.cached? id = some t) {node : TypeDef} (found : g.types[id]? = some node) :
    (recipe direction id node).Describes g direction s t := by
  obtain ⟨node', found', hdesc⟩ := h.sound id t hc (h.idle ▸ List.not_mem_nil)
  cases found.symm.trans found'
  exact hdesc

theorem Grounded.sameTrees (h : SameTrees g s s' store store' depth)
    (complete : Complete g direction s store) (complete' : Complete g direction s' store')
    {id : Nat} (grounded : Grounded g direction id) {t t' : Ty} (hc : s.cached? id = some t)
    (hc' : s'.cached? id = some t') :
    unfold store (depth + 1) t = unfold store' (depth + 1) t' := by
  -- along the options and aliases that start at the node, at one depth
  induction grounded with
  | plain found plain =>
    exact describes_sameTrees h complete.holds complete'.holds plain (complete.describes hc found)
      (complete'.describes hc' found)
  | primitive found same =>
    have hdesc := complete.describes hc found
    have hdesc' := complete'.describes hc' found
    rw [same] at hdesc hdesc'
    cases hdesc
    cases hdesc'
    rfl
  | next found same denoted _ ih =>
    have hdesc := complete.describes hc found
    have hdesc' := complete'.describes hc' found
    rw [same] at hdesc hdesc'
    simp only [Recipe.Describes, Side.look?, denoted] at hdesc hdesc'
    exact ih hdesc hdesc'

theorem sameTrees (complete : Complete g direction s store)
    (complete' : Complete g direction s' store') (grounded : AllGrounded g direction s)
    (depth : Nat) : SameTrees g s s' store store' depth := by
  induction depth with
  | zero => exact fun _ _ _ _ _ => rfl
  | succ depth ih =>
    intro ref t t' hl hl'
    cases ref with
    | primitive p =>
      cases hl
      cases hl'
      rfl
    | node index =>
      cases hd : g.denoted index with
      | error e => simp [Side.look?, hd] at hl
      | ok id =>
        simp only [Side.look?, hd] at hl hl'
        exact (grounded id (by simp [hl])).sameTrees ih complete complete' hl hl'

end Equal

end WitSchema.Conversion
