import WitSchema.Proofs.Conversion.Nesting

/-! What holds of a cache from the first conversion on, and which aggregate
belongs to which node. A construction touches the cache when it starts and when
it has come to its end. What is kept at these two points is kept by every
conversion, one that fails included, and holds wherever a nested conversion
starts. So a node whose recipe is an aggregate is cached under an aggregate that
exists, and no other such node has the same. -/

namespace WitSchema.Conversion

open GraphQL Wit Wit.Graph

/-- The statement speaks of the cache and of aggregates that there are at least, and it is kept at
the start and at the end of every construction. -/
structure Lasting (g : Graph) (direction : Direction) (P : Side → Prop) : Prop where
  empty : P .empty
  of_cache : ∀ {s s'}, P s → s'.cache = s.cache → s.aggregates.length ≤ s'.aggregates.length → P s'
  begun : ∀ {s index id node}, Starts g s index id node → P s → P (begun direction s id node)
  finish : ∀ {s index id node s' t}, Starts g s index id node →
    constructed g direction s id node = (s', .ok t) → P s' → P (s'.put id t)

namespace Lasting

variable {g : Graph} {direction : Direction} {P : Side → Prop} {s : Side} {index : Int} {id : Nat}
  {node : TypeDef}

theorem tidy {n : Nat} {s' : Side} (h : Lasting g direction P) (tidy : Tidy n s s')
    (start : P s) : P s' := h.of_cache start tidy.cache tidy.size

theorem built (h : Lasting g direction P)
    (converts : ∀ s' ref, s'.building = s.building ++ [id] → P s' →
      P (s'.convert g direction ref).1)
    (starts : Starts g s index id node) (start : P s) :
    P (constructed g direction s id node).1 := by
  by_cases hr : (recipe direction id node).isRefusal = false
  · exact (constructed_pass hr).preserves (convert_building g direction) (fun _ _ => h.tidy)
      converts (begun_building ..) (h.begun starts start)
  · unfold constructed
    cases hrec : recipe direction id node with
    | refuse notices e => exact h.of_cache start rfl (Nat.le_refl _)
    | _ => simp [hrec, Recipe.isRefusal] at hr

theorem convert (h : Lasting g direction P) (s : Side) (ref : TypeRef) (start : P s) :
    P (s.convert g direction ref).1 := by
  refine convert_induction (P := fun s _ res => P s → P res.1) ?_ ?_ ?_ ?_ ?_ s ref start
  · exact fun s p start => start
  · exact fun s index e _ start => start
  · exact fun s index id t _ _ start => start
  · exact fun s index id _ _ _ start => start
  · intro s index id node starts ih start
    have built := h.built ih starts start
    rcases result : constructed g direction s id node with ⟨s', e | t⟩
    · rw [result] at built
      exact h.of_cache built rfl (Nat.le_refl _)
    · rw [result] at built
      exact h.of_cache (h.finish starts result built) rfl (Nat.le_refl _)

theorem call (h : Lasting g direction P) (starts : Starts g s index id node) {c : Call}
    (call : c ∈ (recipe direction id node).calls (Side.convert g direction) direction id
      (s.enter direction id node.name)) (start : P s) : P c.1 := by
  obtain ⟨before, after, _, pass⟩ := Recipe.mem_calls call
  exact pass.preserves (convert_building g direction) (fun _ _ => h.tidy)
    (fun s ref _ => h.convert s ref) (begun_building direction s id node) (h.begun starts start)

theorem nests (h : Lasting g direction P) {outer inner : Call} (start : P outer.1)
    (nests : Nests g direction outer inner) : P inner.1 := by
  obtain ⟨index, id, node, _, starts, call⟩ := nests
  exact h.call starts call start

end Lasting

open GraphQL Wit Wit.Graph

def Makes (g : Graph) (direction : Direction) (id : Nat) : Prop :=
  ∃ node, g.types[id]? = some node ∧ (recipe direction id node).isAggregate = true

/-- The types of the nodes that own them have numbers below a bound, and no two nodes have the same
number. -/
structure Tallied (owns : Nat → Prop) (number : Ty → Nat → Prop) (bound : Nat) (s : Side) :
    Prop where
  below : ∀ {a t n}, owns a → s.cached? a = some t → number t n → n < bound
  unique : ∀ {a b t t' n}, owns a → owns b → s.cached? a = some t → s.cached? b = some t' →
    number t n → number t' n → a = b

section Tallied

variable {owns : Nat → Prop} {number : Ty → Nat → Prop} {bound bound' : Nat} {s s' : Side}
  {id : Nat} {t : Ty}

theorem Tallied.of_cache (h : Tallied owns number bound s) (hc : s'.cache = s.cache)
    (hb : bound ≤ bound') : Tallied owns number bound' s' := by
  have hcached (id : Nat) : s'.cached? id = s.cached? id := by rw [Side.cached?, hc]; rfl
  exact
    { below := fun ha hta hn => Nat.lt_of_lt_of_le (h.below ha (hcached _ ▸ hta) hn) hb
      unique := fun ha hb hta htb => h.unique ha hb (hcached _ ▸ hta) (hcached _ ▸ htb) }

theorem Tallied.put_other (h : Tallied owns number bound s) (hid : ¬ owns id) (t : Ty) :
    Tallied owns number bound (s.put id t) := by
  have hcached {a : Nat} (ha : owns a) : (s.put id t).cached? a = s.cached? a :=
    cached?_put_of_ne (fun heq : a = id => hid (heq ▸ ha)) s t
  exact
    { below := fun ha hta => h.below ha (hcached ha ▸ hta)
      unique := fun ha hb hta htb => h.unique ha hb (hcached ha ▸ hta) (hcached hb ▸ htb) }

theorem Tallied.put_next (h : Tallied owns number bound s) (next : ∀ n, number t n → n = bound)
    (id : Nat) : Tallied owns number (bound + 1) (s.put id t) := by
  have hold {a : Nat} {u : Ty} (ha : a ≠ id) (hu : (s.put id t).cached? a = some u) :
      s.cached? a = some u := by rwa [cached?_put_of_ne ha] at hu
  have hnew {n : Nat} {u : Ty} (hu : (s.put id t).cached? id = some u) (hn : number u n) :
      n = bound := by
    rw [cached?_put_self] at hu
    cases hu
    exact next n hn
  constructor
  · intro a u n ha hu hn
    by_cases heq : a = id
    · subst heq
      exact Nat.lt_succ_of_le (Nat.le_of_eq (hnew hu hn))
    · exact Nat.lt_succ_of_lt (h.below ha (hold heq hu) hn)
  · intro a b u u' n ha hb hua hub hna hnb
    by_cases heqa : a = id
    · by_cases heqb : b = id
      · exact heqa.trans heqb.symm
      · subst heqa
        have hlt := h.below hb (hold heqb hub) hnb
        exact (Nat.ne_of_lt hlt (hnew hua hna)).elim
    · by_cases heqb : b = id
      · subst heqb
        have hlt := h.below ha (hold heqa hua) hna
        exact (Nat.ne_of_lt hlt (hnew hub hnb)).elim
      · exact h.unique ha hb (hold heqa hua) (hold heqb hub) hna hnb

end Tallied

/-- An option or an alias may be cached under an aggregate as well, but it belongs to the node that
makes it. -/
structure Owned (g : Graph) (direction : Direction) (s : Side) : Prop where
  exists_of_makes : ∀ {id index}, Makes g direction id →
    s.cached? id = some (.aggregate direction index) → index < s.aggregates.length
  unique : ∀ {a b index}, Makes g direction a → Makes g direction b →
    s.cached? a = some (.aggregate direction index) →
    s.cached? b = some (.aggregate direction index) → a = b

section Owned

variable {g : Graph} {direction : Direction} {s s' : Side} {id : Nat}

theorem owned_empty (g : Graph) (direction : Direction) : Owned g direction .empty :=
  { exists_of_makes := fun _ h => by cases h
    unique := fun _ _ h => by cases h }

theorem owned_iff_tallied : Owned g direction s ↔
    Tallied (Makes g direction) (fun t n => t = .aggregate direction n) s.aggregates.length s := by
  constructor
  · intro h
    refine ⟨fun ha hta hn => ?_, fun ha hb hta htb hna hnb => ?_⟩
    · exact h.exists_of_makes ha (hn ▸ hta)
    · exact h.unique ha hb (hna ▸ hta) (hnb ▸ htb)
  · intro h
    exact ⟨fun ha hta => h.below ha hta rfl, fun ha hb hta htb => h.unique ha hb hta htb rfl rfl⟩

theorem Owned.of_cache (h : Owned g direction s) (hc : s'.cache = s.cache)
    (hs : s.aggregates.length ≤ s'.aggregates.length) : Owned g direction s' :=
  owned_iff_tallied.mpr ((owned_iff_tallied.mp h).of_cache hc hs)

theorem Owned.put (h : Owned g direction s) (hid : ¬ Makes g direction id) (t : Ty) :
    Owned g direction (s.put id t) :=
  owned_iff_tallied.mpr ((owned_iff_tallied.mp h).put_other hid t)

theorem Owned.allocate (h : Owned g direction s) (a : Aggregate) :
    Owned g direction ((s.allocate a).put id (.aggregate direction s.aggregates.length)) := by
  have hlen : (s.allocate a).aggregates.length = s.aggregates.length + 1 := by
    simp [Side.allocate]
  have hallocated : Tallied (Makes g direction) (fun t n => t = .aggregate direction n)
      s.aggregates.length (s.allocate a) := (owned_iff_tallied.mp h).of_cache rfl (Nat.le_refl _)
  refine owned_iff_tallied.mpr ?_
  have hnext := hallocated.put_next (t := .aggregate direction s.aggregates.length)
    (fun n hn => (Ty.aggregate.inj hn).2.symm) id
  rwa [← hlen] at hnext

theorem Owned.begin (h : Owned g direction s) (id : Nat) (r : Recipe) :
    Owned g direction (r.begin direction id s) := by
  cases r with
  | aggregate notices name docs slots =>
    have hreport : Owned g direction (s.report notices) := h.of_cache rfl (Nat.le_refl _)
    exact hreport.allocate _
  | _ => exact h

end Owned

theorem Makes.recipe {g : Graph} {direction : Direction} {id : Nat} {node : TypeDef}
    (h : Makes g direction id) (found : g.types[id]? = some node) :
    (recipe direction id node).isAggregate = true := by
  obtain ⟨node', found', hagg⟩ := h
  cases found.symm.trans found'
  exact hagg

theorem lasting_owned (g : Graph) (direction : Direction) :
    Lasting g direction (Owned g direction) where
  empty := owned_empty g direction
  of_cache h same size := h.of_cache same size
  begun {s index id node} _ h :=
    Owned.begin (s := s.enter direction id node.name) (h.of_cache rfl (Nat.le_refl _)) id _
  finish {s index id node s' t} start built h := by
    cases aggregate : (recipe direction id node).isAggregate with
    | true => rwa [start.put_constructed aggregate built]
    | false =>
      refine h.put (fun makes => ?_) t
      rw [makes.recipe start.found] at aggregate
      cases aggregate

theorem convert_owned {g : Graph} {direction : Direction} (s : Side) (ref : TypeRef) :
    Owned g direction s → Owned g direction (s.convert g direction ref).1 :=
  (lasting_owned g direction).convert s ref

end WitSchema.Conversion
