import WitSchema.Proofs.Conversion.Identity
import WitSchema.Proofs.Conversion.Moves

/-! Each side keeps to its own types. Whatever has succeeded or failed, what is
cached on a side, and the fields of the aggregates of its nodes, are made of
scalars, lists and such aggregates. Hence nothing that is reached from there is
of the other direction, or required. -/

namespace WitSchema.Conversion

open GraphQL Wit Wit.Graph

structure Unmixed (g : Graph) (direction : Direction) (s : Side) : Prop where
  cached : ∀ {id t}, s.cached? id = some t → Houses g direction s t
  owned : ∀ {id index}, Makes g direction id → s.cached? id = some (.aggregate direction index) →
    ∃ a, s.aggregates[index]? = some a ∧ a.direction = direction ∧
      ∀ m ∈ a.fields, Houses g direction s m.2.type

section Sides

variable {g : Graph} {direction : Direction} {s s' : Side} {t : Ty}

theorem Houses.mono (h : Houses g direction s t) (entries : s.cache.entries <+: s'.cache.entries) :
    Houses g direction s' t := by
  induction h with
  | scalar x => exact .scalar x
  | list _ ih => exact .list ih
  | aggregate made cached => exact .aggregate made (cached?_of_isPrefix entries cached)

theorem unmixed_empty (g : Graph) (direction : Direction) : Unmixed g direction .empty where
  cached h := by cases h
  owned _ h := by cases h

theorem Unmixed.of_cache (h : Unmixed g direction s) (cache : s'.cache = s.cache)
    (aggregates : s.aggregates <+: s'.aggregates) : Unmixed g direction s' := by
  have entries : s.cache.entries <+: s'.cache.entries := cache ▸ List.prefix_rfl
  have same (id : Nat) : s'.cached? id = s.cached? id := by rw [Side.cached?, cache]; rfl
  constructor
  · intro id t there
    exact (h.cached (same id ▸ there)).mono entries
  · intro id index makes there
    obtain ⟨a, found, own, fields⟩ := h.owned makes (same id ▸ there)
    have kept := getElem?_of_isPrefix aggregates found
    exact ⟨a, kept, own, fun m field => (fields m field).mono entries⟩

theorem Unmixed.look (h : Unmixed g direction s) {ref : TypeRef} (looked : s.look? g ref = some t) :
    Houses g direction s t :=
  houses_of_look looked fun _ _ there => h.cached there

theorem Unmixed.hand (h : Unmixed g direction s) (hand : AtHand g direction s t) :
    Houses g direction s t := by
  induction hand with
  | scalar x => exact .scalar x
  | look looked => exact h.look looked
  | list _ ih => exact .list ih

theorem Unmixed.begin {index : Int} {id : Nat} {node : TypeDef} (h : Unmixed g direction s)
    (start : Starts g s index id node) : Unmixed g direction (begun direction s id node) := by
  have grows := @Starts.begin_grows g direction s index id node start
  have aggregates := grows.older _ (Nat.le_refl _) List.prefix_rfl
  have others {other : Nat} (h : other ≠ id) :
      (begun direction s id node).cached? other = s.cached? other := Recipe.cached?_begin_of_ne h _
  have self : (begun direction s id node).cached? id =
      if (recipe direction id node).isAggregate then some (.aggregate direction s.aggregates.length)
      else s.cached? id := Recipe.cached?_begin _
  constructor
  · intro other t there
    by_cases heq : other = id
    · subst heq
      cases aggregate : (recipe direction other node).isAggregate with
      | true =>
        rw [self, aggregate, if_pos rfl] at there
        cases there
        exact .aggregate ⟨node, start.found, aggregate⟩ (by rw [self, aggregate, if_pos rfl])
      | false =>
        rw [self, aggregate, if_neg Bool.false_ne_true, start.uncached] at there
        cases there
    · exact (h.cached (others heq ▸ there)).mono grows.entries
  · intro other place makes there
    by_cases heq : other = id
    · subst heq
      have aggregate := makes.recipe start.found
      rw [self, aggregate, if_pos rfl] at there
      cases there
      cases hr : recipe direction other node with
      | aggregate notices name docs slots =>
        refine ⟨⟨direction, name, docs, []⟩, ?_, rfl, fun m field => nomatch field⟩
        simp [begun, hr, Recipe.begin, Side.put, Side.allocate, Side.report, Side.enter]
      | _ => simp [hr, Recipe.isAggregate] at aggregate
    · obtain ⟨a, found, own, fields⟩ := h.owned makes (others heq ▸ there)
      exact ⟨a, getElem?_of_isPrefix aggregates found, own,
        fun m field => (fields m field).mono grows.entries⟩

theorem Unmixed.addField (h : Unmixed g direction s) (houses : Houses g direction s t) (index : Nat)
    (name : String) (docs : Json) : Unmixed g direction (s.addField index name ⟨t, docs⟩) := by
  have mono {u : Ty} (h : Houses g direction s u) :
      Houses g direction (s.addField index name ⟨t, docs⟩) u := h.mono List.prefix_rfl
  refine ⟨fun there => mono (h.cached there), fun {id place} makes there => ?_⟩
  obtain ⟨a, found, own, fields⟩ := h.owned makes there
  by_cases heq : index = place
  · subst heq
    refine ⟨{ a with fields := insertPair name ⟨t, docs⟩ a.fields }, ?_, own, fun m field => ?_⟩
    · simp [Side.addField, found]
    · rcases mem_of_mem_insertPair field with rfl | old
      · exact mono houses
      · exact mono (fields m old)
  · exact ⟨a, by simp [Side.addField, heq, found], own, fun m field => mono (fields m field)⟩

theorem Unmixed.put {id : Nat} (h : Unmixed g direction s) (uncached : s.cached? id = none)
    (other : ¬ Makes g direction id) (houses : Houses g direction s t) :
    Unmixed g direction (s.put id t) := by
  have mono {u : Ty} (h : Houses g direction s u) : Houses g direction (s.put id t) u :=
    h.mono (isPrefix_entries_put (.inl uncached))
  constructor
  · intro a u there
    by_cases heq : a = id
    · subst heq
      rw [cached?_put_self] at there
      cases there
      exact mono houses
    · rw [cached?_put_of_ne heq] at there
      exact mono (h.cached there)
  · intro a index makes there
    have apart : a ≠ id := fun same => other (same ▸ makes)
    rw [cached?_put_of_ne apart] at there
    obtain ⟨found, stored, own, fields⟩ := h.owned makes there
    exact ⟨found, stored, own, fun m field => mono (fields m field)⟩

theorem Unmixed.move {failed : Bool} (move : Move g direction failed s s')
    (h : Unmixed g direction s) : Unmixed g direction s' := by
  cases move with
  | begin start => exact h.begin start
  | addField index name docs hand => exact h.addField (h.hand hand) index name docs
  | newList item => exact h.of_cache rfl List.prefix_rfl
  | cut id ts => exact h.of_cache rfl List.prefix_rfl
  | @finish _ _ outer id t busy cached =>
    have left : Unmixed g direction s.leave := h.of_cache rfl List.prefix_rfl
    rcases cached with there | ⟨uncached, other, hand⟩
    · rwa [put_of_cached (s := s.leave) there]
    · exact left.put uncached other (left.hand (hand.of_cache rfl))
  | refuse => exact h.of_cache rfl List.prefix_rfl
  | leave => exact h.of_cache rfl List.prefix_rfl

theorem Unmixed.convert (h : Unmixed g direction s) (ref : TypeRef) :
    Unmixed g direction (s.convert g direction ref).1 :=
  (convert_moves s ref).keeps Unmixed.move h

theorem Unmixed.within {outer inner : Call} (h : Unmixed g direction outer.1)
    (within : Within g direction outer inner) : Unmixed g direction inner.1 := by
  induction within with
  | refl => exact h
  | tail _ nests ih => exact nests.moves.keeps Unmixed.move ih

end Sides

section Contained

variable {g : Graph} {direction : Direction} {c : Converter} {t u : Ty}

theorem Houses.contains (unmixed : Unmixed g direction (c.side direction))
    (h : Houses g direction (c.side direction) t) (contains : t.Contains c.store u) :
    Houses g direction (c.side direction) u := by
  induction contains with
  | self t => exact h
  | item _ ih =>
    cases h with
    | list inner => exact ih inner
  | nonNull => cases h
  | @field own index a m u found field _ ih =>
    cases h with
    | aggregate made cached =>
      obtain ⟨a', found', -, fields⟩ := unmixed.owned made cached
      rw [c.holds_store direction index] at found
      cases found.symm.trans found'
      exact ih (fields m field)

end Contained

end WitSchema.Conversion
