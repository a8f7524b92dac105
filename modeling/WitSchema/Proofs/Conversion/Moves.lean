import WitSchema.Proofs.Conversion.Failure
import WitSchema.Proofs.Conversion.Equation

/-! Conversion as a sequence of moves. A move starts to build a node, fills a
member in, numbers a list, or ends a construction; a conversion that fails also
leaves the nodes that it was building. What each move keeps, every conversion
keeps, from its start up to each conversion nested in it and up to its end. -/

namespace WitSchema.Conversion

open GraphQL Wit Wit.Graph

inductive AtHand (g : Graph) (direction : Direction) (s : Side) : Ty → Prop
  | scalar (x) : AtHand g direction s (.scalar x)
  | look {ref t} (looked : s.look? g ref = some t) : AtHand g direction s t
  | list {serial item} (inner : AtHand g direction s item) :
      AtHand g direction s (.list direction serial item)

/-- What a conversion does to its side at a time; only one that fails makes the last two moves. -/
inductive Move (g : Graph) (direction : Direction) : Bool → Side → Side → Prop
  | begin {failed s index id node} (start : Starts g s index id node)
      (followed : (recipe direction id node).isRefusal = false) :
      Move g direction failed s (begun direction s id node)
  | addField {failed s t} (index name docs) (hand : AtHand g direction s t) :
      Move g direction failed s (s.addField index name ⟨t, docs⟩)
  | newList {failed s} (item) : Move g direction failed s (s.newList direction item).1
  | cut {failed s} (id ts) : Move g direction failed s (s.report (tupleNotices id ts))
  | finish {failed s outer id t} (busy : s.building = outer ++ [id])
      (cached : s.cached? id = some t ∨
        s.cached? id = none ∧ ¬ Makes g direction id ∧ AtHand g direction s t) :
      Move g direction failed s (s.leave.put id t)
  | refuse {s index id node notices e} (start : Starts g s index id node)
      (refused : recipe direction id node = .refuse notices e) :
      Move g direction true s ((s.enter direction id node.name).report notices)
  | leave {s outer id} (busy : s.building = outer ++ [id])
      (kept : Makes g direction id → (s.cached? id).isSome = true) :
      Move g direction true s s.leave

def Moves (g : Graph) (direction : Direction) (failed : Bool) : Side → Side → Prop :=
  Relation.ReflTransGen (Move g direction failed)

def isError {τ : Type} : Except Error τ → Bool
  | .error _ => true
  | .ok _ => false

section Moves

variable {g : Graph} {direction : Direction} {failed : Bool} {s s' s'' : Side}

theorem Move.mono (h : Move g direction false s s') : Move g direction failed s s' := by
  cases h with
  | begin start followed => exact .begin start followed
  | addField index name docs hand => exact .addField index name docs hand
  | newList item => exact .newList item
  | cut id ts => exact .cut id ts
  | finish busy cached => exact .finish busy cached

theorem Moves.mono (h : Moves g direction false s s') : Moves g direction failed s s' :=
  Relation.ReflTransGen.mono (fun _ _ h => Move.mono h) _ _ h

theorem Moves.keeps {P : Side → Prop}
    (move : ∀ {s s'}, Move g direction failed s s' → P s → P s')
    (h : Moves g direction failed s s') (start : P s) : P s' := by
  induction h with
  | refl => exact start
  | tail _ last ih => exact move last ih

end Moves

theorem AtHand.of_cache {g : Graph} {direction : Direction} {s s' : Side} {t : Ty}
    (h : AtHand g direction s t) (hc : s'.cache = s.cache) : AtHand g direction s' t := by
  induction h with
  | scalar x => exact .scalar x
  | @look ref t looked =>
    rw [← look?_congr hc] at looked
    exact .look looked
  | list _ ih => exact .list ih

section Nested

variable {g : Graph} {direction : Direction} {s : Side}

def MovesAlong (g : Graph) (direction : Direction) (c : Call) : Prop :=
  Moves g direction (isError (c.1.convert g direction c.2).2) c.1 (c.1.convert g direction c.2).1

theorem fill_moves {index : Nat} {slots : List Slot}
    (calls : ∀ c ∈ fillCalls (Side.convert g direction) index s slots, MovesAlong g direction c) :
    Moves g direction (isError (fill (Side.convert g direction) index s slots).2) s
      (fill (Side.convert g direction) index s slots).1 := by
  induction slots generalizing s with
  | nil => exact .refl
  | cons slot rest ih =>
    cases ht : slot.type with
    | none =>
      simp only [fillCalls, ht] at calls
      simp only [fill, ht]
      exact .head (.addField index slot.name slot.docs (.scalar slot.fallback)) (ih calls)
    | some ref =>
      simp only [fillCalls, ht, List.forall_mem_cons] at calls
      obtain ⟨call, later⟩ := calls
      simp only [fill, ht]
      rcases hc : s.convert g direction ref with ⟨s₁, e | t⟩
      · rw [MovesAlong, hc] at call
        exact call
      · rw [MovesAlong, hc] at call
        simp only [hc] at later
        have hand : AtHand g direction s₁ t := .look (look?_of_convert hc)
        exact call.mono.trans (.head (.addField index slot.name slot.docs hand) (ih later))

theorem convertAll_moves {refs : List TypeRef}
    (calls : ∀ c ∈ allCalls (Side.convert g direction) s refs, MovesAlong g direction c) :
    Moves g direction (isError (convertAll (Side.convert g direction) s refs).2) s
      (convertAll (Side.convert g direction) s refs).1 := by
  induction refs generalizing s with
  | nil => exact .refl
  | cons ref rest ih =>
    simp only [allCalls, List.forall_mem_cons] at calls
    obtain ⟨call, later⟩ := calls
    simp only [convertAll]
    rcases hc : s.convert g direction ref with ⟨s₁, e | t⟩
    · rw [MovesAlong, hc] at call
      exact call
    · rw [MovesAlong, hc] at call
      simp only [hc] at later
      have tail := ih later
      rcases hr : convertAll (Side.convert g direction) s₁ rest with ⟨s₂, e | ts⟩
      · rw [hr] at tail
        simp only [hr]
        exact call.mono.trans tail
      · rw [hr] at tail
        simp only [hr]
        exact call.mono.trans tail

theorem Recipe.build_hand {id : Nat} {r : Recipe} (hr : r.isAggregate = false) {s' : Side} {t : Ty}
    (h : r.build (Side.convert g direction) direction id s = (s', .ok t)) :
    AtHand g direction s' t := by
  cases r with
  | refuse => simp [Recipe.build] at h
  | scalar x =>
    cases h
    exact .scalar x
  | same ref => exact .look (look?_of_convert h)
  | listOf ref =>
    simp only [Recipe.build] at h
    rcases hc : s.convert g direction ref with ⟨s₁, e | item⟩
    · simp [hc] at h
    · have hand : AtHand g direction s₁ item := .look (look?_of_convert hc)
      simp only [hc, Prod.mk.injEq, Except.ok.injEq] at h
      obtain ⟨rfl, rfl⟩ := h
      exact .list (hand.of_cache rfl)
  | tupleOf refs =>
    simp only [Recipe.build] at h
    rcases hc : convertAll (Side.convert g direction) s refs with ⟨s₁, e | items⟩
    · simp [hc] at h
    · have hand : AtHand g direction s₁ (items.head?.getD (.scalar .string)) := by
        cases items with
        | nil => exact .scalar .string
        | cons item rest =>
          obtain ⟨ref, _, _, looked, _⟩ := List.map_eq_cons_iff.mp (convertAll_looked hc)
          exact .look looked
      simp only [hc, Prod.mk.injEq, Except.ok.injEq] at h
      obtain ⟨rfl, rfl⟩ := h
      exact .list (hand.of_cache rfl)
  | aggregate => cases hr

theorem Recipe.build_moves {id : Nat} {r : Recipe} (hr : r.isRefusal = false)
    (calls : ∀ c ∈ r.calls (Side.convert g direction) direction id s, MovesAlong g direction c) :
    Moves g direction (isError (r.build (Side.convert g direction) direction id s).2)
      (r.begin direction id s) (r.build (Side.convert g direction) direction id s).1 := by
  cases r with
  | refuse => cases hr
  | scalar x => exact .refl
  | same ref => exact calls _ (List.mem_singleton_self _)
  | listOf ref =>
    have call := calls _ (List.mem_singleton_self _)
    simp only [Recipe.build]
    rcases hc : s.convert g direction ref with ⟨s₁, e | t⟩
    · rw [MovesAlong, hc] at call
      exact call
    · rw [MovesAlong, hc] at call
      exact call.tail (.newList t)
  | tupleOf refs =>
    have all := convertAll_moves calls
    simp only [Recipe.build]
    rcases hc : convertAll (Side.convert g direction) s refs with ⟨s₁, e | ts⟩
    · rw [hc] at all
      exact all
    · rw [hc] at all
      exact (all.tail (.cut id ts)).tail (.newList (ts.head?.getD (.scalar .string)))
  | aggregate notices name docs slots =>
    have all := fill_moves calls
    simp only [Recipe.begin] at all
    simp only [Recipe.build]
    rcases hc : fill (Side.convert g direction) s.aggregates.length
      (((s.report notices).allocate ⟨direction, name, docs, []⟩).put id
        (.aggregate direction s.aggregates.length)) slots with ⟨s₁, e | u⟩
    · rw [hc] at all
      exact all
    · rw [hc] at all
      exact all

theorem convert_moves (s : Side) (ref : TypeRef) : MovesAlong g direction (s, ref) := by
  refine convert_induction
    (P := fun s _ res => Moves g direction (isError res.2) s res.1) ?_ ?_ ?_ ?_ ?_ s ref
  · exact fun s p => .refl
  · exact fun s index e _ => .refl
  · exact fun s index id t _ _ => .refl
  · exact fun s index id _ _ _ => .refl
  · intro s index id node start ih
    have busy := @constructed_building g direction s id node
    by_cases hr : (recipe direction id node).isRefusal = false
    · have built : Moves g direction (isError (constructed g direction s id node).2)
          (begun direction s id node) (constructed g direction s id node).1 :=
        Recipe.build_moves hr fun c call => ih c.1 c.2 (call_building call)
      have cached := @Starts.cached?_constructed g direction s index id node start
      rcases result : constructed g direction s id node with ⟨s₁, e | t⟩
      · rw [result] at built busy cached
        refine .head (.begin start hr) (built.tail (.leave busy fun makes => ?_))
        rw [cached, makes.recipe start.found, if_pos rfl]
        rfl
      · rw [result] at built busy cached
        refine .head (.begin start hr) (built.tail (.finish busy ?_))
        -- an aggregate is in the cache since it was begun, any other type is put there now
        cases aggregate : (recipe direction id node).isAggregate with
        | true =>
          rw [aggregate, if_pos rfl, ← constructed_aggregate aggregate result] at cached
          exact .inl cached
        | false =>
          rw [aggregate, if_neg Bool.false_ne_true] at cached
          refine .inr ⟨cached, fun makes => ?_, Recipe.build_hand aggregate result⟩
          rw [makes.recipe start.found] at aggregate
          cases aggregate
    · cases hrec : recipe direction id node with
      | refuse notices e =>
        rw [constructed, hrec] at busy ⊢
        refine .head (.refuse start hrec) (.single (.leave busy fun makes => ?_))
        have made := makes.recipe start.found
        rw [hrec] at made
        cases made
      | _ => simp [hrec, Recipe.isRefusal] at hr

/-- A conversion that another one makes on the way starts from a state that the moves of the other
one come to. -/
theorem Nests.moves {outer inner : Call} (h : Nests g direction outer inner) :
    Moves g direction false outer.1 inner.1 := by
  obtain ⟨index, id, node, _, start, call⟩ := h
  refine .head (.begin start (not_refusal_of_call call)) ?_
  unfold begun
  cases hr : recipe direction id node with
  | refuse notices e => simp [hr, Recipe.calls] at call
  | scalar x => simp [hr, Recipe.calls] at call
  | same ref | listOf ref =>
    rw [hr] at call
    cases List.mem_singleton.mp call
    exact .refl
  | tupleOf refs =>
    rw [hr] at call
    obtain ⟨before, after, ts, _, all⟩ := convertAll_before_call call
    have moves := @convertAll_moves g direction (outer.1.enter direction id node.name) before
      fun c _ => convert_moves c.1 c.2
    rw [all] at moves
    exact moves
  | aggregate notices name docs slots =>
    rw [hr] at call
    obtain ⟨before, slot, after, _, _, filled⟩ := fill_before_call call
    have moves := @fill_moves g direction
      ((Recipe.aggregate notices name docs slots).begin direction id
        (outer.1.enter direction id node.name))
      (outer.1.enter direction id node.name).aggregates.length before
      fun c _ => convert_moves c.1 c.2
    rw [filled] at moves
    exact moves

end Nested

end WitSchema.Conversion
