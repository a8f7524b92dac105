import WitSchema.Proofs.Conversion.Identity
import WitSchema.Proofs.Conversion.Moves
import WitSchema.Proofs.Conversion.Traversal

/-! What is reported, counted. Every node that a side has met has been started
once: the records of its start, less the records before, make up for the nodes
that have been met in between. A conversion that succeeds keeps this account
for every node, one that fails keeps it for aggregates, which stay in the cache. -/

namespace WitSchema

open GraphQL

namespace Wit

/-- The case has a payload that is left out, because the member would be called `type`. -/
def Case.isHidden (c : Case) : Bool := c.payload.isSome && Name.camel c.name.text == "type"

def Kind.hidden : Kind → List Case
  | .variant cases => cases.filter Case.isHidden
  | _ => []

end Wit

namespace Notice

def isStartOf (direction : Direction) (id : Nat) : Notice → Bool
  | .converting toward other _ => toward = direction && other == id
  | _ => false

def isHiddenIn (id : Nat) : Notice → Bool
  | .hiddenCase other _ => other == id
  | _ => false

end Notice

namespace Conversion

open Wit Wit.Graph

section Warnings

variable {id : Nat} {cases : List Case} {notices : List Notice}

theorem caseSlots_notices {name : Json} {slots : List Slot}
    (h : caseSlots id name cases = (notices, .ok slots)) :
    notices = (cases.filter Case.isHidden).map fun _ => .hiddenCase id name := by
  induction cases generalizing notices slots with
  | nil =>
    cases h
    rfl
  | cons c rest ih =>
    unfold caseSlots at h
    cases hp : c.payload with
    | none =>
      have shown : c.isHidden = false := by simp [Case.isHidden, hp]
      simp only [hp] at h
      rw [List.filter_cons_of_neg (by simp [shown]), ih h]
    | some ref =>
      simp only [hp] at h
      cases hn : camelOf c.name with
      | error e => simp [hn] at h
      | ok own =>
        have spelled := camelOf_ok hn
        rcases hr : caseSlots id name rest with ⟨later, e | others⟩
        · simp only [hn, hr] at h
          split at h <;> simp [Except.map] at h
        · simp only [hn, hr] at h
          by_cases ht : own = discriminator.name
          · have hidden : c.isHidden = true := by
              simp [Case.isHidden, hp, ← spelled, ht, discriminator]
            rw [if_pos ht] at h
            cases h
            rw [List.filter_cons_of_pos hidden, List.map_cons, ih hr]
          · have shown : c.isHidden = false := by
              have : ¬ own = "type" := ht
              simp [Case.isHidden, ← spelled, this]
            rw [if_neg ht] at h
            cases h
            rw [List.filter_cons_of_neg (by simp [shown]), ih hr]

theorem caseSlots_warns (id : Nat) (name : Json) (cases : List Case) :
    ∀ n ∈ (caseSlots id name cases).1, n = .hiddenCase id name := by
  induction cases with
  | nil => exact List.forall_mem_nil _
  | cons c rest ih =>
    unfold caseSlots
    cases c.payload with
    | none => exact ih
    | some ref =>
      cases camelOf c.name with
      | error e => exact List.forall_mem_nil _
      | ok own =>
        dsimp only
        split
        · exact List.forall_mem_cons.mpr ⟨rfl, ih⟩
        · exact ih

end Warnings

section Recipes

variable {direction : Direction} {id : Nat} {node : TypeDef}

def Recipe.reported : Recipe → List Notice
  | .refuse notices _ | .aggregate notices .. => notices
  | _ => []

theorem named_reported (notices : List Notice) (name : String) (docs : Json) (slots : List Slot) :
    (Recipe.named notices name docs slots).reported = notices := by
  rcases named_cases notices name docs slots with ⟨e, same, -⟩ | same
  · rw [same, Recipe.reported]
  · rw [same, Recipe.reported]

theorem recipe_warns : ∀ n ∈ (recipe direction id node).reported, n = .hiddenCase id node.name := by
  have none : ∀ n ∈ ([] : List Notice), n = .hiddenCase id node.name := List.forall_mem_nil _
  unfold recipe
  cases hk : node.kind with
  | record fields =>
    simp only [recordRecipe]
    cases recordParts direction id node.name fields with
    | error e => exact none
    | ok parts =>
      simp only [named_reported]
      exact none
  | variant cases =>
    have warns := caseSlots_warns id node.name cases
    simp only [variantRecipe]
    cases aggregateName direction "Variant" id node.name with
    | error e => exact none
    | ok name =>
      rcases hs : caseSlots id node.name cases with ⟨own, e | slots⟩
      · rw [hs] at warns
        exact warns
      · rw [hs] at warns
        simp only [named_reported]
        exact warns
  | result ok err =>
    simp only [named_reported]
    exact none
  | «alias» target => cases target <;> exact none
  | _ => exact none

/-- A node that is not refused is begun with one warning for each case that is left out. -/
theorem recipe_reported (hr : (recipe direction id node).isRefusal = false) :
    (recipe direction id node).reported =
      node.kind.hidden.map fun _ => .hiddenCase id node.name := by
  unfold recipe at hr ⊢
  cases hk : node.kind with
  | record fields =>
    simp only [hk, recordRecipe] at hr ⊢
    cases hp : recordParts direction id node.name fields with
    | error e => simp [hp, Recipe.isRefusal] at hr
    | ok parts => exact named_reported ..
  | variant cases =>
    simp only [hk, variantRecipe] at hr ⊢
    cases hn : aggregateName direction "Variant" id node.name with
    | error e => simp [hn, Recipe.isRefusal] at hr
    | ok name =>
      rcases hs : caseSlots id node.name cases with ⟨notices, e | slots⟩
      · simp [hn, hs, Recipe.isRefusal] at hr
      · simp only [named_reported, Kind.hidden]
        exact caseSlots_notices hs
  | result ok err => exact named_reported ..
  | «alias» target => cases target <;> rfl
  | _ => rfl

theorem begun_notices {s : Side} (hr : (recipe direction id node).isRefusal = false) :
    (begun direction s id node).notices =
      s.notices ++ .converting direction id node.name :: (recipe direction id node).reported := by
  unfold begun
  cases hrec : recipe direction id node with
  | refuse => simp [hrec, Recipe.isRefusal] at hr
  | aggregate notices name docs slots => exact List.append_assoc ..
  | _ => rfl

end Recipes

section Balance

variable {g : Graph} {direction : Direction} {id : Nat} {p : Notice → Bool} {w : Nat}
  {failed : Bool} {s s' s'' : Side}

def Side.met (s : Side) : List Nat := s.cache.keys ++ s.building

theorem mem_met {a : Nat} : a ∈ s.met ↔ (s.cached? a).isSome = true ∨ a ∈ s.building := by
  rw [Side.met, List.mem_append, isSome_cached_iff]

theorem mem_met_begun {a : Nat} {node : TypeDef} :
    a ∈ (begun direction s id node).met ↔ a ∈ s.met ∨ a = id := by
  have seen : Seen s s.met := fun _ => mem_met
  have begun : Seen (begun direction s id node) (s.met ++ [id]) := seen.begun
  rw [mem_met, ← begun a, List.mem_append, List.mem_singleton]

theorem Starts.not_met {index : Int} {node : TypeDef} (start : Starts g s index id node) :
    id ∉ s.met := by
  rw [mem_met, start.uncached]
  exact fun h => h.elim (fun cached => nomatch cached) start.idle

/-- The start of the node is reported with so many notices of the kind, and nothing else is. -/
structure Counts (g : Graph) (direction : Direction) (id : Nat) (p : Notice → Bool) (w : Nat) :
    Prop where
  start : ∀ {other node}, g.types[other]? = some node →
    (.converting direction other node.name :: (recipe direction other node).reported).countP p =
      if other = id then w else 0
  cut : ∀ other ts, (tupleNotices other ts).countP p = 0

theorem countP_warnings {node : TypeDef} (none : ∀ name, p (.hiddenCase id name) = false) :
    (recipe direction id node).reported.countP p = 0 := by
  refine List.countP_eq_zero.mpr fun n there => ?_
  rw [recipe_warns n there, none]
  exact Bool.false_ne_true

theorem countP_cut (none : ∀ other types, p (.tupleCut other types) = false) (other : Nat)
    (ts : List Ty) : (tupleNotices other ts).countP p = 0 := by
  refine List.countP_eq_zero.mpr fun n there => ?_
  unfold tupleNotices at there
  split at there
  · rw [List.mem_singleton.mp there, none]
    exact Bool.false_ne_true
  · cases there

theorem counts_start (g : Graph) (direction : Direction) (id : Nat) :
    Counts g direction id (Notice.isStartOf direction id) 1 where
  start {other node} _ := by
    rw [List.countP_cons, countP_warnings fun _ => rfl]
    simp [Notice.isStartOf]
  cut := countP_cut fun _ _ => rfl

theorem counts_hidden {node : TypeDef} (found : g.types[id]? = some node) :
    Counts g direction id (Notice.isHiddenIn id) (recipe direction id node).reported.length where
  start {other node'} found' := by
    rw [List.countP_cons_of_neg (by simp [Notice.isHiddenIn])]
    by_cases same : other = id
    · subst same
      cases found.symm.trans found'
      rw [if_pos rfl, List.countP_eq_length]
      intro n there
      rw [recipe_warns n there]
      simp [Notice.isHiddenIn]
    · rw [if_neg same, countP_warnings]
      simp [Notice.isHiddenIn, same]
  cut := countP_cut fun _ _ => rfl

/-- The notices in between make up for the node, if it has been met in between. -/
def Balanced (p : Notice → Bool) (w id : Nat) (s s' : Side) : Prop :=
  s'.notices.countP p + (if id ∈ s.met then w else 0) =
    s.notices.countP p + if id ∈ s'.met then w else 0

theorem Balanced.trans (h : Balanced p w id s s') (h' : Balanced p w id s' s'') :
    Balanced p w id s s'' := by
  unfold Balanced at h h' ⊢
  omega

theorem balanced_of_met (notices : s'.notices.countP p = s.notices.countP p)
    (met : id ∈ s'.met ↔ id ∈ s.met) : Balanced p w id s s' := by
  simp only [Balanced, notices, met]

theorem Move.balanced (counts : Counts g direction id p w)
    (failing : failed = true → Makes g direction id) (move : Move g direction failed s s') :
    Balanced p w id s s' := by
  -- a start adds to the notices what it adds to the nodes met
  have starts {s s' : Side} {index : Int} {other : Nat} {node : TypeDef}
      (start : Starts g s index other node) (notices : s'.notices = s.notices ++
        .converting direction other node.name :: (recipe direction other node).reported)
      (met : id ∈ s'.met ↔ id ∈ s.met ∨ id = other) : Balanced p w id s s' := by
    rw [Balanced, notices, List.countP_append, counts.start start.found]
    by_cases same : other = id
    · subst same
      simp [met, start.not_met]
    · simp [met, same, Ne.symm same]
  cases move with
  | begin start followed => exact starts start (begun_notices followed) mem_met_begun
  | @refuse _ index other node notices e start refused =>
    refine starts start ?_ ?_
    · simp [Side.report, Side.enter, refused, Recipe.reported]
    · have met : ((s.enter direction other node.name).report notices).met =
        s.cache.keys ++ (s.building ++ [other]) := rfl
      rw [met, ← List.append_assoc, List.mem_append, List.mem_singleton]
      rfl
  | addField index name docs hand => exact balanced_of_met rfl Iff.rfl
  | newList item => exact balanced_of_met rfl Iff.rfl
  | cut other ts =>
    refine balanced_of_met ?_ Iff.rfl
    rw [Side.report, List.countP_append, counts.cut other ts, Nat.add_zero]
  | @finish _ _ outer other t busy cached =>
    refine balanced_of_met rfl ?_
    rw [mem_met, mem_met, busy]
    have left : (s.leave.put other t).building = outer := by simp [Side.put, Side.leave, busy]
    rw [left]
    by_cases same : id = other
    · subst same
      simp [cached?_put_self]
    · rw [cached?_put_of_ne same]
      simp [same, Side.leave, Side.cached?]
  | @leave _ outer other busy kept =>
    refine balanced_of_met rfl ?_
    have left : s.leave.building = outer := by simp [Side.leave, busy]
    have cached : s.leave.cached? id = s.cached? id := rfl
    rw [mem_met, mem_met, left, busy, cached]
    by_cases same : id = other
    · subst same
      simp [kept (failing rfl)]
    · simp [same]

theorem convert_balanced (counts : Counts g direction id p w) (s : Side) (ref : TypeRef)
    (failing : isError (s.convert g direction ref).2 = true → Makes g direction id) :
    Balanced p w id s (s.convert g direction ref).1 :=
  (convert_moves s ref).keeps (P := Balanced p w id s)
    (fun move balanced => balanced.trans (move.balanced counts failing)) rfl

end Balance

namespace Converter

def log (g : Graph) (direction : Direction) (c : Converter) :
    List (Direction × TypeRef) → List Notice
  | [] => []
  | (other, ref) :: rest =>
    (if other = direction then (c.convert g other ref).2.1 else []) ++
      log g direction (c.convert g other ref).1 rest

def Quiet (c : Converter) : Prop := ∀ direction, (c.side direction).notices = []

section Log

variable {g : Graph} {direction : Direction} {id : Nat} {p : Notice → Bool} {w : Nat}
  {c : Converter} {calls : List (Direction × TypeRef)}

theorem quiet_empty : Quiet empty := by
  intro direction
  cases direction <;> rfl

theorem Quiet.convert (h : c.Quiet) (direction : Direction) (ref : TypeRef) :
    (c.convert g direction ref).1.Quiet := by
  intro other
  by_cases same : other = direction
  · subst same
    rw [convert_side]
  · rw [convert_side_of_ne same]
    exact h other

theorem Quiet.convert_cached {ref : TypeRef} {t : Ty} (h : c.Quiet)
    (resolved : g.resolveAlias ref = .ok (some id))
    (cached : (c.side direction).cached? id = some t) :
    c.convert g direction ref = (c, [], .ok t) := by
  obtain ⟨index, rfl, denoted⟩ := resolveAlias_eq_some.mp resolved
  have found : (c.side direction).convert g direction (.node index) = (c.side direction, .ok t) :=
    Conversion.convert_cached denoted cached
  have same : { c.side direction with notices := [] } = c.side direction := by
    rw [← h direction]
  rw [Converter.convert, found]
  dsimp only
  rw [same, h direction]
  cases direction <;> rfl

theorem Quiet.run (h : c.Quiet) (calls : List (Direction × TypeRef)) : (c.run g calls).1.Quiet := by
  induction calls generalizing c with
  | nil => exact h
  | cons call rest ih => exact ih (h.convert call.1 call.2)

theorem run_balanced (counts : Counts g direction id p w) (quiet : c.Quiet)
    (failing : (∃ r ∈ (c.run g calls).2, isError r = true) → Makes g direction id) :
    (log g direction c calls).countP p + (if id ∈ (c.side direction).met then w else 0) =
      if id ∈ ((c.run g calls).1.side direction).met then w else 0 := by
  induction calls generalizing c with
  | nil => exact Nat.zero_add _
  | cons call rest ih =>
    obtain ⟨other, ref⟩ := call
    have later := ih (quiet.convert other ref) fun ⟨r, there, error⟩ =>
      failing ⟨r, List.mem_cons_of_mem _ there, error⟩
    have ran : (c.run g ((other, ref) :: rest)).1 = ((c.convert g other ref).1.run g rest).1 := rfl
    rw [log, List.countP_append, ran, ← later]
    by_cases same : other = direction
    · subst same
      have first := convert_balanced counts (c.side other) ref fun error =>
        failing ⟨_, List.mem_cons_self, error⟩
      have told : (c.convert g other ref).2.1 =
        ((c.side other).convert g other ref).1.notices := rfl
      have met : ((c.convert g other ref).1.side other).met =
          ((c.side other).convert g other ref).1.met := by
        rw [convert_side]
        rfl
      rw [Balanced, quiet other, List.countP_nil] at first
      rw [if_pos rfl, told, met]
      omega
    · rw [if_neg same, convert_side_of_ne (Ne.symm same), List.countP_nil]
      omega

theorem Settled.followed {node : TypeDef} {t : Ty} (h : c.Settled g)
    (cached : (c.side direction).cached? id = some t) (found : g.types[id]? = some node) :
    (recipe direction id node).isRefusal = false := by
  obtain ⟨node', found', described⟩ := h.sound direction id t cached
    (h.idle direction ▸ List.not_mem_nil)
  cases found.symm.trans found'
  cases hr : recipe direction id node with
  | refuse =>
    rw [hr] at described
    exact described.elim
  | _ => rfl

theorem log_balanced (counts : Counts g direction id p w)
    (failing : (∃ r ∈ (empty.run g calls).2, isError r = true) → Makes g direction id) :
    (log g direction empty calls).countP p =
      if (((empty.run g calls).1.side direction).cached? id).isSome then w else 0 := by
  have idle : ((empty.run g calls).1.side direction).building = [] :=
    run_keeps (P := fun _ s => s.building = []) (fun _ _ h => h)
      (fun direction s ref h => (convert_building g direction s ref).trans h)
      (fun direction => by cases direction <;> rfl) calls direction
  have unmet : id ∉ (empty.side direction).met := by
    cases direction <;> exact List.not_mem_nil
  have balanced := run_balanced counts quiet_empty failing
  rw [if_neg unmet, Nat.add_zero] at balanced
  rw [balanced]
  simp only [mem_met, idle, List.not_mem_nil, or_false]

/-- The states that a side goes through in a run when the cache may have changed. -/
inductive Moment (g : Graph) (calls : List (Direction × TypeRef)) (direction : Direction) :
    Side → Prop
  | before {s ref} (made : Made g calls direction (s, ref)) : Moment g calls direction s
  | begun {s index id node} (made : Made g calls direction (s, .node index))
      (start : Starts g s index id node) :
      Moment g calls direction (Conversion.begun direction s id node)
  | after {s ref} (made : Made g calls direction (s, ref)) :
      Moment g calls direction (s.convert g direction ref).1

theorem Made.entries {s : Side} {ref : TypeRef} (made : Made g calls direction (s, ref)) :
    (s.convert g direction ref).1.cache.entries <+:
      ((empty.run g calls).1.side direction).cache.entries := by
  obtain ⟨earlier, outer, later, rfl, within⟩ := made
  have kept := run_entries g
    (((empty.run g earlier).1).convert g direction outer).1 later direction
  rw [convert_side] at kept
  rw [run_append]
  exact (within_entries within).trans kept

theorem Moment.entries {s : Side} (h : Moment g calls direction s) :
    s.cache.entries <+: ((empty.run g calls).1.side direction).cache.entries := by
  cases h with
  | before made => exact (convert_extends g direction s _).entries.trans made.entries
  | @begun s index id node made start =>
    have built := (@constructed_grows g direction s id node).entries
    have kept := made.entries
    rw [start.convert] at kept
    rcases result : constructed g direction s id node with ⟨s₁, e | t⟩
    · rw [result] at built kept
      exact built.trans kept
    · rw [result] at built kept
      exact (built.trans (start.entries_finish result)).trans kept
  | after made => exact made.entries

end Log

end Converter

open Converter in
/-- In a run without failures each node in the cache of a direction has been started once there, and
each of its cases that are left out has been warned of once; a call that finds its node there
changes and reports nothing. Whatever fails, a node is never cached under a second type, and an
aggregate is never started again. -/
theorem conversions_memoised (g : Graph) (calls : List (Direction × TypeRef)) :
    ((∀ r ∈ (empty.run g calls).2, ∃ t, r = .ok t) → ∀ direction id,
      (log g direction empty calls).countP (Notice.isStartOf direction id) =
        (if (((empty.run g calls).1.side direction).cached? id).isSome then 1 else 0) ∧
      ∀ node, g.types[id]? = some node →
        (log g direction empty calls).countP (Notice.isHiddenIn id) =
          if (((empty.run g calls).1.side direction).cached? id).isSome
          then node.kind.hidden.length else 0) ∧
    (∀ direction ref id t, g.resolveAlias ref = .ok (some id) →
      ((empty.run g calls).1.side direction).cached? id = some t →
        (empty.run g calls).1.convert g direction ref = ((empty.run g calls).1, [], .ok t)) ∧
    ∀ direction id,
      (∀ s s' t t', Moment g calls direction s → Moment g calls direction s' →
        s.cached? id = some t → s'.cached? id = some t' → t = t') ∧
      (Makes g direction id → (log g direction empty calls).countP (Notice.isStartOf direction id) =
        if (((empty.run g calls).1.side direction).cached? id).isSome then 1 else 0) := by
  refine ⟨fun ok direction id => ?_, ?_, fun direction id => ⟨?_, fun makes => ?_⟩⟩
  · have none : (∃ r ∈ (empty.run g calls).2, isError r = true) → Makes g direction id := by
      rintro ⟨r, there, error⟩
      obtain ⟨t, rfl⟩ := ok r there
      cases error
    refine ⟨log_balanced (counts_start g direction id) none, fun node found => ?_⟩
    rw [log_balanced (counts_hidden found) none]
    cases cached : ((empty.run g calls).1.side direction).cached? id with
    | none => rfl
    | some t =>
      have settled := ((settled_empty g).run ok).1
      have followed := settled.followed cached found
      rw [recipe_reported followed, List.length_map]
  · intro direction ref id t resolved cached
    exact (quiet_empty.run calls).convert_cached resolved cached
  · intro s s' t t' moment moment' there there'
    have first := cached?_of_isPrefix moment.entries there
    have second := cached?_of_isPrefix moment'.entries there'
    exact Option.some.inj (first.symm.trans second)
  · exact log_balanced (counts_start g direction id) fun _ => makes

namespace Converter

def menu : Graph :=
  { types :=
      [⟨.variant [⟨.str "type", some (.primitive .string), .null⟩,
          ⟨.str "again", some (.node 1), .null⟩], .str "order", none, .null, .null⟩,
        ⟨.record [⟨.str "first", .node 0, .null⟩, ⟨.str "second", .node 0, .null⟩], .str "menu",
          none, .null, .null⟩]
    worlds := []
    interfaces := []
    packages := [] }

def menuCalls : List (Direction × TypeRef) :=
  [(.output, .node 1), (.input, .node 0), (.output, .node 0)]

theorem menu_memoised : (∀ r ∈ (empty.run menu menuCalls).2, ∃ t, r = .ok t) ∧
    (log menu .output empty menuCalls).countP (Notice.isStartOf .output 0) = 1 ∧
    (log menu .output empty menuCalls).countP (Notice.isHiddenIn 0) = 1 := by
  have results : (empty.run menu menuCalls).2 =
      [.ok (.aggregate .output 0), .ok (.aggregate .input 0), .ok (.aggregate .output 1)] := by
    simp only [menuCalls, run, convert, convert_eq_evaluated]
    rfl
  have cached : ((empty.run menu menuCalls).1.side .output).cached? 0 =
      some (.aggregate .output 1) := by
    simp only [menuCalls, run, convert, convert_eq_evaluated]
    rfl
  have ok : ∀ r ∈ (empty.run menu menuCalls).2, ∃ t, r = .ok t := by simp [results]
  obtain ⟨started, warned⟩ := (conversions_memoised menu menuCalls).1 ok .output 0
  refine ⟨ok, ?_, ?_⟩
  · rw [started, cached, Option.isSome_some, if_pos rfl]
  · rw [warned _ rfl, cached, Option.isSome_some, if_pos rfl]
    decide

end Converter

end Conversion

end WitSchema
