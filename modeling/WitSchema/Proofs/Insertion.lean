import Mathlib.Data.List.Induction
import Mathlib.Tactic.Tauto
import WitSchema.Json.Basic

/-! Insertion-ordered maps as lists of pairs. A key that is there keeps its
place, a new one goes to the end, and nothing else moves. -/

namespace WitSchema

variable {κ α β : Type} [BEq κ] [LawfulBEq κ]

theorem insertPair_of_lookup_none {key : κ} {value : α} {l : List (κ × α)}
    (h : l.lookup key = none) : insertPair key value l = l ++ [(key, value)] := by
  induction l with
  | nil => rfl
  | cons p l ih =>
    obtain ⟨k, v⟩ := p
    by_cases hk : k = key
    · subst hk
      simp at h
    · have hne : (key == k) = false := beq_eq_false_iff_ne.mpr (Ne.symm hk)
      simp only [List.lookup_cons, hne] at h
      simp [insertPair, hk, ih h]

theorem insertPair_of_lookup_some {key : κ} {value : α} {l : List (κ × α)}
    (h : l.lookup key = some value) : insertPair key value l = l := by
  induction l with
  | nil => simp at h
  | cons p l ih =>
    obtain ⟨k, v⟩ := p
    by_cases hk : k = key
    · subst hk
      simp only [List.lookup_cons, BEq.rfl, Option.some.injEq] at h
      simp [insertPair, h]
    · have hne : (key == k) = false := beq_eq_false_iff_ne.mpr (Ne.symm hk)
      simp only [List.lookup_cons, hne] at h
      simp [insertPair, hk, ih h]

@[simp] theorem lookup_insertPair_self (key : κ) (value : α) (l : List (κ × α)) :
    (insertPair key value l).lookup key = some value := by
  induction l with
  | nil => simp [insertPair]
  | cons p l ih =>
    obtain ⟨k, v⟩ := p
    by_cases hk : k = key
    · simp [insertPair, hk]
    · have hne : (key == k) = false := beq_eq_false_iff_ne.mpr (Ne.symm hk)
      simp [insertPair, List.lookup_cons, hk, hne, ih]

theorem lookup_insertPair_of_ne {key other : κ} (h : other ≠ key) (value : α)
    (l : List (κ × α)) : (insertPair key value l).lookup other = l.lookup other := by
  have hkey : (other == key) = false := beq_eq_false_iff_ne.mpr h
  induction l with
  | nil => simp [insertPair, List.lookup_cons, hkey]
  | cons p l ih =>
    obtain ⟨k, v⟩ := p
    by_cases hk : k = key
    · subst hk
      simp [insertPair, List.lookup_cons, hkey]
    · by_cases ho : other = k
      · simp [insertPair, hk, ho]
      · have hne : (other == k) = false := beq_eq_false_iff_ne.mpr ho
        simp [insertPair, List.lookup_cons, hk, hne, ih]

theorem mem_of_mem_insertPair {key : κ} {value : α} {l : List (κ × α)} {p : κ × α}
    (h : p ∈ insertPair key value l) : p = (key, value) ∨ p ∈ l := by
  induction l with
  | nil => exact .inl (List.mem_singleton.mp h)
  | cons first l ih =>
    obtain ⟨k, v⟩ := first
    by_cases hk : k = key
    · subst hk
      simp only [insertPair, BEq.rfl, if_true, List.mem_cons] at h ⊢
      tauto
    · have hne : (k == key) = false := beq_eq_false_iff_ne.mpr hk
      simp only [insertPair, hne, Bool.false_eq_true, if_false, List.mem_cons] at h ⊢
      tauto

theorem mem_of_mem_insertPairs {l : List (κ × α)} {p : κ × α} (h : p ∈ insertPairs l) : p ∈ l := by
  induction l using List.reverseRecOn with
  | nil => exact h
  | append_singleton l q ih =>
    rw [insertPairs, List.foldl_append] at h
    rcases mem_of_mem_insertPair h with rfl | h
    · exact List.mem_append_right _ (List.mem_singleton_self _)
    · exact List.mem_append_left _ (ih h)

theorem keys_insertPair {key : κ} {value : α} {l : List (κ × α)} (keys : (l.map (·.1)).Nodup) :
    ((insertPair key value l).map (·.1)).Nodup := by
  induction l with
  | nil => exact List.pairwise_singleton ..
  | cons p l ih =>
    obtain ⟨k, v⟩ := p
    rw [List.map_cons, List.nodup_cons] at keys
    rw [insertPair]
    split
    · exact List.nodup_cons.mpr keys
    · rename_i other
      refine List.nodup_cons.mpr ⟨?_, ih keys.2⟩
      intro again
      obtain ⟨q, member, same⟩ := List.mem_map.mp again
      rcases mem_of_mem_insertPair member with rfl | member
      · exact other (beq_iff_eq.mpr same.symm)
      · exact keys.1 (List.mem_map.mpr ⟨q, member, same⟩)

theorem lookup_isSome_iff_mem_keys {key : κ} {l : List (κ × α)} :
    (l.lookup key).isSome ↔ key ∈ l.map (·.1) := by
  induction l with
  | nil => simp
  | cons p l ih =>
    obtain ⟨k, v⟩ := p
    by_cases h : key = k
    · simp [h]
    · have hne : (key == k) = false := beq_eq_false_iff_ne.mpr h
      simp only [List.lookup_cons, hne, List.map_cons, List.mem_cons, h, false_or]
      exact ih

theorem mem_of_lookup {key : κ} {value : α} {l : List (κ × α)} (h : l.lookup key = some value) :
    (key, value) ∈ l := by
  obtain ⟨before, after, rfl, -⟩ := List.lookup_eq_some_iff.mp h
  exact List.mem_append_right _ List.mem_cons_self

theorem lookup_of_mem {key : κ} {value : α} {l : List (κ × α)} (keys : (l.map (·.1)).Nodup)
    (member : (key, value) ∈ l) : l.lookup key = some value := by
  induction l with
  | nil => exact absurd member List.not_mem_nil
  | cons p l ih =>
    rw [List.map_cons, List.nodup_cons] at keys
    rcases List.mem_cons.mp member with rfl | there
    · exact List.lookup_cons_self
    · have other : key ≠ p.1 := fun same => keys.1 (same ▸ List.mem_map_of_mem there)
      rw [List.lookup_cons, beq_false_of_ne other]
      exact ih keys.2 there

theorem lookup_of_perm {l l' : List (κ × α)} (perm : l.Perm l') (keys : (l.map (·.1)).Nodup)
    (key : κ) : l.lookup key = l'.lookup key := by
  have keys' : (l'.map (·.1)).Nodup := (perm.map _).nodup_iff.mp keys
  refine Option.ext fun value => ⟨fun found => ?_, fun found => ?_⟩
  · exact lookup_of_mem keys' (perm.subset (mem_of_lookup found))
  · exact lookup_of_mem keys (perm.symm.subset (mem_of_lookup found))

theorem lookup_filter_key {known : κ → Bool} {key : κ} (h : known key = true)
    (l : List (κ × α)) : (l.filter fun p => known p.1).lookup key = l.lookup key := by
  induction l with
  | nil => rfl
  | cons p l ih =>
    obtain ⟨k, v⟩ := p
    by_cases same : key = k
    · subst same
      simp [h]
    · have other : (key == k) = false := beq_eq_false_iff_ne.mpr same
      cases hk : known k <;> simp [hk, List.lookup_cons, other, ih]

theorem filter_key_eq {keyOf : α → κ} {entries : List α} {x : α}
    (keys : (entries.map keyOf).Nodup) (member : x ∈ entries) :
    entries.filter (keyOf · == keyOf x) = [x] := by
  induction entries with
  | nil => exact absurd member List.not_mem_nil
  | cons y rest ih =>
    rw [List.map_cons, List.nodup_cons] at keys
    rcases List.mem_cons.mp member with rfl | member
    · rw [List.filter_cons_of_pos (by simp), List.filter_eq_nil_iff.mpr]
      intro z there same
      exact keys.1 (eq_of_beq same ▸ List.mem_map_of_mem there)
    · have other : keyOf y ≠ keyOf x := fun same => keys.1 (same ▸ List.mem_map_of_mem member)
      rw [List.filter_cons_of_neg (by simpa using other), ih keys.2 member]

omit [LawfulBEq κ] in
theorem lookup_map_values (f : α → β) (key : κ) (l : List (κ × α)) :
    (l.map fun p => (p.1, f p.2)).lookup key = (l.lookup key).map f := by
  induction l with
  | nil => rfl
  | cons p l ih =>
    obtain ⟨k, v⟩ := p
    cases hk : key == k with
    | true => simp [List.lookup_cons, hk]
    | false => simp [List.lookup_cons, hk, ih]

theorem lookup_append_of_some {key : κ} {value : α} {l : List (κ × α)}
    (h : l.lookup key = some value) (rest : List (κ × α)) :
    (l ++ rest).lookup key = some value := by
  induction l with
  | nil => simp at h
  | cons p l ih =>
    obtain ⟨k, v⟩ := p
    by_cases hk : (key == k) = true
    · simpa [List.lookup_cons, hk] using h
    · have hne : (key == k) = false := by simpa using hk
      simp only [List.lookup_cons, hne] at h
      simp only [List.cons_append, List.lookup_cons, hne, ih h]

theorem lookup_of_isPrefix {key : κ} {value : α} {l l' : List (κ × α)} (hl : l <+: l')
    (h : l.lookup key = some value) : l'.lookup key = some value := by
  obtain ⟨rest, rfl⟩ := hl
  exact lookup_append_of_some h rest

omit [LawfulBEq κ] in
theorem insertPairs_append_singleton (l : List (κ × α)) (p : κ × α) :
    insertPairs (l ++ [p]) = insertPair p.1 p.2 (insertPairs l) := by
  simp [insertPairs, List.foldl_append]

theorem keys_insertPairs (l : List (κ × α)) : ((insertPairs l).map (·.1)).Nodup := by
  induction l using List.reverseRecOn with
  | nil => exact List.nodup_nil
  | append_singleton l p ih =>
    rw [insertPairs_append_singleton]
    exact keys_insertPair ih

theorem insertPairs_of_nodup {l : List (κ × α)} (keys : (l.map (·.1)).Nodup) :
    insertPairs l = l := by
  induction l using List.reverseRecOn with
  | nil => rfl
  | append_singleton l p ih =>
    rw [List.map_append, List.map_singleton, List.nodup_append] at keys
    obtain ⟨before, -, apart⟩ := keys
    have new : l.lookup p.1 = none := by
      rw [← Option.not_isSome_iff_eq_none, lookup_isSome_iff_mem_keys]
      exact fun there => apart p.1 there p.1 (List.mem_singleton_self _) rfl
    rw [insertPairs_append_singleton, ih before, insertPair_of_lookup_none new]

theorem map_fst_insertPair (key : κ) (value : α) (l : List (κ × α)) :
    (insertPair key value l).map (·.1) =
      if key ∈ l.map (·.1) then l.map (·.1) else l.map (·.1) ++ [key] := by
  induction l with
  | nil => rfl
  | cons p l ih =>
    obtain ⟨k, v⟩ := p
    by_cases same : k = key
    · simp [insertPair, same]
    · rw [insertPair, if_neg (by simpa using same), List.map_cons, ih, List.map_cons]
      by_cases there : key ∈ l.map (·.1)
      · rw [if_pos there, if_pos (List.mem_cons_of_mem _ there)]
      · rw [if_neg there, if_neg (by simpa [Ne.symm same] using there), List.cons_append]

theorem map_fst_insertPairs (l : List (κ × α)) :
    (insertPairs l).map (·.1) = (l.map (·.1)).eraseDups := by
  induction l using List.reverseRecOn with
  | nil => rfl
  | append_singleton l p ih =>
    rw [insertPairs_append_singleton, map_fst_insertPair, ih, List.map_append, List.map_singleton,
      List.eraseDups_append, List.cons_removeAll]
    by_cases there : p.1 ∈ l.map (·.1)
    · simp [there, List.mem_eraseDups]
    · simp [there, List.mem_eraseDups, List.eraseDups_cons]

theorem last_of_mem_insertPairs {l : List (κ × α)} {p : κ × α} (h : p ∈ insertPairs l) :
    ∃ before after, l = before ++ p :: after ∧ p.1 ∉ after.map (·.1) := by
  induction l using List.reverseRecOn with
  | nil => cases h
  | append_singleton l q ih =>
    rw [insertPairs_append_singleton] at h
    by_cases same : p.1 = q.1
    · have keys : ((insertPair q.1 q.2 (insertPairs l)).map (·.1)).Nodup :=
        keys_insertPair (keys_insertPairs l)
      have found := lookup_of_mem keys h
      rw [same, lookup_insertPair_self] at found
      obtain rfl : q = p := Prod.ext same.symm (Option.some.inj found)
      exact ⟨l, [], rfl, List.not_mem_nil⟩
    · rcases mem_of_mem_insertPair h with rfl | old
      · exact absurd rfl same
      · obtain ⟨before, after, rfl, last⟩ := ih old
        refine ⟨before, after ++ [q], by simp, ?_⟩
        simp only [List.map_append, List.map_singleton, List.mem_append, List.mem_singleton, not_or]
        exact ⟨last, same⟩

theorem lookup_insertPairs_of_last (before : List (κ × α)) {after : List (κ × α)} {p : κ × α}
    (last : p.1 ∉ after.map (·.1)) :
    (insertPairs (before ++ p :: after)).lookup p.1 = some p.2 := by
  induction after using List.reverseRecOn with
  | nil => rw [insertPairs_append_singleton, lookup_insertPair_self]
  | append_singleton after q ih =>
    rw [List.map_append, List.map_singleton, List.mem_append, List.mem_singleton, not_or] at last
    rw [← List.cons_append, ← List.append_assoc, insertPairs_append_singleton,
      lookup_insertPair_of_ne last.2, ih last.1]

theorem insertPairs_ne_nil {l : List (κ × α)} (h : l ≠ []) : insertPairs l ≠ [] := by
  induction l using List.reverseRecOn with
  | nil => exact absurd rfl h
  | append_singleton l p _ =>
    intro empty
    rw [insertPairs_append_singleton] at empty
    have found := lookup_insertPair_self p.1 p.2 (insertPairs l)
    rw [empty] at found
    cases found

omit [LawfulBEq κ] in
theorem map_insertPair (f : α → β) (key : κ) (value : α) (l : List (κ × α)) :
    (insertPair key value l).map (fun p => (p.1, f p.2)) =
      insertPair key (f value) (l.map fun p => (p.1, f p.2)) := by
  induction l with
  | nil => rfl
  | cons p l ih =>
    obtain ⟨k, v⟩ := p
    by_cases h : (k == key) = true
    · simp [insertPair, h]
    · simp [insertPair, h, ih]

omit [LawfulBEq κ] in
theorem map_insertPairs (f : α → β) (l : List (κ × α)) :
    (insertPairs l).map (fun p => (p.1, f p.2)) =
      insertPairs (l.map fun p => (p.1, f p.2)) := by
  induction l using List.reverseRecOn with
  | nil => rfl
  | append_singleton l p ih =>
    rw [List.map_append, insertPairs_append_singleton, map_insertPair, ih]
    exact (insertPairs_append_singleton (l.map fun p => (p.1, f p.2)) (p.1, f p.2)).symm

end WitSchema
