import Mathlib.Data.List.Infix
import WitSchema.Proofs.Conversion.Shape
import WitSchema.Proofs.Name

/-! Names of types that a schema accepts. A name that is accepted stays so with
the suffix of an input type, and the names of nodes without a name always are. -/

namespace WitSchema

open GraphQL

namespace GraphQL

theorem isNameChars_append {l l' : List Char} (h : isNameChars l = true)
    (h' : l'.all isNameCharacter = true) : isNameChars (l ++ l') = true := by
  cases l with
  | nil => cases h
  | cons c rest =>
    simp only [isNameChars, List.cons_append, List.all_append, Bool.and_eq_true] at h ⊢
    exact ⟨h.1, h.2, h'⟩

end GraphQL

namespace Wit

def TypeDef.inputSuffix (node : TypeDef) : String :=
  match node.kind with
  | .result .. => "_Input"
  | _ => if node.name.isTruthy then "Input" else "_Input"

def TypeDef.IsNamedLegally (node : TypeDef) : Prop :=
  match node.kind with
  | .record _ | .variant _ => ∀ text, node.name = .str text → text ≠ "" →
    Conversion.checkTypeName (Name.pascal text) = .ok ()
  | _ => True

end Wit

namespace Conversion

open Wit

theorem checkTypeName_ok_iff {name : String} : checkTypeName name = .ok () ↔
    name ∉ reservedNames ∧ isNameChars name.toList = true := by
  unfold checkTypeName
  rw [← checkName_ok_iff]
  by_cases hr : name ∈ reservedNames
  · simp [hr]
  · cases hn : checkName name with
    | error fault => simp [hr]
    | ok _ => simp [hr]

theorem checkTypeName_append {name suffix : String} (h : checkTypeName name = .ok ())
    (input : "Input".toList <:+ suffix.toList)
    (chars : suffix.toList.all isNameCharacter = true) : checkTypeName (name ++ suffix) = .ok () := by
  obtain ⟨_, hname⟩ := checkTypeName_ok_iff.mp h
  have hreserved : ∀ r ∈ reservedNames, ¬ "Input".toList <:+ r.toList := by decide
  refine checkTypeName_ok_iff.mpr ⟨fun hmem => hreserved _ hmem ?_, ?_⟩
  · rw [String.toList_append]
    exact input.trans (List.suffix_append ..)
  · rw [String.toList_append]
    exact isNameChars_append hname chars

theorem checkTypeName_inputSuffix {name : String} (h : checkTypeName name = .ok ())
    (node : TypeDef) : checkTypeName (name ++ node.inputSuffix) = .ok () := by
  have hsuffix : node.inputSuffix = "Input" ∨ node.inputSuffix = "_Input" := by
    unfold TypeDef.inputSuffix
    split
    · exact .inr rfl
    · split
      · exact .inl rfl
      · exact .inr rfl
  rcases hsuffix with hs | hs
  · rw [hs]
    exact checkTypeName_append h (by decide) (by decide)
  · rw [hs]
    exact checkTypeName_append h (by decide) (by decide)

theorem all_isNameCharacter_toString (n : Nat) :
    (toString n).toList.all isNameCharacter = true := by
  rw [Nat.toString_eq_repr, Nat.toList_repr, List.all_eq_true]
  intro c hc
  have hdigit := Nat.isDigit_of_mem_toDigits (by omega) (by omega) hc
  simp [isNameCharacter, Char.isAlphanum, hdigit]

theorem checkTypeName_anonymous {sort : String} (hs : sort ∈ ["Record", "Variant", "Result"])
    (id : Nat) : checkTypeName (sort ++ "_" ++ toString id) = .ok () := by
  have hstart : ∀ sort ∈ ["Record", "Variant", "Result"], isNameChars (sort ++ "_").toList = true ∧
      ∀ r ∈ reservedNames, (sort ++ "_").toList.head? ≠ r.toList.head? := by decide
  obtain ⟨hchars, hhead⟩ := hstart sort hs
  refine checkTypeName_ok_iff.mpr ⟨fun hmem => hhead _ hmem ?_, ?_⟩
  · have hne : (sort ++ "_").toList ≠ [] := fun h => by simp [h, isNameChars] at hchars
    rw [@String.toList_append (sort ++ "_"), List.head?_append_of_ne_nil _ hne]
  · rw [String.toList_append]
    exact isNameChars_append hchars (all_isNameCharacter_toString id)

section Node

variable {sort : String} {id : Nat} {node : TypeDef}

theorem aggregateName_input (sort : String) (id : Nat) (name : Json) :
    aggregateName .input sort id name = (aggregateName .output sort id name).map
      (· ++ if name.isTruthy then "Input" else "_Input") := by
  unfold aggregateName
  by_cases ht : name.isTruthy = true
  · cases pascalOf name <;> simp [ht, Except.map]
  · simp [ht, Except.map]

theorem resultName_input (id : Nat) : resultName .input id = resultName .output id ++ "_Input" := by
  simp [resultName]

theorem checkTypeName_of_aggregateName (hs : sort ∈ ["Record", "Variant", "Result"])
    (legal : ∀ text, node.name = .str text → text ≠ "" →
      checkTypeName (Name.pascal text) = .ok ()) {name : String}
    (h : aggregateName .output sort id node.name = .ok name) : checkTypeName name = .ok () := by
  unfold aggregateName at h
  by_cases ht : node.name.isTruthy = true
  · rw [if_pos ht] at h
    cases hn : node.name with
    | str text =>
      have hne : text ≠ "" := by simpa [hn, Json.isTruthy] using ht
      simp only [hn, pascalOf, Except.map, String.append_empty, Except.ok.injEq] at h
      exact h ▸ legal text hn hne
    | _ => simp [hn, pascalOf, Except.map] at h
  · rw [if_neg ht] at h
    simp only [String.append_empty, Except.ok.injEq] at h
    exact h ▸ checkTypeName_anonymous hs id

end Node

end Conversion

end WitSchema
