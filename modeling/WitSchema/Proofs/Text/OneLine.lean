import WitSchema.Command.Run

/-! Messages on one line. What a message quotes has its line breaks escaped, and
numbers have none, so that only the list of violated settings goes over several
lines. -/

namespace WitSchema

def OneLine (text : String) : Prop := '\n' ∉ text.toList

instance (text : String) : Decidable (OneLine text) :=
  inferInstanceAs (Decidable ('\n' ∉ text.toList))

@[simp] theorem oneLine_append {a b : String} : OneLine (a ++ b) ↔ OneLine a ∧ OneLine b := by
  simp [OneLine]

@[simp] theorem oneLine_ofList {cs : List Char} : OneLine (String.ofList cs) ↔ '\n' ∉ cs := by
  simp [OneLine]

theorem oneLine_literal {cs : List Char} (h : '\n' ∉ cs := by decide) :
    OneLine (String.ofList cs) :=
  oneLine_ofList.mpr h

theorem oneLine_intercalate {separator : String} {parts : List String} (h : OneLine separator)
    (each : ∀ part ∈ parts, OneLine part) : OneLine (String.intercalate separator parts) := by
  unfold OneLine at *
  rw [String.toList_intercalate]
  induction parts with
  | nil => simp
  | cons first rest ih =>
    have here := each first List.mem_cons_self
    have later := ih fun part member => each part (List.mem_cons_of_mem _ member)
    cases rest with
    | nil => simpa using here
    | cons second rest =>
      rw [List.map_cons, List.map_cons, List.intercalate_cons_cons]
      simp only [List.mem_append, not_or]
      exact ⟨⟨here, h⟩, later⟩

section Digits

theorem digitChar_ne_newline (n : Nat) : n.digitChar ≠ '\n' := by
  by_cases small : n < 16
  · revert n
    decide
  · obtain ⟨k, rfl⟩ := Nat.exists_eq_add_of_le' (Nat.le_of_not_lt small)
    have high : (k + 16).digitChar = '*' := rfl
    rw [high]
    decide

theorem newline_not_mem_toDigits {b : Nat} (h : 1 < b) (n : Nat) : '\n' ∉ b.toDigits n := by
  induction n using Nat.strongRecOn with
  | ind n ih =>
    rw [Nat.toDigits_eq_if h]
    split
    · exact fun member => digitChar_ne_newline n (List.mem_singleton.mp member).symm
    · have smaller : n / b < n := Nat.div_lt_self (by omega) h
      rw [List.mem_append, List.mem_singleton, not_or]
      exact ⟨ih _ smaller, (digitChar_ne_newline _).symm⟩

theorem oneLine_nat (n : Nat) : OneLine (toString n) := by
  rw [show toString n = n.repr from rfl, Nat.repr_eq_ofList_toDigits, oneLine_ofList]
  exact newline_not_mem_toDigits (by decide) n

theorem oneLine_int (n : Int) : OneLine (toString n) := by
  cases n with
  | ofNat n => exact oneLine_nat n
  | negSucc n => exact oneLine_append.mpr ⟨by decide, oneLine_nat (n + 1)⟩

end Digits

namespace Quoted

theorem newline_not_mem_hex (width n : Nat) : '\n' ∉ hex width n := by
  simp [hex, newline_not_mem_toDigits]

theorem quoteOf_ne_newline (s : List Char) : quoteOf s ≠ '\n' := by
  unfold quoteOf
  split <;> decide

theorem newline_not_mem_escape {quote : Char} (h : quote ≠ '\n') (c : Char) :
    '\n' ∉ escape quote c := by
  unfold escape
  split
  · rename_i same
    obtain rfl | rfl := same
    · simpa using h.symm
    · decide
  split
  · decide
  rename_i newline
  split
  · decide
  split
  · decide
  split
  · exact fun member => newline (List.mem_singleton.mp member).symm
  dsimp only
  split
  · simp [newline_not_mem_hex]
  split
  · simp [newline_not_mem_hex]
  · simp [newline_not_mem_hex]

theorem newline_not_mem_encode (s : List Char) : '\n' ∉ encode s := by
  have h := quoteOf_ne_newline s
  simp [encode, h.symm, newline_not_mem_escape h]

end Quoted

theorem oneLine_quoted (s : String) : OneLine (quoted s) :=
  oneLine_ofList.mpr (Quoted.newline_not_mem_encode s.toList)

section Floats

theorem newline_not_mem_replicate (n : Nat) : '\n' ∉ List.replicate n '0' := by
  intro member
  cases List.eq_of_mem_replicate member

theorem oneLine_exponentText (e : Int) : OneLine (Double.exponentText e) := by
  unfold Double.exponentText
  refine oneLine_append.mpr ⟨?_, ?_⟩
  · split <;> decide
  split
  · exact oneLine_append.mpr ⟨by decide, oneLine_nat _⟩
  · exact oneLine_nat _

theorem oneLine_positional {digits : List Char} (h : '\n' ∉ digits) (point : Int) :
    OneLine (Double.positional digits point) := by
  have zeros := newline_not_mem_replicate
  unfold Double.positional
  split
  · exact oneLine_append.mpr ⟨by decide, by simp [h, zeros]⟩
  split
  · exact oneLine_append.mpr ⟨by simp [h, zeros], by decide⟩
  · rw [oneLine_ofList, List.mem_append, List.mem_cons]
    rintro (member | same | member)
    · exact h (List.mem_of_mem_take member)
    · cases same
    · exact h (List.mem_of_mem_drop member)

theorem oneLine_scientific {digits : List Char} (h : '\n' ∉ digits) (point : Int) :
    OneLine (Double.scientific digits point) := by
  unfold Double.scientific
  refine oneLine_append.mpr ⟨?_, oneLine_exponentText _⟩
  match digits, h with
  | [], _ => decide
  | [d], h => exact oneLine_ofList.mpr h
  | d :: e :: rest, h =>
    rw [oneLine_ofList]
    simpa using h

theorem oneLine_double (x : Double) : OneLine x.text := by
  cases x with
  | nan => decide
  | infinite negative => cases negative <;> decide
  | finite negative m e =>
    have magnitude : ∀ t, OneLine t → OneLine (if negative then "-" ++ t else t) := by
      intro t line
      split
      · exact oneLine_append.mpr ⟨by decide, line⟩
      · exact line
    apply magnitude
    split
    · decide
    have digits := newline_not_mem_toDigits (b := 10) (by decide) (Shortest.digits m e).digits
    dsimp only
    split
    · exact oneLine_positional digits _
    · exact oneLine_scientific digits _

theorem oneLine_float (x : Float) : OneLine (floatText x) := oneLine_double _

end Floats

namespace Json

theorem oneLine_enclosed {opening closing : String} {parts : List String} (start : OneLine opening)
    (stop : OneLine closing) (each : ∀ part ∈ parts, OneLine part) :
    OneLine (opening ++ String.intercalate ", " parts ++ closing) := by
  simp only [oneLine_append]
  exact ⟨⟨start, oneLine_intercalate oneLine_literal each⟩, stop⟩

mutual

theorem oneLine_display (v : Json) : OneLine v.display := by
  cases v with
  | null => decide
  | bool b => cases b <;> decide
  | int n => exact oneLine_int n
  | float x => exact oneLine_float x
  | str s => exact oneLine_quoted s
  | arr items => exact oneLine_enclosed oneLine_literal oneLine_literal (oneLine_displayItems items)
  | obj members => exact oneLine_enclosed oneLine_literal oneLine_literal (oneLine_displayMembers members)

theorem oneLine_displayItems (items : List Json) : ∀ part ∈ displayItems items, OneLine part := by
  cases items with
  | nil => exact nofun
  | cons v rest =>
    exact List.forall_mem_cons.mpr ⟨oneLine_display v, oneLine_displayItems rest⟩

theorem oneLine_displayMembers (members : List (String × Json)) :
    ∀ part ∈ displayMembers members, OneLine part := by
  match members with
  | [] => exact nofun
  | (k, v) :: rest =>
    refine List.forall_mem_cons.mpr ⟨?_, oneLine_displayMembers rest⟩
    simp only [oneLine_append]
    exact ⟨⟨oneLine_quoted k, by decide⟩, oneLine_display v⟩

end

end Json

section Messages

open Binding Command GraphQL

/-- Faults that take several lines: violations of settings, and what others say at such length. -/
inductive Sprawls : Fault → Prop
  | settings (violations manual) : Sprawls (.settings violations manual)
  | file {text} (long : ¬ OneLine text) : Sprawls (.file (.unreadable text))
  | component {b : Breakdown} (long : ¬ OneLine b.text) : Sprawls (.component (.broken b))
  | output {text} (long : ¬ OneLine text) : Sprawls (.output text)

theorem oneLine_fileMessage {fault : FileFault} (short : ¬ Sprawls (.file fault)) :
    OneLine fault.message := by
  unfold FileFault.message
  cases fault <;> simp only [oneLine_append, oneLine_quoted, and_true]
  case unreadable text => exact Classical.not_not.mp fun long => short (.file long)
  all_goals exact oneLine_literal

theorem oneLine_jsonFault (fault : JsonFault) : OneLine fault.message := by
  unfold JsonFault.message
  cases fault <;> dsimp only
  case longInteger digits =>
    simp only [oneLine_append, oneLine_nat, and_true]
    and_intros <;> exact oneLine_literal
  all_goals exact oneLine_literal

theorem oneLine_jsonMessage (e : JsonError) : OneLine e.message := by
  unfold JsonError.message
  split
  · simp only [oneLine_append, oneLine_nat, oneLine_jsonFault, true_and, and_true]
    and_intros <;> exact oneLine_literal
  · exact oneLine_jsonFault e.fault

theorem oneLine_nameMessage (fault : NameFault) : OneLine fault.message := by
  unfold NameFault.message
  cases fault <;> simp only [oneLine_append, oneLine_quoted, and_true]
  case empty => exact oneLine_literal
  all_goals and_intros <;> exact oneLine_literal

theorem oneLine_componentMessage {fault : ComponentFault} (short : ¬ Sprawls (.component fault)) :
    OneLine fault.message := by
  unfold ComponentFault.message
  cases fault <;> dsimp only
  case broken b => exact Classical.not_not.mp fun long => short (.component long)
  case notPackage name parent =>
    simp only [oneLine_append, oneLine_quoted, and_true]
    and_intros <;> exact oneLine_literal
  case missing name =>
    exact oneLine_append.mpr ⟨oneLine_literal, oneLine_quoted name⟩
  all_goals exact oneLine_literal

theorem oneLine_shapeMessage (fault : ShapeFault) : OneLine fault.message := by
  unfold ShapeFault.message
  cases fault <;> simp only [oneLine_append, oneLine_quoted, oneLine_nat, and_true]
  all_goals and_intros <;> exact oneLine_literal

theorem oneLine_message (e : WitSchema.Error) : OneLine e.message := by
  unfold WitSchema.Error.message
  cases e <;> simp only [oneLine_append, oneLine_nat, oneLine_int,
    oneLine_quoted, oneLine_shapeMessage, oneLine_nameMessage, Json.oneLine_display, true_and,
    and_true]
  case noWorld name =>
    refine ⟨⟨oneLine_literal, ?_⟩, oneLine_literal⟩
    cases name with
    | none => exact oneLine_literal
    | some name =>
      dsimp only
      split
      · exact oneLine_literal
      · exact oneLine_quoted name
  case typeCycle chain =>
    refine ⟨oneLine_literal, oneLine_intercalate oneLine_literal ?_⟩
    intro part member
    obtain ⟨id, -, rfl⟩ := List.mem_map.mp member
    exact oneLine_nat id
  all_goals and_intros <;> exact oneLine_literal

theorem not_oneLine_violationsText {manual : Option String} {vs : List Violation} (h : vs ≠ []) :
    ¬ OneLine (violationsText manual vs) := by
  obtain ⟨v, rest, rfl⟩ := List.exists_cons_of_ne_nil h
  unfold OneLine violationsText
  rw [Classical.not_not, String.toList_intercalate, List.map_cons, List.map_cons, List.map_cons,
    List.intercalate_cons_cons]
  exact List.mem_append_left _ (List.mem_append_right _ (by decide))

theorem oneLine_faultMessage {fault : Fault} (short : ¬ Sprawls fault) : OneLine fault.message := by
  unfold Fault.message
  cases fault with
  | file fault => exact oneLine_fileMessage short
  | json e => exact oneLine_jsonMessage e
  | graph e => exact oneLine_message e
  | component fault => exact oneLine_componentMessage short
  | settings violations manual => exact absurd (.settings violations manual) short
  | output text => exact Classical.not_not.mp fun long => short (.output long)
  | unnamedGraph | noDocument | deepDocument => exact oneLine_literal

end Messages

end WitSchema
