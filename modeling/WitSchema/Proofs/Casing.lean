import Mathlib.Data.List.Chain
import WitSchema.Binding.Assembly
import WitSchema.Proofs.Name

/-! Spellings of any text, made of words or not. Joining takes out the hyphens
before lower-case letters and leaves none behind, so it does nothing to a text
that is joined. Where the first character is ASCII the two spellings are the
joined text with that character in one case or the other, and to spell one of
them again is to spell the text. -/

namespace WitSchema

namespace Name

/-- What joining may do to a text: a hyphen and a lower-case letter after it become the capital
letter, every other character stays, and the order is kept. -/
inductive Joins : List Char → List Char → Prop
  | nil : Joins [] []
  | keep (c) {text joined} (rest : Joins text joined) : Joins (c :: text) (c :: joined)
  | capital {c text joined} (lower : isLower c = true) (rest : Joins text joined) :
      Joins ('-' :: c :: text) (c.toUpper :: joined)

def Joined (text : List Char) : Prop := text.IsChain fun c d => c = '-' → isLower d = false

section Joining

variable {c : Char} {text joined : List Char}

theorem joinWords_capital (lower : isLower c = true) (text : List Char) :
    joinWords ('-' :: c :: text) = c.toUpper :: joinWords text := by
  rw [joinWords, if_pos lower]

theorem joinWords_keep (apart : ∀ d ∈ text.head?, c = '-' → isLower d = false) :
    joinWords (c :: text) = c :: joinWords text := by
  cases text with
  | nil => simp [joinWords]
  | cons d text =>
    by_cases hyphen : c = '-'
    · subst hyphen
      rw [joinWords, apart d rfl rfl]
      rfl
    · rw [joinWords]
      exact fun _ _ same => absurd same hyphen

theorem toUpper_ne_hyphen (lower : isLower c = true) : c.toUpper ≠ '-' := by
  apply forall_isLower _ lower
  decide

theorem isLower_toUpper_eq_false (lower : isLower c = true) : isLower c.toUpper = false := by
  apply forall_isLower _ lower
  decide

theorem Joins.refl (text : List Char) : Joins text text := by
  induction text with
  | nil => exact .nil
  | cons c text ih => exact .keep c ih

theorem Joins.head (h : Joins (c :: text) joined) (other : isLower c = false) :
    ∀ d ∈ joined.head?, isLower d = false := by
  cases h with
  | keep =>
    rintro d ⟨⟩
    exact other
  | capital lower =>
    rintro d ⟨⟩
    exact isLower_toUpper_eq_false lower

theorem joins_joinWords (text : List Char) : Joins text (joinWords text) := by
  fun_induction joinWords text with
  | case1 c rest lower ih => exact .capital lower ih
  | case2 c rest lower ih => exact .keep '-' ih
  | case3 c rest other ih => exact .keep c ih
  | case4 => exact .nil

theorem joined_joinWords (text : List Char) : Joined (joinWords text) := by
  fun_induction joinWords text with
  | case1 c rest lower ih =>
    exact List.isChain_cons.mpr ⟨fun d _ same => absurd same (toUpper_ne_hyphen lower), ih⟩
  | case2 c rest lower ih =>
    have next := (joins_joinWords (c :: rest)).head (by simpa using lower)
    exact List.isChain_cons.mpr ⟨fun d head _ => next d head, ih⟩
  | case3 c rest other ih =>
    refine List.isChain_cons.mpr ⟨fun d head hyphen => ?_, ih⟩
    cases rest with
    | nil => cases head
    | cons next rest => exact (other next rest hyphen rfl).elim
  | case4 => exact .nil

/-- Joining takes out all hyphens that it may take out, so only one text can come of it. -/
theorem Joins.unique (h : Joins text joined) (full : Joined joined) : joined = joinWords text := by
  induction h with
  | nil => rfl
  | @keep c text joined rest ih =>
    obtain ⟨next, later⟩ := List.isChain_cons.mp full
    rw [ih later, joinWords_keep fun d head hyphen => ?_]
    -- a lower-case letter after the hyphen would have been kept with it
    by_contra lower
    rw [Bool.not_eq_false] at lower
    cases rest with
    | nil => cases head
    | keep =>
      cases head
      exact absurd (next _ rfl hyphen) (by simp [lower])
    | capital =>
      cases head
      exact absurd lower (by decide)
  | @capital c text joined lower rest ih =>
    rw [joinWords_capital lower, ih (List.isChain_cons.mp full).2]

theorem joinWords_of_joined (h : Joined text) : joinWords text = text :=
  ((Joins.refl text).unique h).symm

end Joining

section Ascii

theorem forall_ascii {p : Char → Prop} [DecidablePred p]
    (characters : ∀ n, n < 128 → p (Char.ofNat n)) {c : Char} (ascii : c.val < 0x80) : p c := by
  have known := characters c.toNat (UInt32.lt_iff_toNat_lt.mp ascii)
  rwa [Char.ofNat_toNat] at known

theorem recased_ascii {c d : Char} (ascii : c.val < 0x80) (stands : d = c.toLower ∨ d = c.toUpper) :
    d.val < 0x80 ∧ (d = '-' → c = '-') ∧ d.toLower = c.toLower ∧ d.toUpper = c.toUpper := by
  rcases stands with rfl | rfl
  · apply forall_ascii _ ascii
    decide
  · apply forall_ascii _ ascii
    decide

variable {c d : Char} {text rest : List Char}

theorem camelChars_ascii (joined : joinWords text = c :: rest) (ascii : c.val < 0x80) :
    camelChars text = c.toLower :: rest := by
  rw [camelChars, joined, mapFirst, LetterCase.lower, if_pos ascii]
  rfl

theorem pascalChars_ascii (joined : joinWords text = c :: rest) (ascii : c.val < 0x80) :
    pascalChars text = c.toUpper :: rest := by
  rw [pascalChars, joined, mapFirst, LetterCase.upper, if_pos ascii]
  rfl

theorem respelled_ascii (joined : Joined (c :: rest)) (ascii : c.val < 0x80)
    (stands : d = c.toLower ∨ d = c.toUpper) :
    camelChars (d :: rest) = c.toLower :: rest ∧ pascalChars (d :: rest) = c.toUpper :: rest := by
  obtain ⟨ascii', hyphen, lower, upper⟩ := recased_ascii ascii stands
  obtain ⟨next, later⟩ := List.isChain_cons.mp joined
  have kept : joinWords (d :: rest) = d :: rest := joinWords_of_joined
    (List.isChain_cons.mpr ⟨fun e head same => next e head (hyphen same), later⟩)
  rw [camelChars_ascii kept ascii', pascalChars_ascii kept ascii', lower, upper]
  exact ⟨rfl, rfl⟩

theorem respelled {name spelling : String}
    (ascii : ∀ c ∈ (joinWords name.toList).head?, c.val < 0x80)
    (spelled : spelling ∈ [camel name, pascal name]) :
    camel spelling = camel name ∧ pascal spelling = pascal name := by
  have texts : spelling.toList = camelChars name.toList ∨
      spelling.toList = pascalChars name.toList := by
    simp only [List.mem_cons, List.not_mem_nil, or_false] at spelled
    rcases spelled with rfl | rfl
    · exact .inl String.toList_ofList
    · exact .inr String.toList_ofList
  suffices same : camelChars spelling.toList = camelChars name.toList ∧
      pascalChars spelling.toList = pascalChars name.toList by
    rw [camel, pascal, same.1, same.2]
    exact ⟨rfl, rfl⟩
  cases joined : joinWords name.toList with
  | nil =>
    have empty : spelling.toList = [] := by
      rw [camelChars, pascalChars, joined] at texts
      exact texts.elim id id
    rw [empty, camelChars, pascalChars, camelChars, pascalChars, joined]
    exact ⟨rfl, rfl⟩
  | cons c rest =>
    rw [joined] at ascii
    have first := ascii c rfl
    have whole : Joined (c :: rest) := joined ▸ joined_joinWords name.toList
    rw [camelChars_ascii joined first, pascalChars_ascii joined first] at texts ⊢
    rcases texts with text | text
    · rw [text]
      exact respelled_ascii whole first (.inl rfl)
    · rw [text]
      exact respelled_ascii whole first (.inr rfl)

end Ascii

/-- Of any text, joining takes out the hyphens directly before lower-case letters and puts capitals
for these letters; it leaves no such hyphen, all else stays as it is, and nothing else could come of
that. If the first character is ASCII then, spelling a spelling is spelling the text: so a function
is looked for under the same key whichever of them it is exported under. -/
theorem spelled_once (name : String) :
    Joins name.toList (joinWords name.toList) ∧ Joined (joinWords name.toList) ∧
    (∀ joined, Joins name.toList joined → Joined joined → joined = joinWords name.toList) ∧
    ((∀ c ∈ (joinWords name.toList).head?, c.val < 0x80) →
      ∀ spelling ∈ [camel name, pascal name],
        camel spelling = camel name ∧ pascal spelling = pascal name ∧
        ∀ settings f, Binding.resolver settings spelling f = Binding.resolver settings name f) := by
  refine ⟨joins_joinWords _, joined_joinWords _, fun joined joins full => joins.unique full, ?_⟩
  intro ascii spelling spelled
  obtain ⟨camelled, pascalled⟩ := respelled ascii spelled
  refine ⟨camelled, pascalled, fun settings f => ?_⟩
  rw [Binding.resolver, Binding.resolver, Binding.fieldName, Binding.fieldName, camelled]

/-- The first letter may be one that has just been joined; a hyphen before a digit stays. -/
theorem hyphen_first_spelled_once : joinWords "-user--id-2".toList = "User-Id-2".toList ∧
    camel "-user--id-2" = "user-Id-2" ∧ camel "user-Id-2" = "user-Id-2" ∧
    pascal "user-Id-2" = "User-Id-2" ∧ camel "User-Id-2" = "user-Id-2" ∧
    pascal "User-Id-2" = "User-Id-2" := by
  have words : joinWords "-user--id-2".toList = "User-Id-2".toList := by decide
  have camelled : camel "-user--id-2" = "user-Id-2" := by decide
  have pascalled : pascal "-user--id-2" = "User-Id-2" := by decide
  obtain ⟨-, -, -, spelled⟩ := spelled_once "-user--id-2"
  have ascii : ∀ c ∈ (joinWords "-user--id-2".toList).head?, c.val < 0x80 := by
    rw [words]
    rintro c ⟨⟩
    decide
  obtain ⟨again, other, -⟩ := spelled ascii _ List.mem_cons_self
  obtain ⟨again', other', -⟩ := spelled ascii _ (List.mem_cons_of_mem _ List.mem_cons_self)
  rw [camelled] at again other again'
  rw [pascalled] at other other' again'
  exact ⟨words, camelled, again, other, again', other'⟩

/-- Beyond ASCII a letter may be several in the other case, and then it is not got back. -/
example : camel (pascal "ßa") = "sSa" ∧ camel "ßa" = "ßa" := by decide +kernel

end Name

end WitSchema
