import Mathlib.Data.List.Basic
import WitSchema.Name

/-! Names made of lower-case words with single hyphens between them. Both
spellings of such a name are legal in a schema, and the name can be read back
from each of them: a capital letter of the spelling starts a word. So no two
such names are spelled alike. -/

namespace WitSchema

namespace GraphQL

theorem checkName_ok_iff {name : String} :
    checkName name = .ok () ↔ isNameChars name.toList = true := by
  unfold checkName
  cases name.toList with
  | nil => simp [isNameChars]
  | cons c rest =>
    by_cases hrest : rest.all isNameCharacter = true
    · by_cases hc : isNameStart c = true
      · simp [isNameChars, hrest, hc]
      · simp [isNameChars, hrest, hc]
    · simp [isNameChars, hrest]

end GraphQL

namespace Name

open GraphQL

def isWordCharacter (c : Char) : Bool := isLower c || c.isDigit

def isWord : List Char → Bool
  | c :: rest => isLower c && rest.all isWordCharacter
  | [] => false

def hyphenated (first : List Char) (rest : List (List Char)) : List Char :=
  first ++ rest.flatMap ('-' :: ·)

def Kebab (name : String) : Prop :=
  ∃ first rest, isWord first = true ∧ (∀ w ∈ rest, isWord w = true) ∧
    name.toList = hyphenated first rest

theorem kebab_of_isWord {name : String} (h : isWord name.toList = true) : Kebab name :=
  ⟨name.toList, [], h, fun _ member => absurd member List.not_mem_nil, (List.append_nil _).symm⟩

def capital : List Char → List Char
  | c :: rest => c.toUpper :: rest
  | [] => []

def hyphenateChar (c : Char) : List Char := if c.isUpper then ['-', c.toLower] else [c]

def hyphenateChars : List Char → List Char
  | c :: rest => c.toLower :: rest.flatMap hyphenateChar
  | [] => []

/-- The name that is spelled so: the first character is lower-cased, and each later capital letter
begins a word. -/
def hyphenate (spelling : String) : String := String.ofList (hyphenateChars spelling.toList)

/-- The spelling begins with a letter that stands for the first one of the name, and goes on with
what is left of the first word and with the later words in capitals. -/
structure Spells (name : String) (c : Char) (letters : List Char) (words : List (List Char))
    (spelling : String) (first : Char) : Prop where
  start : isLower c = true
  tail : ∀ d ∈ letters, isWordCharacter d = true
  later : ∀ w ∈ words, isWord w = true
  chars : name.toList = c :: letters ++ words.flatMap ('-' :: ·)
  stands : first = c ∨ first = c.toUpper
  spelled : spelling.toList = first :: (letters ++ words.flatMap capital)

section Characters

theorem forall_isLower {p : Char → Prop} [DecidablePred p]
    (letters : ∀ n, n < 26 → p (Char.ofNat (97 + n))) {c : Char} (h : isLower c = true) : p c := by
  simp only [isLower, Bool.and_eq_true, decide_eq_true_eq, Char.le_def, UInt32.le_iff_toNat_le] at h
  have range : 97 ≤ c.toNat ∧ c.toNat ≤ 122 := h
  have known := letters (c.toNat - 97) (by omega)
  rwa [Nat.add_sub_cancel' range.1, Char.ofNat_toNat] at known

theorem isLower_toUpper {c : Char} (h : isLower c = true) : c.toUpper.isUpper = true := by
  apply forall_isLower _ h
  decide

theorem isLower_toLower {c : Char} (h : isLower c = true) : c.toLower = c := by
  apply forall_isLower _ h
  decide

theorem isLower_ascii {c : Char} (h : isLower c = true) : c.val < 0x80 := by
  apply forall_isLower _ h
  decide

theorem toLower_toUpper {c : Char} (h : isLower c = true) : c.toUpper.toLower = c := by
  apply forall_isLower _ h
  decide

theorem isWordCharacter_not_upper {c : Char} (h : isWordCharacter c = true) :
    c.isUpper = false := by
  rcases Bool.or_eq_true_iff.mp h with lower | digit
  · apply forall_isLower _ lower
    decide
  · simp only [Char.isDigit, Bool.and_eq_true, decide_eq_true_eq, ge_iff_le,
      UInt32.le_iff_toNat_le] at digit
    have range : 48 ≤ c.val.toNat ∧ c.val.toNat ≤ 57 := digit
    apply decide_eq_false
    rintro ⟨upper, -⟩
    have above : 65 ≤ c.val.toNat := UInt32.le_iff_toNat_le.mp upper
    omega

theorem isAlpha_of_isUpper {c : Char} (h : c.isUpper = true) : c.isAlpha = true :=
  Bool.or_eq_true_iff.mpr (.inl h)

theorem isAlphanum_of_isUpper {c : Char} (h : c.isUpper = true) : c.isAlphanum = true :=
  Bool.or_eq_true_iff.mpr (.inl (isAlpha_of_isUpper h))

theorem isWordCharacter_alphanum {c : Char} (h : isWordCharacter c = true) :
    c.isAlphanum = true := by
  rcases Bool.or_eq_true_iff.mp h with lower | digit
  · apply forall_isLower _ lower
    decide
  · simp [Char.isAlphanum, digit]

theorem isWordCharacter_of_lower {c : Char} (h : isLower c = true) : isWordCharacter c = true := by
  simp [isWordCharacter, h]

end Characters

section Words

variable {w : List Char} {words : List (List Char)}

theorem exists_of_isWord (h : isWord w = true) :
    ∃ c rest, w = c :: rest ∧ isLower c = true ∧ ∀ d ∈ rest, isWordCharacter d = true := by
  cases w with
  | nil => exact absurd h Bool.false_ne_true
  | cons c rest =>
    obtain ⟨first, others⟩ := Bool.and_eq_true_iff.mp h
    exact ⟨c, rest, rfl, first, List.all_eq_true.mp others⟩

theorem isWordCharacter_of_mem (h : isWord w = true) {c : Char} (member : c ∈ w) :
    isWordCharacter c = true := by
  obtain ⟨d, rest, rfl, first, others⟩ := exists_of_isWord h
  rcases List.mem_cons.mp member with rfl | member
  · exact isWordCharacter_of_lower first
  · exact others c member

theorem joinWords_append (h : ∀ c ∈ w, isWordCharacter c = true) (tail : List Char) :
    joinWords (w ++ tail) = w ++ joinWords tail := by
  induction w with
  | nil => rfl
  | cons c rest ih =>
    have other : c ≠ '-' := by
      rintro rfl
      exact absurd (h _ List.mem_cons_self) (by decide)
    rw [List.cons_append, joinWords, ih fun d member => h d (List.mem_cons_of_mem _ member)]
    · rfl
    · exact fun _ _ same => absurd same other

theorem joinWords_words (h : ∀ w ∈ words, isWord w = true) :
    joinWords (words.flatMap ('-' :: ·)) = words.flatMap capital := by
  induction words with
  | nil => rfl
  | cons w rest ih =>
    obtain ⟨c, letters, rfl, first, others⟩ := exists_of_isWord (h w List.mem_cons_self)
    rw [List.flatMap_cons, List.flatMap_cons, List.cons_append, List.cons_append, joinWords,
      if_pos first, joinWords_append others, ih fun v member => h v (List.mem_cons_of_mem _ member)]
    rfl

theorem joinWords_hyphenated (first : isWord w = true) (rest : ∀ w ∈ words, isWord w = true) :
    joinWords (hyphenated w words) = w ++ words.flatMap capital := by
  rw [hyphenated, joinWords_append fun c => isWordCharacter_of_mem first, joinWords_words rest]

theorem pascalChars_hyphenated (first : isWord w = true) (rest : ∀ w ∈ words, isWord w = true) :
    pascalChars (hyphenated w words) = (w :: words).flatMap capital := by
  rw [pascalChars, joinWords_hyphenated first rest]
  obtain ⟨c, letters, rfl, start, -⟩ := exists_of_isWord first
  simp only [List.cons_append, mapFirst, LetterCase.upper, isLower_ascii start, if_true]
  rfl

theorem camelChars_hyphenated (first : isWord w = true) (rest : ∀ w ∈ words, isWord w = true) :
    camelChars (hyphenated w words) = w ++ words.flatMap capital := by
  rw [camelChars, joinWords_hyphenated first rest]
  obtain ⟨c, letters, rfl, start, -⟩ := exists_of_isWord first
  simp only [List.cons_append, mapFirst, LetterCase.lower, isLower_ascii start, if_true,
    isLower_toLower start]
  rfl

/-! ### Spellings are legal -/

theorem capital_alphanum (h : isWord w = true) : ∀ c ∈ capital w, c.isAlphanum = true := by
  obtain ⟨d, rest, rfl, first, others⟩ := exists_of_isWord h
  intro c member
  rcases List.mem_cons.mp member with rfl | member
  · exact isAlphanum_of_isUpper (isLower_toUpper first)
  · exact isWordCharacter_alphanum (others c member)

theorem capitals_alphanum (h : ∀ w ∈ words, isWord w = true) :
    ∀ c ∈ words.flatMap capital, c.isAlphanum = true := by
  intro c member
  obtain ⟨w, there, member⟩ := List.mem_flatMap.mp member
  exact capital_alphanum (h w there) c member

theorem isNameChars_of_alphanum {c : Char} {rest : List Char} (first : c.isAlpha = true)
    (others : ∀ d ∈ rest, d.isAlphanum = true) : isNameChars (c :: rest) = true := by
  simp only [isNameChars, isNameStart, first, Bool.true_or, Bool.true_and, List.all_eq_true]
  intro d member
  simp [isNameCharacter, others d member]

/-! ### Spellings are read back -/

theorem hyphenate_wordCharacters (h : ∀ c ∈ w, isWordCharacter c = true) :
    w.flatMap hyphenateChar = w := by
  induction w with
  | nil => rfl
  | cons c rest ih =>
    have lower := isWordCharacter_not_upper (h c List.mem_cons_self)
    rw [List.flatMap_cons, ih fun d member => h d (List.mem_cons_of_mem _ member), hyphenateChar,
      lower]
    rfl

theorem hyphenate_capital (h : isWord w = true) : (capital w).flatMap hyphenateChar = '-' :: w := by
  obtain ⟨c, letters, rfl, first, others⟩ := exists_of_isWord h
  rw [capital, List.flatMap_cons, hyphenate_wordCharacters others, hyphenateChar,
    isLower_toUpper first, if_pos rfl, toLower_toUpper first]
  rfl

theorem hyphenate_capitals (h : ∀ w ∈ words, isWord w = true) :
    (words.flatMap capital).flatMap hyphenateChar = words.flatMap ('-' :: ·) := by
  rw [List.flatMap_assoc]
  exact List.flatMap_congr fun w member => hyphenate_capital (h w member)

theorem length_capital (w : List Char) : (capital w).length = w.length := by
  cases w <;> rfl

theorem count_hyphen_word (h : isWord w = true) : w.count '-' = 0 := by
  refine List.count_eq_zero.mpr fun member => ?_
  exact absurd (isWordCharacter_of_mem h member) (by decide)

theorem length_capitals (h : ∀ w ∈ words, isWord w = true) :
    (words.flatMap capital).length + (words.flatMap ('-' :: ·)).count '-' =
      (words.flatMap ('-' :: ·)).length := by
  induction words with
  | nil => rfl
  | cons w rest ih =>
    rw [List.forall_mem_cons] at h
    have later := ih h.2
    have own := count_hyphen_word h.1
    simp only [List.flatMap_cons, List.length_append, List.count_append, List.length_cons,
      List.count_cons_self, length_capital, own]
    omega

end Words

namespace Spells

variable {name spelling : String} {c first : Char} {letters : List Char} {words : List (List Char)}

theorem letter (h : Spells name c letters words spelling first) :
    first.isAlpha = true ∧ first.toLower = c := by
  obtain rfl | rfl := h.stands
  · refine ⟨?_, isLower_toLower h.start⟩
    apply forall_isLower _ h.start
    decide
  · exact ⟨isAlpha_of_isUpper (isLower_toUpper h.start), toLower_toUpper h.start⟩

theorem alphanum (h : Spells name c letters words spelling first) :
    ∀ d ∈ letters ++ words.flatMap capital, d.isAlphanum = true :=
  List.forall_mem_append.mpr
    ⟨fun d member => isWordCharacter_alphanum (h.tail d member), capitals_alphanum h.later⟩

theorem legal (h : Spells name c letters words spelling first) :
    isNameChars spelling.toList = true := by
  rw [h.spelled]
  exact isNameChars_of_alphanum h.letter.1 h.alphanum

theorem not_mem (h : Spells name c letters words spelling first) {d : Char}
    (other : d.isAlphanum = false) : d ∉ spelling.toList := by
  rw [h.spelled]
  intro member
  obtain rfl | member := List.mem_cons.mp member
  · simp [Char.isAlphanum, h.letter.1] at other
  · simp [h.alphanum d member] at other

theorem length_add_count (h : Spells name c letters words spelling first) :
    spelling.length + name.toList.count '-' = name.length := by
  have word : isWord (c :: letters) = true :=
    Bool.and_eq_true_iff.mpr ⟨h.start, List.all_eq_true.mpr h.tail⟩
  have later := length_capitals h.later
  rw [← String.length_toList, ← String.length_toList, h.spelled, h.chars, List.count_append,
    count_hyphen_word word]
  simp only [List.length_cons, List.length_append]
  omega

theorem hyphenate_eq (h : Spells name c letters words spelling first) :
    hyphenate spelling = name := by
  apply String.toList_injective
  rw [hyphenate, String.toList_ofList, h.spelled, hyphenateChars, List.flatMap_append,
    hyphenate_wordCharacters h.tail, hyphenate_capitals h.later, h.letter.2, h.chars]
  rfl

end Spells

section Kebab

variable {name other : String}

theorem Kebab.spells (h : Kebab name) : ∃ c letters words,
    Spells name c letters words (camel name) c ∧
      Spells name c letters words (pascal name) c.toUpper := by
  obtain ⟨w, words, first, later, chars⟩ := h
  have camelled := camelChars_hyphenated first later
  have pascalled := pascalChars_hyphenated first later
  obtain ⟨c, letters, rfl, start, tail⟩ := exists_of_isWord first
  refine ⟨c, letters, words, ⟨start, tail, later, chars, .inl rfl, ?_⟩,
    ⟨start, tail, later, chars, .inr rfl, ?_⟩⟩
  · rw [camel, String.toList_ofList, chars, camelled]
    rfl
  · rw [pascal, String.toList_ofList, chars, pascalled]
    rfl

theorem Kebab.pascal_legal (h : Kebab name) : isNameChars (pascal name).toList = true := by
  obtain ⟨_, _, _, -, spells⟩ := h.spells
  exact spells.legal

theorem Kebab.camel_legal (h : Kebab name) : isNameChars (camel name).toList = true := by
  obtain ⟨_, _, _, spells, -⟩ := h.spells
  exact spells.legal

theorem Kebab.underscore_not_mem_pascal (h : Kebab name) : '_' ∉ (pascal name).toList := by
  obtain ⟨_, _, _, -, spells⟩ := h.spells
  exact spells.not_mem (by decide)

theorem Kebab.underscore_not_mem_camel (h : Kebab name) : '_' ∉ (camel name).toList := by
  obtain ⟨_, _, _, spells, -⟩ := h.spells
  exact spells.not_mem (by decide)

theorem Kebab.hyphenate_pascal (h : Kebab name) : hyphenate (pascal name) = name := by
  obtain ⟨_, _, _, -, spells⟩ := h.spells
  exact spells.hyphenate_eq

theorem Kebab.hyphenate_camel (h : Kebab name) : hyphenate (camel name) = name := by
  obtain ⟨_, _, _, spells, -⟩ := h.spells
  exact spells.hyphenate_eq

theorem Kebab.pascal_injective (h : Kebab name) (h' : Kebab other)
    (same : pascal name = pascal other) : name = other := by
  rw [← h.hyphenate_pascal, same, h'.hyphenate_pascal]

theorem Kebab.camel_injective (h : Kebab name) (h' : Kebab other)
    (same : camel name = camel other) : name = other := by
  rw [← h.hyphenate_camel, same, h'.hyphenate_camel]

/-- Both spellings of a name are legal and consist of all its characters but the hyphens. They
differ in the case of the first letter only, and the name can be read back from either of them, so
no other name has one of them in common with it. -/
theorem Kebab.recovered (h : Kebab name) :
    (∀ spelling ∈ [camel name, pascal name],
      checkName spelling = .ok () ∧ '-' ∉ spelling.toList ∧
      spelling.length + name.toList.count '-' = name.length ∧ hyphenate spelling = name) ∧
    (∃ c rest, isLower c = true ∧ (camel name).toList = c :: rest ∧
      (pascal name).toList = c.toUpper :: rest) ∧
    ∀ other, Kebab other → name ≠ other →
      camel name ≠ camel other ∧ pascal name ≠ pascal other := by
  obtain ⟨c, letters, words, camelled, pascalled⟩ := h.spells
  have spelling {spelling first} (spells : Spells name c letters words spelling first) :
      checkName spelling = .ok () ∧ '-' ∉ spelling.toList ∧
        spelling.length + name.toList.count '-' = name.length ∧ hyphenate spelling = name :=
    ⟨checkName_ok_iff.mpr spells.legal, spells.not_mem (by decide), spells.length_add_count,
      spells.hyphenate_eq⟩
  refine ⟨?_, ⟨c, _, camelled.start, camelled.spelled, pascalled.spelled⟩, ?_⟩
  · rw [List.forall_mem_cons, List.forall_mem_singleton]
    exact ⟨spelling camelled, spelling pascalled⟩
  · intro other kebab different
    exact ⟨fun same => different (h.camel_injective kebab same),
      fun same => different (h.pascal_injective kebab same)⟩

/-- A word of one letter stays apart from the word before it. -/
theorem one_letter_recovered : Kebab "a-b2-c" ∧ Kebab "ab2-c" ∧ camel "a-b2-c" = "aB2C" ∧
    checkName "aB2C" = .ok () ∧ hyphenate "aB2C" = "a-b2-c" ∧ hyphenate "AB2C" = "a-b2-c" ∧
    camel "a-b2-c" ≠ camel "ab2-c" ∧ pascal "a-b2-c" ≠ pascal "ab2-c" := by
  have name : Kebab "a-b2-c" :=
    ⟨"a".toList, ["b2".toList, "c".toList], by decide, by decide, by decide⟩
  have other : Kebab "ab2-c" := ⟨"ab2".toList, ["c".toList], by decide, by decide, by decide⟩
  have camelled : camel "a-b2-c" = "aB2C" := by decide
  have pascalled : pascal "a-b2-c" = "AB2C" := by decide
  obtain ⟨spellings, -, apart⟩ := name.recovered
  obtain ⟨legal, -, -, back⟩ := spellings _ List.mem_cons_self
  obtain ⟨-, -, -, back'⟩ := spellings _ (List.mem_cons_of_mem _ List.mem_cons_self)
  rw [camelled] at legal back
  rw [pascalled] at back'
  exact ⟨name, other, camelled, legal, back, back', apart _ other (by decide)⟩

end Kebab

/-! ### Names that are taken -/

section Taken

theorem append_input_chars {name : String} {w : List Char} {words : List (List Char)}
    (chars : name.toList = hyphenated w words) :
    (name ++ "-input").toList = hyphenated w (words ++ ["input".toList]) := by
  rw [String.toList_append, chars, hyphenated, hyphenated, List.flatMap_append, List.append_assoc]
  rfl

theorem isWord_append_input {words : List (List Char)} (h : ∀ w ∈ words, isWord w = true) :
    ∀ w ∈ words ++ ["input".toList], isWord w = true :=
  List.forall_mem_append.mpr ⟨h, List.forall_mem_singleton.mpr (by decide)⟩

theorem Kebab.append_input {name : String} (h : Kebab name) : Kebab (name ++ "-input") := by
  obtain ⟨w, words, first, others, chars⟩ := h
  exact ⟨w, _, first, isWord_append_input others, append_input_chars chars⟩

theorem Kebab.pascal_append_input {name : String} (h : Kebab name) :
    pascal (name ++ "-input") = pascal name ++ "Input" := by
  obtain ⟨w, words, first, others, chars⟩ := h
  apply String.toList_injective
  rw [pascal, append_input_chars chars, pascalChars_hyphenated first (isWord_append_input others),
    String.toList_append, pascal, chars, pascalChars_hyphenated first others]
  simp only [String.toList_ofList, ← List.cons_append, List.flatMap_append]
  rfl

/-- The names that are spelled as the name of a type that every schema has. -/
def reservedTexts : List String := ["boolean", "float", "i-d", "int", "string"]

theorem Kebab.mem_reservedTexts {name : String} (h : Kebab name)
    (reserved : pascal name ∈ reservedNames) : name ∈ reservedTexts := by
  have builtin : ∀ r ∈ reservedNames, '_' ∉ r.toList → ∃ text ∈ reservedTexts, pascal text = r := by
    decide
  have words : ∀ text ∈ reservedTexts, Kebab text := by
    intro text member
    simp only [reservedTexts, List.mem_cons, List.not_mem_nil, or_false] at member
    rcases member with rfl | rfl | rfl | rfl | rfl
    · exact kebab_of_isWord (by decide)
    · exact kebab_of_isWord (by decide)
    · exact ⟨"i".toList, ["d".toList], by decide, by decide, by decide⟩
    · exact kebab_of_isWord (by decide)
    · exact kebab_of_isWord (by decide)
  obtain ⟨text, member, same⟩ := builtin _ reserved h.underscore_not_mem_pascal
  rw [← (words text member).pascal_injective h same]
  exact member

end Taken

end Name

end WitSchema
