import Mathlib.Algebra.Group.Nat.Defs
import Unmask.Dispatch
import Unmask.Proofs.TextParts

/-!
# How a choice is read

A choice is a name, or a name with a version behind its last underscore. What a text says as a
choice is told here by how it is written, and so is each fault that it can have. Every text is
written in one of these ways, and is read as what it says in it.
-/
namespace Unmask.Choice

open Text Decimal

/-- A version is written in digits, perhaps behind a `v`. -/
inductive IsVersion : List Char → Nat → Prop where
  | bare {digits : List Char} (hne : digits ≠ []) (hdigits : ∀ c ∈ digits, isAsciiDigit c) :
    IsVersion digits (digitsValue digits)
  | marked {mark : Char} {digits : List Char} (hmark : mark = 'v' ∨ mark = 'V')
      (hne : digits ≠ []) (hdigits : ∀ c ∈ digits, isAsciiDigit c) :
    IsVersion (mark :: digits) (digitsValue digits)

variable {text : String} {core name suffix : List Char} {n : Nat}

lemma versionDigits_digits (h : ∀ c ∈ suffix, isAsciiDigit c) : versionDigits suffix = suffix := by
  unfold versionDigits
  split
  · exact absurd (h 'v' List.mem_cons_self) (by decide)
  · exact absurd (h 'V' List.mem_cons_self) (by decide)
  · rfl

/-- What is not a digit of a version can only be the mark before them. -/
lemma versionDigits_cases (suffix : List Char) : suffix = versionDigits suffix ∨
    ∃ mark, (mark = 'v' ∨ mark = 'V') ∧ suffix = mark :: versionDigits suffix := by
  unfold versionDigits
  split
  · exact .inr ⟨'v', .inl rfl, rfl⟩
  · exact .inr ⟨'V', .inr rfl, rfl⟩
  · exact .inl rfl

lemma isVersion_iff : IsVersion suffix n ↔ versionDigits suffix ≠ [] ∧
    (∀ c ∈ versionDigits suffix, isAsciiDigit c) ∧ digitsValue (versionDigits suffix) = n := by
  constructor
  · intro h
    cases h with
    | bare hne hdigits =>
      rw [versionDigits_digits hdigits]
      exact ⟨hne, hdigits, rfl⟩
    | marked hmark hne hdigits =>
      obtain rfl | rfl := hmark <;> exact ⟨hne, hdigits, rfl⟩
  · rintro ⟨hne, hdigits, rfl⟩
    obtain hbare | ⟨mark, hmark, hmarked⟩ := versionDigits_cases suffix
    · have h := IsVersion.bare hne hdigits
      rwa [← hbare] at h ⊢
    · have h := IsVersion.marked hmark hne hdigits
      rwa [← hmarked] at h

/-- Every character of a version may stand in a choice, and none is an underscore. -/
lemma IsVersion.allowed (h : IsVersion suffix n) : ∀ c ∈ suffix, isAllowed c ∧ c ≠ '_' := by
  have hdigit (c : Char) (hc : isAsciiDigit c) : isAllowed c ∧ c ≠ '_' := by
    refine ⟨by simp [isAllowed, isAsciiAlphanumeric, hc], ?_⟩
    rintro rfl
    contradiction
  cases h with
  | bare _ hdigits => exact fun c hc => hdigit c (hdigits c hc)
  | marked hmark _ hdigits =>
    intro c hc
    obtain rfl | hc := List.mem_cons.mp hc
    · obtain rfl | rfl := hmark <;> decide
    · exact hdigit c (hdigits c hc)

lemma IsVersion.not_mem (h : IsVersion suffix n) : '_' ∉ suffix :=
  fun hmem => (h.allowed '_' hmem).2 rfl

lemma splitLast?_of_not_mem (h : '_' ∉ core) : splitLast? core = none := by
  have hall : ∀ c ∈ core.reverse, (c != '_') = true := by
    intro c hc
    rw [bne_iff_ne]
    rintro rfl
    exact h (List.mem_reverse.mp hc)
  rw [splitLast?, List.dropWhile_eq_nil_iff.mpr hall]

lemma splitLast?_append (name : List Char) (h : '_' ∉ suffix) :
    splitLast? (name ++ '_' :: suffix) = some (name, suffix) := by
  have hall : ∀ c ∈ suffix.reverse, (c != '_') = true := by
    intro c hc
    rw [bne_iff_ne]
    rintro rfl
    exact h (List.mem_reverse.mp hc)
  have hreverse : (name ++ '_' :: suffix).reverse = suffix.reverse ++ '_' :: name.reverse := by
    simp
  rw [splitLast?, hreverse, List.dropWhile_append_of_pos hall, List.takeWhile_append_of_pos hall]
  simp

/-- A text without an underscore, or what precedes and follows the last one. -/
lemma exists_splitLast (core : List Char) :
    '_' ∉ core ∨ ∃ name suffix, core = name ++ '_' :: suffix ∧ '_' ∉ suffix := by
  by_cases h : '_' ∈ core
  · obtain ⟨back, front, hreverse, hback⟩ := List.eq_append_cons_of_mem (List.mem_reverse.mpr h)
    refine .inr ⟨front.reverse, back.reverse, ?_, by simpa using hback⟩
    rw [← List.reverse_reverse core, hreverse]
    simp
  · exact .inl h

/-- Characters that a choice may have stand in a text, with nothing but blanks around them. -/
structure Holds (text : String) (core : List Char) : Prop where
  isCore : IsCore text.toList core
  allowed : ∀ c ∈ core, isAllowed c

/-- What a text says as a choice, or the fault that it has. -/
inductive Reads (text : String) : Except RegistryError Choice → Prop where
  | blank (h : ∀ c ∈ text.toList, isBlank c) :
    Reads text (.error (.invalidChoice text .emptyName))
  | foreign {front back : List Char} {c : Char} (h : IsCore text.toList (front ++ c :: back))
      (hfront : ∀ d ∈ front, isAllowed d) (hc : isAllowed c = false) :
    Reads text (.error (.invalidChoice (String.ofList (front ++ c :: back))
      (.unexpectedCharacter c)))
  | unfinished {name : List Char} (h : Holds text (name ++ ['_'])) :
    Reads text (.error (.invalidChoice (String.ofList (name ++ ['_'])) .missingVersion))
  | nameless {suffix : List Char} {n : Nat} (h : Holds text ('_' :: suffix))
      (hversion : IsVersion suffix n) :
    Reads text (.error (.invalidChoice (String.ofList ('_' :: suffix)) .missingName))
  | outOfRange {name suffix : List Char} {n : Nat} (h : Holds text (name ++ '_' :: suffix))
      (hname : name ≠ []) (hversion : IsVersion suffix n) (hlarge : 2 ^ 32 ≤ n) :
    Reads text (.error (.invalidChoice (String.ofList (name ++ '_' :: suffix)) .versionOutOfRange))
  | versioned {name suffix : List Char} {n : Nat} (h : Holds text (name ++ '_' :: suffix))
      (hname : name ≠ []) (hversion : IsVersion suffix n) (hsmall : n < 2 ^ 32) :
    Reads text (.ok ⟨Registry.normalize (String.ofList name), some n⟩)
  | named {core : List Char} (h : Holds text core) (hne : core ≠ [])
      (hfinished : ∀ name, core ≠ name ++ ['_'])
      (hplain : ∀ name suffix n, core = name ++ '_' :: suffix → ¬ IsVersion suffix n) :
    Reads text (.ok ⟨Registry.normalize (String.ofList core), none⟩)

/-- Every text says something, or has a fault. -/
lemma exists_reads (text : String) : ∃ result, Reads text result := by
  have hcore := isCore_trimChars text.toList
  generalize trimChars text.toList = core at hcore
  by_cases hblank : core = []
  · refine ⟨_, .blank (trimChars_isEmpty_iff.mp ?_)⟩
    rw [hcore.trimChars_eq, hblank]
    rfl
  cases hfind : core.find? (!isAllowed ·) with
  | some c =>
    obtain ⟨hc, front, back, rfl, hfront⟩ := List.find?_eq_some_iff_append.mp hfind
    exact ⟨_, .foreign hcore (by simpa using hfront) (by simpa using hc)⟩
  | none =>
    have h : Holds text core := ⟨hcore, by simpa using hfind⟩
    by_cases hfinished : ∃ name, core = name ++ ['_']
    · obtain ⟨name, rfl⟩ := hfinished
      exact ⟨_, .unfinished h⟩
    by_cases hplain : ∀ name suffix n, core = name ++ '_' :: suffix → ¬ IsVersion suffix n
    · exact ⟨_, .named h hblank (by simpa using hfinished) hplain⟩
    · simp only [not_forall, exists_prop, not_not] at hplain
      obtain ⟨name, suffix, n, rfl, hversion⟩ := hplain
      by_cases hname : name = []
      · subst hname
        exact ⟨_, .nameless h hversion⟩
      · obtain hsmall | hlarge := Nat.lt_or_ge n (2 ^ 32)
        · exact ⟨_, .versioned h hname hversion hsmall⟩
        · exact ⟨_, .outOfRange h hname hversion hlarge⟩

/-- Past the check of its characters, a text without an underscore is a name. -/
lemma Holds.parse_whole (h : Holds text core) (hne : core ≠ []) (hsplit : splitLast? core = none) :
    parse text = .ok ⟨Registry.normalize (String.ofList core), none⟩ := by
  have hfind : core.find? (!isAllowed ·) = none := by simpa using h.allowed
  have hfull : core.isEmpty = false := List.isEmpty_eq_false_iff.mpr hne
  simp only [parse, h.isCore.trimChars_eq, hfind, hfull, hsplit, Bool.false_eq_true, if_false]

/-- Another text is read by its last underscore. -/
lemma Holds.parse_split (h : Holds text core) (hsplit : splitLast? core = some (name, suffix)) :
    parse text =
      if suffix.isEmpty then .error (.invalidChoice (String.ofList core) .missingVersion)
      else if (versionDigits suffix).isEmpty || !(versionDigits suffix).all isAsciiDigit then
        .ok ⟨Registry.normalize (String.ofList core), none⟩
      else if (trimChars name).isEmpty then
        .error (.invalidChoice (String.ofList core) .missingName)
      else if Nat.pow 2 32 ≤ digitsValue (versionDigits suffix) then
        .error (.invalidChoice (String.ofList core) .versionOutOfRange)
      else
        .ok ⟨Registry.normalize (String.ofList name),
          some (digitsValue (versionDigits suffix))⟩ := by
  have hfind : core.find? (!isAllowed ·) = none := by simpa using h.allowed
  have hfull : core.isEmpty = false := by
    refine List.isEmpty_eq_false_iff.mpr ?_
    rintro rfl
    rw [splitLast?_of_not_mem List.not_mem_nil] at hsplit
    contradiction
  simp only [parse, h.isCore.trimChars_eq, hfind, hfull, hsplit, Bool.false_eq_true, if_false]

/-- A name that begins what is no blank is more than blanks, if it is anything. -/
lemma Holds.trimChars_name (h : Holds text (name ++ '_' :: suffix)) :
    (trimChars name).isEmpty = name.isEmpty := by
  cases name with
  | nil => rfl
  | cons c name =>
    rw [List.isEmpty_cons, Bool.eq_false_iff, Ne, trimChars_isEmpty_iff]
    intro hblank
    have hfirst := h.isCore.first c rfl
    rw [hblank c List.mem_cons_self] at hfirst
    contradiction

/-- With a version behind its last underscore, a text is read by its name and the size of the
version. -/
lemma Holds.parse_version (h : Holds text (name ++ '_' :: suffix)) (hversion : IsVersion suffix n) :
    parse text =
      if name.isEmpty then
        .error (.invalidChoice (String.ofList (name ++ '_' :: suffix)) .missingName)
      else if 2 ^ 32 ≤ n then
        .error (.invalidChoice (String.ofList (name ++ '_' :: suffix)) .versionOutOfRange)
      else .ok ⟨Registry.normalize (String.ofList name), some n⟩ := by
  have hfree := hversion.not_mem
  obtain ⟨hne, hdigits, rfl⟩ := isVersion_iff.mp hversion
  have hsuffix : suffix ≠ [] := by
    rintro rfl
    exact hne rfl
  have hread : ((versionDigits suffix).isEmpty || !(versionDigits suffix).all isAsciiDigit) =
      false := by
    simpa [hne] using hdigits
  have hlarge : Nat.pow 2 32 = 2 ^ 32 := rfl
  rw [h.parse_split (splitLast?_append name hfree), List.isEmpty_eq_false_iff.mpr hsuffix,
    if_neg Bool.false_ne_true, hread, if_neg Bool.false_ne_true, h.trimChars_name, hlarge]

/-- A text is read as what it says. -/
lemma Reads.parse_eq {result : Except RegistryError Choice} (h : Reads text result) :
    parse text = result := by
  cases h with
  | blank h => rw [parse, if_pos (trimChars_isEmpty_iff.mpr h)]
  | @foreign front back c h hfront hc =>
    have hfind : (front ++ c :: back).find? (!isAllowed ·) = some c := by
      rw [List.find?_eq_some_iff_append]
      exact ⟨by simp [hc], front, back, rfl, by simpa using hfront⟩
    simp [parse, h.trimChars_eq, hfind]
  | unfinished h =>
    rw [h.parse_split (splitLast?_append _ List.not_mem_nil), List.isEmpty_nil, if_pos rfl]
  | @nameless suffix _ h hversion =>
    have hread : Holds text ([] ++ '_' :: suffix) := h
    rw [hread.parse_version hversion, List.isEmpty_nil, if_pos rfl, List.nil_append]
  | outOfRange h hname hversion hlarge =>
    rw [h.parse_version hversion, if_neg (by simpa using hname), if_pos hlarge]
  | versioned h hname hversion hsmall =>
    rw [h.parse_version hversion, if_neg (by simpa using hname), if_neg (Nat.not_le.mpr hsmall)]
  | @named core h hne hfinished hplain =>
    obtain hnone | ⟨name, suffix, rfl, hfree⟩ := exists_splitLast core
    · exact h.parse_whole hne (splitLast?_of_not_mem hnone)
    · have hsuffix : suffix ≠ [] := by
        rintro rfl
        exact hfinished name rfl
      have hdigits : ((versionDigits suffix).isEmpty ||
          !(versionDigits suffix).all isAsciiDigit) = true := by
        by_contra hread
        have hdigits : versionDigits suffix ≠ [] ∧ ∀ c ∈ versionDigits suffix, isAsciiDigit c := by
          simpa using hread
        exact hplain name suffix _ rfl (isVersion_iff.mpr ⟨hdigits.1, hdigits.2, rfl⟩)
      rw [h.parse_split (splitLast?_append name hfree), List.isEmpty_eq_false_iff.mpr hsuffix,
        if_neg Bool.false_ne_true, hdigits, if_pos rfl]

/-- A text is read as what it says, and says nothing else. -/
theorem parse_eq_iff {result : Except RegistryError Choice} :
    parse text = result ↔ Reads text result := by
  constructor
  · rintro rfl
    obtain ⟨result, h⟩ := exists_reads text
    rwa [h.parse_eq]
  · exact Reads.parse_eq

end Unmask.Choice
