import Unmask.Proofs.SelectedEntries
import Unmask.Proofs.Words

/-!
# Tokens that select one entry

An entry is listed by its name and its version with an underscore between them. That token selects
the entry and no other one, whatever underscores and digits the name has itself. So does every other
way of writing it: with a `v` before the version, in letters of either case, with spaces in and
around the name.
-/
namespace Unmask

open Text

/-- A lower-case letter, a digit, an underscore or a hyphen. -/
def IsPlain (c : Char) : Prop :=
  ('a' ≤ c ∧ c ≤ 'z') ∨ isAsciiDigit c ∨ c = '_' ∨ c = '-'

instance : DecidablePred IsPlain := fun c =>
  inferInstanceAs (Decidable (('a' ≤ c ∧ c ≤ 'z') ∨ isAsciiDigit c ∨ c = '_' ∨ c = '-'))

variable {c : Char}

lemma toNat_lt_of_le {d : Char} (hle : c ≤ d) (hd : d.toNat < 0x80) : c.toNat < 0x80 :=
  Nat.lt_of_le_of_lt (UInt32.le_iff_toNat_le.mp (Char.le_def.mp hle)) hd

lemma IsPlain.toNat_lt (h : IsPlain c) : c.toNat < 0x80 := by
  obtain hletter | hdigit | rfl | rfl := h
  · exact toNat_lt_of_le hletter.2 (by decide)
  · simp only [isAsciiDigit, Bool.and_eq_true, decide_eq_true_eq] at hdigit
    exact toNat_lt_of_le hdigit.2 (by decide)
  · decide
  · decide

lemma toNat_lt_of_asciiLower (h : IsPlain (asciiLower c)) : c.toNat < 0x80 := by
  unfold asciiLower at h
  split at h
  · next hupper =>
    simp only [Bool.and_eq_true, decide_eq_true_eq] at hupper
    exact toNat_lt_of_le hupper.2 (by decide)
  · exact h.toNat_lt

lemma IsPlain.asciiLower_eq (h : IsPlain c) : asciiLower c = c := by
  have hall : ∀ n : Fin 0x80, IsPlain (Char.ofNat n) →
      asciiLower (Char.ofNat n) = Char.ofNat n := by
    decide +kernel
  have hc := hall ⟨c.toNat, h.toNat_lt⟩
  rw [Char.ofNat_toNat] at hc
  exact hc h

/-- What is plain in lower case may stand in a choice, and is no blank. -/
lemma allowed_of_plain (h : IsPlain (asciiLower c)) :
    Choice.isAllowed c ∧ isBlank c = false ∧ lowerCase c = [asciiLower c] := by
  have hall : ∀ n : Fin 0x80, IsPlain (asciiLower (Char.ofNat n)) →
      Choice.isAllowed (Char.ofNat n) ∧ isBlank (Char.ofNat n) = false ∧
        lowerCase (Char.ofNat n) = [asciiLower (Char.ofNat n)] := by
    decide +kernel
  have hc := hall ⟨c.toNat, toNat_lt_of_asciiLower h⟩
  rw [Char.ofNat_toNat] at hc
  exact hc h

/-- The digits of a number are a version, with a mark or without. -/
lemma isVersion_digitChars {mark : List Char} (h : mark ∈ ["", "v", "V"].map String.toList)
    (n : Nat) : Choice.IsVersion (mark ++ digitChars n) n := by
  have hbare := Choice.IsVersion.bare (digitChars_ne_nil n) fun c => isAsciiDigit_of_mem
  have hmarked (mark : Char) (hmark : mark = 'v' ∨ mark = 'V') :=
    Choice.IsVersion.marked hmark (digitChars_ne_nil n) fun c => isAsciiDigit_of_mem
  simp only [digitsValue_digitChars] at hbare hmarked
  simp only [List.map_cons, List.map_nil, List.mem_cons, List.not_mem_nil, or_false] at h
  obtain rfl | rfl | rfl := h
  · exact hbare
  · exact hmarked 'v' (.inl rfl)
  · exact hmarked 'V' (.inr rfl)

/-- A text is a name and a version with an underscore between them: the letters of the name are in
either case, with any spaces before, in and behind it, the version stands perhaps behind a `v`, and
there may be spaces at the end. -/
structure Entry.Writes (e : Entry) (text name mark : List Char) (right : Nat) : Prop where
  chars : text = name ++ '_' :: (mark ++ digitChars e.version) ++ List.replicate right ' '
  spelled : (name.filter (· != ' ')).map asciiLower = e.name.toList
  marked : mark ∈ ["", "v", "V"].map String.toList

variable {e : Entry} {text name mark : List Char} {right : Nat}

lemma Entry.toList_token (e : Entry) :
    e.token.toList = e.name.toList ++ '_' :: digitChars e.version := by
  have htoken : e.token = e.name ++ "_" ++ toString e.version := rfl
  simp [htoken, String.toList_append, digitChars]

/-- The token of an entry writes it. -/
lemma Entry.writes_token (e : Entry) (hname : ∀ c ∈ e.name.toList, IsPlain c) :
    e.Writes e.token.toList e.name.toList [] 0 where
  chars := by simpa using e.toList_token
  spelled := by
    have hvisible : e.name.toList.filter (· != ' ') = e.name.toList :=
      List.filter_eq_self.mpr fun c hc => by
        rw [bne_iff_ne]
        rintro rfl
        exact absurd (hname ' ' hc) (by decide)
    rw [hvisible, List.map_congr_left fun c hc => (hname c hc).asciiLower_eq, List.map_id']
  marked := by decide

/-- A text that is more than spaces begins with spaces and a character that is none. -/
lemma exists_visible (h : ∃ d ∈ name, d ≠ ' ') :
    ∃ k c rest, name = List.replicate k ' ' ++ c :: rest ∧ c ≠ ' ' := by
  induction name with
  | nil => simp at h
  | cons c name ih =>
    by_cases hc : c = ' '
    · obtain ⟨k, d, rest, rfl, hd⟩ := ih (by simpa [hc] using h)
      exact ⟨k + 1, d, rest, by rw [hc]; rfl, hd⟩
    · exact ⟨0, c, name, rfl, hc⟩

namespace Entry.Writes

variable (h : e.Writes text name mark right) (hname : ∀ c ∈ e.name.toList, IsPlain c)
include h hname

/-- The characters of a written name are spaces, or plain in lower case. -/
lemma plain : ∀ c ∈ name, c ≠ ' ' → IsPlain (asciiLower c) := by
  intro c hc hspace
  refine hname _ (h.spelled ▸ List.mem_map_of_mem (List.mem_filter.mpr ⟨hc, ?_⟩))
  simpa using hspace

lemma allowed : ∀ c ∈ text, Choice.isAllowed c := by
  intro c hc
  rw [h.chars] at hc
  simp only [List.mem_append, List.mem_cons] at hc
  obtain (hc | rfl | hc) | hc := hc
  · by_cases hspace : c = ' '
    · rw [hspace]
      rfl
    · exact (allowed_of_plain (h.plain hname c hc hspace)).1
  · rfl
  · exact ((isVersion_digitChars h.marked e.version).allowed c (List.mem_append.mpr hc)).1
  · rw [List.eq_of_mem_replicate hc]
    rfl

/-- A written name is a form of the name. -/
lemma plain_eq : Registry.plain (String.ofList name) = e.name := by
  have hlower : (name.filter (· != ' ')).flatMap lowerCase =
      (name.filter (· != ' ')).map asciiLower := by
    rw [List.map_eq_flatMap]
    refine List.flatMap_congr fun c hc => ?_
    obtain ⟨hc, hspace⟩ := List.mem_filter.mp hc
    exact (allowed_of_plain (h.plain hname c hc (by simpa using hspace))).2.2
  rw [Registry.plain, String.toList_ofList, hlower, h.spelled, String.ofList_toList]

lemma normalize_eq (hnormal : Registry.normalize e.name = e.name) :
    Registry.normalize (String.ofList name) = e.name := by
  have hself : Registry.plain e.name = e.name := by
    rw [← h.plain_eq hname, Registry.plain_plain]
  rw [Registry.normalize_eq, hself] at hnormal
  rw [Registry.normalize_eq, h.plain_eq hname, hnormal]

/-- Without the spaces around it, a written entry is one that begins with its name. -/
lemma exists_core (hne : e.name ≠ "") : ∃ core c name', IsCore text core ∧
    e.Writes core (c :: name') mark 0 := by
  have hvisible : ∃ d ∈ name, d ≠ ' ' := by
    by_contra hall
    have hnone : name.filter (· != ' ') = [] := by simpa using hall
    have hspelled := h.spelled
    rw [hnone, List.map_nil, eq_comm, String.toList_eq_nil_iff] at hspelled
    exact hne hspelled
  obtain ⟨k, c, name', rfl, hc⟩ := exists_visible hvisible
  have hfirst := allowed_of_plain (h.plain hname c (by simp) hc)
  have hlast (d : Char) (hd : d ∈ (digitChars e.version).getLast?) : isBlank d = false := by
    have hdigit : IsPlain d := .inr (.inl (isAsciiDigit_of_mem (List.mem_of_mem_getLast? hd)))
    exact (allowed_of_plain (hdigit.asciiLower_eq.symm ▸ hdigit)).2.1
  have hchars : text = List.replicate k ' ' ++
      ((c :: name') ++ '_' :: (mark ++ digitChars e.version) ++ List.replicate right ' ') := by
    rw [h.chars]
    simp only [List.append_assoc]
  have hwritten : e.Writes ((c :: name') ++ '_' :: (mark ++ digitChars e.version)) (c :: name')
      mark 0 := ⟨by simp, by simpa [List.filter_append] using h.spelled, h.marked⟩
  refine ⟨_, c, name', ⟨⟨_, _, fun d hd => ?_, fun d hd => ?_, hchars⟩, ?_, ?_⟩, hwritten⟩
  · rw [List.eq_of_mem_replicate hd]
    rfl
  · rw [List.eq_of_mem_replicate hd]
    rfl
  · intro d hd
    rw [← Option.some.inj hd]
    exact hfirst.2.1
  · have hdigits : (c :: name') ++ '_' :: (mark ++ digitChars e.version) =
        ((c :: name') ++ '_' :: mark) ++ digitChars e.version := by simp
    rw [hdigits, List.getLast?_append_of_ne_nil _ (digitChars_ne_nil e.version)]
    exact hlast

end Entry.Writes

namespace Registry

variable {r : Registry}

/-- A written entry is read as the choice of its name and its version. -/
lemma reads_written {text : String} (hwell : WellFormed r) (he : e ∈ r.entries)
    (hsmall : e.version < 2 ^ 32) (hne : e.name ≠ "") (hname : ∀ c ∈ e.name.toList, IsPlain c)
    (h : e.Writes text.toList name mark right) :
    Choice.Reads text (.ok ⟨e.name, some e.version⟩) := by
  obtain ⟨core, c, name', hcore, hwritten⟩ := h.exists_core hname hne
  have hallowed := hwritten.allowed hname
  have hchars := hwritten.chars
  rw [List.replicate_zero, List.append_nil] at hchars
  rw [hchars] at hcore hallowed
  rw [← hwritten.normalize_eq hname (hwell.normal e he)]
  exact .versioned ⟨hcore, hallowed⟩ (List.cons_ne_nil c name')
    (isVersion_digitChars hwritten.marked e.version) hsmall

/-- Only the entry itself has its name and its version. -/
lemma listed_entry (hwell : WellFormed r) (he : e ∈ r.entries) :
    r.Listed [⟨e.name, some e.version⟩] [e] where
  mem_iff d := by
    simp only [List.mem_singleton, exists_eq_left, Choice.Selects, Option.mem_def,
      Option.some.injEq, forall_eq']
    constructor
    · rintro rfl
      exact ⟨he, rfl, rfl⟩
    · rintro ⟨hd, hname, hversion⟩
      exact List.inj_on_of_nodup_map hwell.distinct hd he (by rw [hname, hversion])
  nodup := List.nodup_singleton e
  ordered := List.pairwise_singleton _ e

/-- A written entry selects the entry and nothing else. -/
lemma resolve_written {text : String} (hwell : WellFormed r) (he : e ∈ r.entries)
    (hsmall : e.version < 2 ^ 32) (hne : e.name ≠ "") (hname : ∀ c ∈ e.name.toList, IsPlain c)
    (h : e.Writes text.toList name mark right) : r.resolve text = .ok [e] := by
  have hread := reads_written hwell he hsmall hne hname h
  have hall : ¬Selection.AsksAll text := by
    rintro ⟨core', hcore', hauto⟩
    obtain ⟨core, c, name', hcore, hwritten⟩ := h.exists_core hname hne
    rw [← hcore'.trimChars_eq, hcore.trimChars_eq, hwritten.chars] at hauto
    have hmem : '_' ∈ "auto".toList := hauto ▸ List.mem_map.mpr ⟨'_', by simp, rfl⟩
    exact absurd hmem (by decide)
  have htokens : Selection.Lists text [text] := by
    refine ⟨List.cons_ne_nil _ _, fun token htoken hcomma => ?_, by simp⟩
    rw [List.mem_singleton.mp htoken] at hcomma
    exact absurd (h.allowed hname ',' hcomma) (by decide)
  have hnames : List.Forall₂ r.Names [text] [⟨e.name, some e.version⟩] :=
    .cons ⟨hread, e, he, rfl, by simp⟩ .nil
  exact (Resolved.listed hall htokens hnames (listed_entry hwell he)).resolve_eq hwell.distinct

/-- After any calls, an entry with a name in lower-case letters, digits, underscores and hyphens is
all that its token selects, and all that every text selects in which its name and version are
written. -/
theorem resolve_token (calls : List Call) {e : Entry} (he : e ∈ (after empty calls).entries)
    (hsmall : e.version < 2 ^ 32) (hne : e.name ≠ "") (hname : ∀ c ∈ e.name.toList, IsPlain c) :
    (after empty calls).resolve e.token = .ok [e] ∧
      ∀ (text : String) name mark right, e.Writes text.toList name mark right →
        (after empty calls).resolve text = .ok [e] := by
  have hwell : WellFormed (after empty calls) := wellFormed_empty.after calls
  refine ⟨?_, fun text name mark right h => ?_⟩
  · exact resolve_written hwell he hsmall hne hname (e.writes_token hname)
  · exact resolve_written hwell he hsmall hne hname h

/-- An entry whose name is the token of another one. -/
theorem resolve_versionlike_name :
    let schema : Schema := ⟨fun _ => false, .ok⟩
    let r := after empty [⟨"Re_2", 7, schema⟩, ⟨"re", 2, schema⟩]
    let e : Entry := ⟨"re_2", 7, schema⟩
    e ∈ r.entries ∧ e.version < 2 ^ 32 ∧ e.name ≠ "" ∧ (∀ c ∈ e.name.toList, IsPlain c) ∧
      e.Writes " R e_2_V7 ".toList " R e_2".toList ['V'] 1 ∧
      r.resolve "re_2_7" = .ok [e] ∧ r.resolve " R e_2_V7 " = .ok [e] := by
  intro schema r e
  have he : e ∈ r.entries := by
    have hfirst : normalize "Re_2" = "re_2" := by decide
    have hagain : normalize "re_2" = "re_2" := by decide
    have hother : normalize "re" = "re" := by decide
    simp [r, e, after, register, get?, empty, hfirst, hagain, hother]
  have hsmall : e.version < 2 ^ 32 := by decide
  have hne : e.name ≠ "" := by decide
  have hname : ∀ c ∈ e.name.toList, IsPlain c := by decide
  have hwrites : e.Writes " R e_2_V7 ".toList " R e_2".toList ['V'] 1 :=
    ⟨by decide, by decide, by decide⟩
  have h := resolve_token _ he hsmall hne hname
  have htoken : e.token = "re_2_7" := by decide
  exact ⟨he, hsmall, hne, hname, hwrites, htoken ▸ h.1, h.2 _ _ _ _ hwrites⟩

end Registry
end Unmask
