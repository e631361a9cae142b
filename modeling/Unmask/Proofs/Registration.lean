import Mathlib.Data.List.Nodup
import Unmask.Dispatch
import Unmask.Proofs.LetterCase

/-!
# What a registry holds

The entries of a registry are what the calls that were admitted put into it, in their order. A call
is admitted unless an entry has its name, in the form in which names are compared, and its version;
the form of a form is that form again, so the check of a call finds what earlier calls have stored.
-/
namespace Unmask.Registry

/-- A name without blanks and in lower case. -/
def plain (name : String) : String :=
  String.ofList ((name.toList.filter (· != ' ')).flatMap Text.lowerCase)

lemma normalize_eq (name : String) :
    normalize name = (aliases.lookup (plain name)).getD (plain name) := rfl

lemma plain_plain (name : String) : plain (plain name) = plain name := by
  have hfinal : ∀ d ∈ (plain name).toList, Text.lowerCase d = [d] ∧ d ≠ ' ' := by
    intro d hd
    rw [plain, String.toList_ofList, List.mem_flatMap] at hd
    obtain ⟨c, hc, hd⟩ := hd
    obtain ⟨hlower, hblank⟩ := Text.lowerCase_final hd
    have hvisible : c ≠ ' ' := by simpa using (List.mem_filter.mp hc).2
    exact ⟨hlower, fun heq => hvisible (hblank heq)⟩
  have hkept : (plain name).toList.filter (· != ' ') = (plain name).toList :=
    List.filter_eq_self.mpr fun d hd => by simpa using (hfinal d hd).2
  have hlower : (plain name).toList.flatMap Text.lowerCase = (plain name).toList := by
    rw [List.flatMap_congr fun d hd => (hfinal d hd).1, List.flatMap_singleton']
  rw [plain, hkept, hlower, String.ofList_toList]

/-- No second name has another one. -/
lemma normalize_alias : ∀ pair ∈ aliases, normalize pair.2 = pair.2 := by decide

/-- The form in which names are compared is the form of itself. -/
theorem normalize_normalize (name : String) : normalize (normalize name) = normalize name := by
  cases hlookup : aliases.lookup (plain name) with
  | none =>
    have hname : normalize name = plain name := by rw [normalize_eq, hlookup, Option.getD_none]
    rw [hname, normalize_eq, plain_plain, hlookup, Option.getD_none]
  | some target =>
    have hname : normalize name = target := by rw [normalize_eq, hlookup, Option.getD_some]
    obtain ⟨front, back, haliases, -⟩ := List.lookup_eq_some_iff.mp hlookup
    rw [hname]
    exact normalize_alias (plain name, target) (by simp [haliases])

/-- What a schema is registered with. -/
structure Call where
  name : String
  version : Nat
  schema : Schema

def Call.entry (c : Call) : Entry := ⟨normalize c.name, c.version, c.schema⟩

/-- An entry has a name, whatever way it is spelled, and a version. -/
def Takes (e : Entry) (name : String) (version : Nat) : Prop :=
  e.name = normalize name ∧ e.version = version

/-- What comes of a call: it is turned down if its name and version are taken, and the registry
stays, or its entry is added behind the others. -/
inductive Answers (r : Registry) (c : Call) : Registry → Option RegistryError → Prop where
  | duplicate {e : Entry} (hmem : e ∈ r.entries) (htaken : Takes e c.name c.version) :
    Answers r c r (some (.duplicateVersion (normalize c.name) c.version))
  | added (hfree : ∀ e ∈ r.entries, ¬ Takes e c.name c.version) :
    Answers r c ⟨r.entries ++ [c.entry]⟩ none

variable {r r' : Registry} {c : Call} {error : Option RegistryError}

lemma takes_normalize {e : Entry} {name : String} {version : Nat} :
    Takes e (normalize name) version ↔ Takes e name version := by
  unfold Takes
  rw [normalize_normalize]

lemma isSome_get?_iff {name : String} {version : Nat} :
    (r.get? name version).isSome = true ↔ ∃ e ∈ r.entries, Takes e name version := by
  simp [get?, Takes]

lemma register_answers (r : Registry) (c : Call) :
    Answers r c (r.register c.name c.version c.schema).1
      (r.register c.name c.version c.schema).2 := by
  unfold register
  dsimp only
  split
  · next htaken =>
    obtain ⟨e, hmem, htakes⟩ := isSome_get?_iff.mp htaken
    exact .duplicate hmem (takes_normalize.mp htakes)
  · next hfree =>
    refine .added fun e hmem htakes => hfree ?_
    exact isSome_get?_iff.mpr ⟨e, hmem, takes_normalize.mpr htakes⟩

lemma Answers.unique {r'' : Registry} {error' : Option RegistryError} (h : Answers r c r' error)
    (h' : Answers r c r'' error') : (r', error) = (r'', error') := by
  cases h with
  | duplicate hmem htaken =>
    cases h' with
    | duplicate => rfl
    | added hfree => exact absurd htaken (hfree _ hmem)
  | added hfree =>
    cases h' with
    | duplicate hmem htaken => exact absurd htaken (hfree _ hmem)
    | added => rfl

/-- A call does what comes of it, and nothing else. -/
lemma register_iff : r.register c.name c.version c.schema = (r', error) ↔ Answers r c r' error := by
  constructor
  · intro h
    have hanswers := register_answers r c
    rwa [h] at hanswers
  · intro h
    exact (register_answers r c).unique h

/-- The registry after calls, whatever comes of each. -/
def after (r : Registry) : List Call → Registry
  | [] => r
  | c :: rest => after (r.register c.name c.version c.schema).1 rest

/-- Those of the calls that are not turned down. -/
def admitted (r : Registry) : List Call → List Call
  | [] => []
  | c :: rest =>
    let (r', error) := r.register c.name c.version c.schema
    if error.isNone then c :: admitted r' rest else admitted r' rest

/-- No two entries have one name and version, and the names are in the form in which they are
compared. -/
structure WellFormed (r : Registry) : Prop where
  distinct : (r.entries.map fun e => (e.name, e.version)).Nodup
  normal : ∀ e ∈ r.entries, normalize e.name = e.name

lemma wellFormed_empty : WellFormed empty := ⟨.nil, fun _ h => absurd h List.not_mem_nil⟩

/-- A call keeps a registry well-formed. -/
lemma WellFormed.answers (h : WellFormed r) (hanswers : Answers r c r' error) : WellFormed r' := by
  cases hanswers with
  | duplicate => exact h
  | added hfree =>
    constructor
    · have hnew : ∀ e ∈ r.entries, e.name = normalize c.name → ¬ e.version = c.version :=
        fun e hmem hname hversion => hfree e hmem ⟨hname, hversion⟩
      simpa [List.nodup_append, Call.entry] using And.intro h.distinct hnew
    · intro e he
      obtain hold | hnew := List.mem_append.mp he
      · exact h.normal e hold
      · rw [List.mem_singleton.mp hnew]
        exact normalize_normalize c.name

lemma WellFormed.after (h : WellFormed r) (calls : List Call) : WellFormed (after r calls) := by
  induction calls generalizing r with
  | nil => exact h
  | cons c rest ih => exact ih (h.answers (register_answers r c))

/-- The entries are those of the calls that were admitted. -/
lemma entries_after (r : Registry) (calls : List Call) :
    (after r calls).entries = r.entries ++ (admitted r calls).map Call.entry := by
  induction calls generalizing r with
  | nil => simp [after, admitted]
  | cons c rest ih =>
    rw [after, ih, admitted]
    cases hcall : r.register c.name c.version c.schema with
    | mk r' error =>
      cases register_iff.mp hcall with
      | duplicate => simp
      | added => simp

/-- In a well-formed registry an entry is found by the name and the version that it takes. -/
lemma WellFormed.get?_eq_some_iff (h : WellFormed r) {name : String} {version : Nat} {e : Entry} :
    r.get? name version = some e ↔ e ∈ r.entries ∧ Takes e name version := by
  constructor
  · intro hget
    have hfound := List.find?_some hget
    exact ⟨List.mem_of_find?_eq_some hget, by simpa [Takes] using hfound⟩
  · rintro ⟨hmem, htakes⟩
    have hsome := isSome_get?_iff.mpr ⟨e, hmem, htakes⟩
    obtain ⟨e', hget⟩ := Option.isSome_iff_exists.mp hsome
    have hfound : Takes e' name version := by simpa [Takes] using List.find?_some hget
    have hsame : (e'.name, e'.version) = (e.name, e.version) := by
      rw [hfound.1, hfound.2, htakes.1, htakes.2]
    rw [hget, List.inj_on_of_nodup_map h.distinct (List.mem_of_find?_eq_some hget) hmem hsame]

/-- After any calls the names and versions of the entries are pairwise different, the names are in
the form in which they are compared, and the entries are those of the admitted calls in order. The
next call is turned down exactly if its name and version are taken. An entry is found exactly if an
admitted call had that version and a name of that form, and it is the entry of the call. -/
theorem after_calls (calls : List Call) :
    let r := after empty calls
    let made := admitted empty calls
    (r.entries.map fun e => (e.name, e.version)).Nodup ∧
    (∀ e ∈ r.entries, normalize e.name = e.name) ∧
    r.entries = made.map Call.entry ∧
    (∀ c r' error, r.register c.name c.version c.schema = (r', error) ↔ Answers r c r' error) ∧
    ∀ name version e, r.get? name version = some e ↔
      ∃ c ∈ made, normalize c.name = normalize name ∧ c.version = version ∧ c.entry = e := by
  intro r made
  have hwell : WellFormed r := wellFormed_empty.after calls
  have hentries : r.entries = made.map Call.entry := by
    have h := entries_after empty calls
    rwa [empty, List.nil_append] at h
  refine ⟨hwell.distinct, hwell.normal, hentries, fun c r' error => register_iff, ?_⟩
  intro name version e
  rw [hwell.get?_eq_some_iff, hentries, List.mem_map]
  constructor
  · rintro ⟨⟨c, hmade, rfl⟩, hname, hversion⟩
    exact ⟨c, hmade, hname, hversion, rfl⟩
  · rintro ⟨c, hmade, hname, hversion, rfl⟩
    exact ⟨⟨c, hmade, rfl⟩, hname, hversion⟩

end Unmask.Registry
