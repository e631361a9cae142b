import Mathlib.Data.List.Forall2
import Mathlib.Data.List.Induction
import Mathlib.Data.List.Sort
import Unmask.Proofs.Choices
import Unmask.Proofs.Registration

/-!
# What a selection selects

A selection that does not ask for all entries is a list of tokens with commas between them. If each
token says a choice that selects something, the selection comes to what they select, each entry
once, in the order of the first choices that select them and of their registration. Else it comes to
what is wrong with the first token that does not.
-/
namespace Unmask

/-- A choice selects the entries of its name, or of these the one with its version. -/
def Choice.Selects (c : Choice) (e : Entry) : Prop :=
  e.name = c.name ∧ ∀ version ∈ c.version, e.version = version

instance (c : Choice) : DecidablePred c.Selects := fun e =>
  inferInstanceAs (Decidable (e.name = c.name ∧ ∀ version ∈ c.version, e.version = version))

namespace Selection

/-- A text asks for all entries, in letters of either case and perhaps between blanks. -/
def AsksAll (option : String) : Prop :=
  ∃ core, Text.IsCore option.toList core ∧ core.map Text.asciiLower = "auto".toList

/-- Tokens without commas make up a text with commas between them. -/
structure Lists (option : String) (tokens : List String) : Prop where
  nonempty : tokens ≠ []
  free : ∀ token ∈ tokens, ',' ∉ token.toList
  joined : ",".intercalate tokens = option

variable {option : String} {tokens : List String}

lemma isAuto_iff : isAuto option = true ↔ AsksAll option := by
  rw [isAuto, beq_iff_eq]
  constructor
  · intro h
    exact ⟨_, Text.isCore_trimChars option.toList, h⟩
  · rintro ⟨core, hcore, h⟩
    rw [hcore.trimChars_eq, h]

lemma splitOn_eq_iff : Text.splitOn ',' option = tokens ↔ Lists option tokens := by
  have hrows : Text.splitOn ',' option = tokens ↔
      Text.splitChars ',' option.toList = tokens.map String.toList := by
    rw [Text.splitOn]
    constructor
    · rintro rfl
      simp
    · intro h
      rw [h]
      simp
  have hjoined : [','].intercalate (tokens.map String.toList) = option.toList ↔
      ",".intercalate tokens = option := by
    rw [← String.toList_inj, String.toList_intercalate]
    rfl
  rw [hrows, Text.splitChars_eq_iff, hjoined]
  constructor
  · rintro ⟨hne, hfree, h⟩
    exact ⟨by simpa using hne, by simpa using hfree, h⟩
  · rintro ⟨hne, hfree, h⟩
    exact ⟨by simpa using hne, by simpa using hfree, h⟩

end Selection

namespace Registry

variable {r : Registry} {token : String} {c : Choice} {error : RegistryError} {e : Entry}

/-- A token says a choice that selects an entry. -/
structure Names (r : Registry) (token : String) (c : Choice) : Prop where
  read : Choice.Reads token (.ok c)
  selects : ∃ e ∈ r.entries, c.Selects e

/-- What is wrong with a token that selects nothing. -/
inductive Fails (r : Registry) (token : String) : RegistryError → Prop where
  | invalid {error : RegistryError} (h : Choice.Reads token (.error error)) : Fails r token error
  | unknownSchema {c : Choice} (h : Choice.Reads token (.ok c))
      (hname : ∀ e ∈ r.entries, e.name ≠ c.name) : Fails r token (.unknownSchema c.name)
  | unknownVersion {c : Choice} {version : Nat} (h : Choice.Reads token (.ok c))
      (hc : c.version = some version) (hname : ∃ e ∈ r.entries, e.name = c.name)
      (hversion : ∀ e ∈ r.entries, e.name = c.name → e.version ≠ version) :
    Fails r token (.unknownVersion c.name version)

/-- The entries that a choice selects, as they were registered. -/
def selected (r : Registry) (c : Choice) : List Entry := r.entries.filter fun e => c.Selects e

/-- The entries of a name, as they were registered. -/
def named (r : Registry) (name : String) : List Entry := r.entries.filter fun e => e.name == name

lemma named_isEmpty_iff {name : String} :
    (r.named name).isEmpty = true ↔ ∀ e ∈ r.entries, e.name ≠ name := by
  simp [named]

lemma selected_none (hc : c.version = none) : r.selected c = r.named c.name :=
  List.filter_congr fun e _ => Bool.eq_iff_iff.mpr (by simp [Choice.Selects, hc])

lemma selected_some {version : Nat} (hc : c.version = some version) :
    r.selected c = (r.named c.name).filter fun e => e.version == version := by
  rw [named, List.filter_filter]
  exact List.filter_congr fun e _ => Bool.eq_iff_iff.mpr (by simp [Choice.Selects, hc, and_comm])

/-- A choice that selects something comes to that. -/
lemma choose_of_selects (h : ∃ e ∈ r.entries, c.Selects e) : r.choose c = .ok (r.selected c) := by
  obtain ⟨e, he, hselects⟩ := h
  have hselected : (r.selected c).isEmpty = false :=
    List.isEmpty_eq_false_iff.mpr (List.ne_nil_of_mem (a := e) (by simp [selected, he, hselects]))
  have hnamed : ¬(r.named c.name).isEmpty = true :=
    fun hempty => named_isEmpty_iff.mp hempty e he hselects.1
  unfold choose
  rw [← named, if_neg hnamed]
  cases hc : c.version with
  | none => simp only [selected_none hc]
  | some version =>
    rw [selected_some hc] at hselected ⊢
    simp only [hselected, Bool.false_eq_true, if_false]

lemma select_of_names (h : r.Names token c) (done : List Entry) :
    r.select done token = .ok (addNew done (r.selected c)) := by
  simp only [select, h.read.parse_eq, choose_of_selects h.selects, Except.map]

lemma select_of_fails (h : r.Fails token error) (done : List Entry) :
    r.select done token = .error error := by
  cases h with
  | invalid h => simp only [select, h.parse_eq]
  | @unknownSchema c h hname =>
    have hchoose : r.choose c = .error (.unknownSchema c.name) := by
      unfold choose
      rw [← named, if_pos (named_isEmpty_iff.mpr hname)]
    simp only [select, h.parse_eq, hchoose, Except.map]
  | @unknownVersion c version h hc hname hversion =>
    have hnamed : ¬(r.named c.name).isEmpty = true := by
      obtain ⟨e, he, heq⟩ := hname
      exact fun hempty => named_isEmpty_iff.mp hempty e he heq
    have hfound : ((r.named c.name).filter fun e => e.version == version).isEmpty = true := by
      simpa [named] using fun e he heq hname => hversion e he hname heq
    have hchoose : r.choose c = .error (.unknownVersion c.name version) := by
      unfold choose
      rw [← named, if_neg hnamed, hc]
      simp only [hfound, if_true]
    simp only [select, h.parse_eq, hchoose, Except.map]

/-- A token names a choice, or something is wrong with it. -/
lemma names_or_fails (r : Registry) (token : String) :
    (∃ c, r.Names token c) ∨ ∃ error, r.Fails token error := by
  obtain ⟨result, hread⟩ := Choice.exists_reads token
  cases result with
  | error error => exact .inr ⟨error, .invalid hread⟩
  | ok c =>
    by_cases hselects : ∃ e ∈ r.entries, c.Selects e
    · exact .inl ⟨c, hread, hselects⟩
    by_cases hname : ∃ e ∈ r.entries, e.name = c.name
    · cases hc : c.version with
      | none =>
        obtain ⟨e, he, hname⟩ := hname
        exact absurd ⟨e, he, hname, by simp [hc]⟩ hselects
      | some version =>
        refine .inr ⟨_, .unknownVersion hread hc hname fun e he hname hversion => hselects ?_⟩
        exact ⟨e, he, hname, by simp [hc, hversion]⟩
    · exact .inr ⟨_, .unknownSchema hread fun e he heq => hname ⟨e, he, heq⟩⟩

/-- The place of the first choice that selects an entry. -/
def first (choices : List Choice) (e : Entry) : Nat := choices.findIdx fun c => c.Selects e

/-- An entry comes before another one if a choice selects it first, or if the same choice does and
it was registered before. -/
def Before (r : Registry) (choices : List Choice) (d e : Entry) : Prop :=
  first choices d < first choices e ∨
    first choices d = first choices e ∧ [d, e].Sublist r.entries

/-- What choices select, each entry once and in order. -/
structure Listed (r : Registry) (choices : List Choice) (entries : List Entry) : Prop where
  mem_iff : ∀ e, e ∈ entries ↔ e ∈ r.entries ∧ ∃ c ∈ choices, c.Selects e
  nodup : entries.Nodup
  ordered : entries.Pairwise (r.Before choices)

variable {choices : List Choice} {entries done new : List Entry}

lemma first_lt_iff : first choices e < choices.length ↔ ∃ c ∈ choices, c.Selects e := by
  simp [first, List.findIdx_lt_length]

lemma first_append (h : ∃ c ∈ choices, c.Selects e) (rest : List Choice) :
    first (choices ++ rest) e = first choices e := by
  have hlt := first_lt_iff.mpr h
  unfold first at hlt ⊢
  rw [List.findIdx_append, if_pos hlt]

lemma first_last (h : ¬∃ c ∈ choices, c.Selects e) (hc : c.Selects e) :
    first (choices ++ [c]) e = choices.length := by
  have hge := mt first_lt_iff.mp h
  unfold first at hge ⊢
  rw [List.findIdx_append, if_neg hge]
  simp [hc]

/-- Whether an entry with the name and the version of another one is there. -/
def isKnown (done : List Entry) (e : Entry) : Bool :=
  done.any fun d => d.name == e.name && d.version == e.version

/-- Of entries with different names or versions those that are not there yet are added. -/
lemma addNew_eq (hnew : (new.map fun e => (e.name, e.version)).Nodup) :
    addNew done new = done ++ new.filter (!isKnown done ·) := by
  induction new generalizing done with
  | nil => simp [addNew]
  | cons e new ih =>
    rw [List.map_cons, List.nodup_cons] at hnew
    obtain ⟨hfresh, hnew⟩ := hnew
    have hstep : addNew done (e :: new) =
        addNew (if isKnown done e then done else done ++ [e]) new := rfl
    rw [hstep, ih hnew, List.filter_cons]
    cases hknown : isKnown done e with
    | true => simp
    | false =>
      have hrest : new.filter (!isKnown (done ++ [e]) ·) = new.filter (!isKnown done ·) := by
        refine List.filter_congr fun x hx => ?_
        have hother : (e.name == x.name && e.version == x.version) = false := by
          rw [Bool.eq_false_iff]
          intro heq
          simp only [Bool.and_eq_true, beq_iff_eq] at heq
          exact hfresh (List.mem_map.mpr ⟨x, hx, by rw [heq.1, heq.2]⟩)
        simp [isKnown, hother]
      simp [hrest]

/-- Among the entries of a registry, one is there if its name and version are. -/
lemma isKnown_iff (hdistinct : (r.entries.map fun e => (e.name, e.version)).Nodup)
    (hdone : ∀ d ∈ done, d ∈ r.entries) (he : e ∈ r.entries) :
    isKnown done e = true ↔ e ∈ done := by
  simp only [isKnown, List.any_eq_true, Bool.and_eq_true, beq_iff_eq]
  constructor
  · rintro ⟨d, hd, hname, hversion⟩
    rwa [← List.inj_on_of_nodup_map hdistinct (hdone d hd) he (by rw [hname, hversion])]
  · intro h
    exact ⟨e, h, rfl, rfl⟩

lemma listed_nil (r : Registry) : r.Listed [] [] := ⟨by simp, .nil, .nil⟩

/-- A further choice adds what only it selects behind what the others do. -/
lemma Listed.snoc (hdistinct : (r.entries.map fun e => (e.name, e.version)).Nodup)
    (h : r.Listed choices entries) (c : Choice) :
    r.Listed (choices ++ [c]) (addNew entries (r.selected c)) := by
  have hsub : (r.selected c).Sublist r.entries := List.filter_sublist
  have hknown : ∀ e ∈ r.entries, isKnown entries e = true ↔ e ∈ entries :=
    fun e he => isKnown_iff hdistinct (fun d hd => ((h.mem_iff d).mp hd).1) he
  have hmem (e : Entry) : e ∈ (r.selected c).filter (!isKnown entries ·) ↔
      e ∈ r.entries ∧ c.Selects e ∧ ¬∃ c ∈ choices, c.Selects e := by
    simp only [selected, List.mem_filter, decide_eq_true_eq, Bool.not_eq_true', and_assoc]
    refine and_congr_right fun he => and_congr_right fun _ => ?_
    rw [← Bool.not_eq_true, hknown e he, h.mem_iff]
    exact not_congr (and_iff_right he)
  rw [addNew_eq (hdistinct.sublist (hsub.map _))]
  refine ⟨fun e => ?_, ?_, ?_⟩
  · rw [List.mem_append, hmem, h.mem_iff]
    simp only [List.mem_append, List.mem_singleton, or_and_right, exists_or, exists_eq_left]
    by_cases hbefore : ∃ c ∈ choices, c.Selects e <;> simp [hbefore]
  · rw [List.nodup_append]
    have hentries : r.entries.Nodup := .of_map _ hdistinct
    refine ⟨h.nodup, (hentries.sublist hsub).filter _, ?_⟩
    rintro d hd e he rfl
    exact ((hmem d).mp he).2.2 ((h.mem_iff d).mp hd).2
  · have hplace (e : Entry) (he : e ∈ (r.selected c).filter (!isKnown entries ·)) :
        first (choices ++ [c]) e = choices.length :=
      first_last ((hmem e).mp he).2.2 ((hmem e).mp he).2.1
    have hkept (e : Entry) (he : e ∈ entries) : first (choices ++ [c]) e = first choices e :=
      first_append ((h.mem_iff e).mp he).2 [c]
    refine List.pairwise_append.mpr ⟨?_, ?_, fun d hd e he => .inl ?_⟩
    · refine h.ordered.imp_of_mem fun hd he hbefore => ?_
      rwa [Before, hkept _ hd, hkept _ he]
    · refine List.pairwise_iff_forall_sublist.mpr fun {d e} hde => .inr ⟨?_, ?_⟩
      · rw [hplace d (hde.mem (by simp)), hplace e (hde.mem (by simp))]
      · exact hde.trans (List.filter_sublist.trans hsub)
    · rw [hkept d hd, hplace e he]
      exact first_lt_iff.mpr ((h.mem_iff d).mp hd).2

lemma listed_foldl (hdistinct : (r.entries.map fun e => (e.name, e.version)).Nodup)
    (choices : List Choice) :
    r.Listed choices (choices.foldl (fun done c => addNew done (r.selected c)) []) := by
  induction choices using List.reverseRecOn with
  | nil => exact listed_nil r
  | append_singleton choices c ih =>
    rw [List.foldl_append]
    exact ih.snoc hdistinct c

/-- Of two members of a row without repeats only one comes before the other. -/
lemma not_sublist_of_nodup {d e : Entry} {entries : List Entry} (h : entries.Nodup)
    (hde : [d, e].Sublist entries) : ¬[e, d].Sublist entries := by
  induction entries with
  | nil => cases hde
  | cons x entries ih =>
    obtain ⟨hx, h⟩ := List.nodup_cons.mp h
    intro hed
    cases hde with
    | cons _ hde =>
      cases hed with
      | cons _ hed => exact ih h hde hed
      | cons_cons _ hed => exact hx (hde.mem (by simp))
    | cons_cons _ hde =>
      cases hed with
      | cons _ hed => exact hx (hed.mem (by simp))
      | cons_cons _ hed => exact hx (hde.mem (by simp))

/-- There is only one way to list what choices select. -/
lemma Listed.unique {entries' : List Entry} (hentries : r.entries.Nodup)
    (h : r.Listed choices entries) (h' : r.Listed choices entries') : entries = entries' := by
  have hperm : entries.Perm entries' :=
    (List.perm_ext_iff_of_nodup h.nodup h'.nodup).mpr fun e => by rw [h.mem_iff, h'.mem_iff]
  refine List.Perm.eq_of_pairwise (fun d e _ _ hde hed => ?_) h.ordered h'.ordered hperm
  obtain hde | ⟨hplace, hde⟩ := hde <;> obtain hed | ⟨hplace', hed⟩ := hed
  · omega
  · omega
  · omega
  · exact absurd hed (not_sublist_of_nodup hentries hde)

/-- What a selection comes to: all entries if it asks for them, what its tokens select if each of
them selects something, and else what is wrong with the first that does not. -/
inductive Resolved (r : Registry) (option : String) : Except RegistryError (List Entry) → Prop where
  | all (h : Selection.AsksAll option) : Resolved r option (.ok r.entries)
  | listed {tokens : List String} {choices : List Choice} {entries : List Entry}
      (hall : ¬Selection.AsksAll option) (htokens : Selection.Lists option tokens)
      (hnames : List.Forall₂ r.Names tokens choices) (hlisted : r.Listed choices entries) :
    Resolved r option (.ok entries)
  | failed {before after : List String} {token : String} {choices : List Choice}
      {error : RegistryError} (hall : ¬Selection.AsksAll option)
      (htokens : Selection.Lists option (before ++ token :: after))
      (hbefore : List.Forall₂ r.Names before choices) (hfails : r.Fails token error) :
    Resolved r option (.error error)

variable {option : String} {tokens : List String}

/-- Tokens all name choices, or there is a first one that does not. -/
lemma named_or_failed (r : Registry) (tokens : List String) :
    (∃ choices, List.Forall₂ r.Names tokens choices) ∨
      ∃ before token after choices error, tokens = before ++ token :: after ∧
        List.Forall₂ r.Names before choices ∧ r.Fails token error := by
  induction tokens with
  | nil => exact .inl ⟨[], .nil⟩
  | cons token tokens ih =>
    obtain ⟨c, hc⟩ | ⟨error, hfails⟩ := r.names_or_fails token
    · obtain ⟨choices, hrest⟩ | ⟨before, failing, after, choices, error, rfl, hbefore, hfails⟩ := ih
      · exact .inl ⟨c :: choices, .cons hc hrest⟩
      · exact .inr ⟨token :: before, failing, after, c :: choices, error, rfl, .cons hc hbefore,
          hfails⟩
    · exact .inr ⟨[], token, tokens, [], error, rfl, .nil, hfails⟩

/-- Tokens that name choices add what these select, before the other tokens are looked at. -/
lemma foldlM_select (h : List.Forall₂ r.Names tokens choices) (done : List Entry)
    (rest : List String) : (tokens ++ rest).foldlM r.select done =
      rest.foldlM r.select (choices.foldl (fun done c => addNew done (r.selected c)) done) := by
  induction h generalizing done with
  | nil => rfl
  | cons hc _ ih =>
    rw [List.cons_append, List.foldlM_cons, select_of_names hc]
    exact ih _

lemma exists_resolved (hdistinct : (r.entries.map fun e => (e.name, e.version)).Nodup)
    (option : String) : ∃ result, r.Resolved option result := by
  by_cases hall : Selection.AsksAll option
  · exact ⟨_, .all hall⟩
  have htokens : Selection.Lists option _ := Selection.splitOn_eq_iff.mp rfl
  obtain ⟨choices, hnames⟩ | ⟨before, token, after, choices, error, heq, hbefore, hfails⟩ :=
    r.named_or_failed (Text.splitOn ',' option)
  · exact ⟨_, .listed hall htokens hnames (listed_foldl hdistinct choices)⟩
  · exact ⟨_, .failed hall (heq ▸ htokens) hbefore hfails⟩

lemma resolve_of_lists (hall : ¬Selection.AsksAll option)
    (htokens : Selection.Lists option tokens) :
    r.resolve option = tokens.foldlM r.select [] := by
  rw [resolve, if_neg (mt Selection.isAuto_iff.mp hall), Selection.splitOn_eq_iff.mpr htokens]

lemma Resolved.resolve_eq {result : Except RegistryError (List Entry)}
    (hdistinct : (r.entries.map fun e => (e.name, e.version)).Nodup)
    (h : r.Resolved option result) : r.resolve option = result := by
  cases h with
  | all h => rw [resolve, if_pos (Selection.isAuto_iff.mpr h)]
  | @listed tokens choices entries hall htokens hnames hlisted =>
    have hrun := foldlM_select hnames [] []
    rw [List.append_nil, (listed_foldl hdistinct choices).unique (.of_map _ hdistinct) hlisted]
      at hrun
    rw [resolve_of_lists hall htokens, hrun]
    rfl
  | @failed before after token choices error hall htokens hbefore hfails =>
    rw [resolve_of_lists hall htokens, foldlM_select hbefore, List.foldlM_cons,
      select_of_fails hfails]
    rfl

/-- After any calls a selection resolves to what it comes to, and to nothing else: to all entries in
the order of their registration, to the entries that its tokens select, each once and in order, or
to what is wrong with the first token that is malformed or selects nothing. -/
theorem resolve_eq_iff (calls : List Call) (option : String)
    (result : Except RegistryError (List Entry)) :
    (after empty calls).resolve option = result ↔ (after empty calls).Resolved option result := by
  have hdistinct := (wellFormed_empty.after calls).distinct
  constructor
  · rintro rfl
    obtain ⟨result, h⟩ := exists_resolved hdistinct option
    rwa [h.resolve_eq hdistinct]
  · exact Resolved.resolve_eq hdistinct

end Registry
end Unmask
