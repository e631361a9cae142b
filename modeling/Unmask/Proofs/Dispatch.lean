import Mathlib.Data.List.Basic
import Mathlib.Data.List.Forall2
import Unmask.Dispatch

/-!
# What a run of a pipeline comes to

A run resolves the selection, asks the scanners which of the entries are to be tried, and tries
these one after the other. What comes of it is described here without the run: the entries to try
are split at the first one that succeeds, and each of those before it has failed in its own way. The
run is the only thing that fits the description, down to what it asks of which schema, and when.
-/
namespace Unmask

variable {e : Entry} {source : String}

@[simp] lemma Unmasker.run_schema {α : Type} (u : Unmasker α) (source : String) :
    u.schema.run source = (u.unmask source).map u.report := rfl

/-- The unmasker of an entry, whatever it is, takes the disguise off, and reports that text of
it. -/
def Entry.Reports (e : Entry) (source output : String) : Prop :=
  ∀ (α : Type) (u : Unmasker α), e.schema = u.schema →
    ∃ a, u.unmask source = .ok a ∧ u.report a = output

/-- The unmasker of an entry, whatever it is, fails in that way. -/
def Entry.FailsWith (e : Entry) (source : String) (failure : Failure) : Prop :=
  ∀ (α : Type) (u : Unmasker α), e.schema = u.schema → u.unmask source = .error failure

/-- A schema is that of the unmasker that has nothing left to report. -/
lemma Schema.eq_unmasker_schema (s : Schema) : s = (Unmasker.mk s.scan s.run id).schema := by
  cases s with
  | mk scan run =>
    simp only [Unmasker.schema, Schema.mk.injEq, true_and]
    funext source
    cases run source <;> rfl

lemma Entry.reports_iff {output : String} :
    e.Reports source output ↔ e.schema.run source = .ok output := by
  constructor
  · intro h
    obtain ⟨a, hunmask, rfl⟩ := h String _ e.schema.eq_unmasker_schema
    exact hunmask
  · intro hrun α u hschema
    rw [hschema, Unmasker.run_schema] at hrun
    cases hunmask : u.unmask source with
    | ok a =>
      rw [hunmask] at hrun
      exact ⟨a, rfl, Except.ok.inj hrun⟩
    | error failure =>
      rw [hunmask] at hrun
      contradiction

lemma Entry.failsWith_iff {failure : Failure} :
    e.FailsWith source failure ↔ e.schema.run source = .error failure := by
  constructor
  · intro h
    exact h String _ e.schema.eq_unmasker_schema
  · intro hrun α u hschema
    rw [hschema, Unmasker.run_schema] at hrun
    cases hunmask : u.unmask source with
    | ok a =>
      rw [hunmask] at hrun
      contradiction
    | error failure' =>
      rw [hunmask] at hrun
      cases hrun
      rfl

/-- Each of the entries fails in the way that its attempt tells. -/
def Failed (source : String) : List Entry → List Attempt → Prop :=
  List.Forall₂ fun e attempt => attempt.schema = e.label ∧ e.FailsWith source attempt.failure

/-- Entries all fail, or there is a first one that does not. -/
lemma failed_or_reports (source : String) (entries : List Entry) :
    (∃ attempts, Failed source entries attempts) ∨
      ∃ before e after attempts output, entries = before ++ e :: after ∧
        Failed source before attempts ∧ e.Reports source output := by
  induction entries with
  | nil => exact .inl ⟨[], .nil⟩
  | cons e rest ih =>
    cases hrun : e.schema.run source with
    | ok output =>
      exact .inr ⟨[], e, rest, [], output, rfl, .nil, Entry.reports_iff.mpr hrun⟩
    | error failure =>
      have hfails : e.FailsWith source failure := Entry.failsWith_iff.mpr hrun
      obtain ⟨attempts, hrest⟩ | ⟨before, e', after, attempts, output, rfl, hbefore, hreports⟩ := ih
      · exact .inl ⟨⟨e.label, failure⟩ :: attempts, .cons ⟨rfl, hfails⟩ hrest⟩
      · exact .inr ⟨e :: before, e', after, ⟨e.label, failure⟩ :: attempts, output, rfl,
          .cons ⟨rfl, hfails⟩ hbefore, hreports⟩

/-- What the schema of an entry can be asked. -/
inductive Question where
  | scan (e : Entry)
  | run (e : Entry)

namespace Pipeline

/-- The selected entries that are tried. -/
def kept (p : Pipeline) (source : String) (selected : List Entry) : List Entry :=
  if p.skipScan then selected else selected.filter fun e => e.schema.scan source

/-- What is asked in order to find them. -/
def scans (p : Pipeline) (selected : List Entry) : List Question :=
  if p.skipScan then [] else selected.map .scan

/-- What a run on a source comes to, and what is asked for it. -/
inductive Dispatched (p : Pipeline) (source : String) :
    Except PipelineError Unmasked → List Question → Prop where
  | unresolved {error : RegistryError} (h : p.registry.resolve p.selection.toText = .error error) :
    Dispatched p source (.error (.registry error)) []
  | unrecognized {selected : List Entry}
      (h : p.registry.resolve p.selection.toText = .ok selected)
      (hkept : p.kept source selected = []) :
    Dispatched p source (.error .noCandidates) (p.scans selected)
  | unmasked {selected before after : List Entry} {e : Entry} {attempts : List Attempt}
      {output : String} (h : p.registry.resolve p.selection.toText = .ok selected)
      (hkept : p.kept source selected = before ++ e :: after)
      (hbefore : Failed source before attempts) (hreports : e.Reports source output) :
    Dispatched p source (.ok ⟨e.label, output, attempts⟩)
      (p.scans selected ++ before.map .run ++ [.run e])
  | allFailed {selected : List Entry} {attempts : List Attempt}
      (h : p.registry.resolve p.selection.toText = .ok selected)
      (hkept : p.kept source selected ≠ [])
      (hfailed : Failed source (p.kept source selected) attempts) :
    Dispatched p source (.error (.allFailed attempts))
      (p.scans selected ++ (p.kept source selected).map .run)

lemma exists_dispatched (p : Pipeline) (source : String) :
    ∃ result asked, p.Dispatched source result asked := by
  cases hresolve : p.registry.resolve p.selection.toText with
  | error error => exact ⟨_, _, .unresolved hresolve⟩
  | ok selected =>
    by_cases hkept : p.kept source selected = []
    · exact ⟨_, _, .unrecognized hresolve hkept⟩
    · obtain ⟨attempts, hfailed⟩ |
          ⟨before, e, after, attempts, output, hsplit, hbefore, hreports⟩ :=
        failed_or_reports source (p.kept source selected)
      · exact ⟨_, _, .allFailed hresolve hkept hfailed⟩
      · exact ⟨_, _, .unmasked hresolve hsplit hbefore hreports⟩

end Pipeline

section Noting

variable {m : Type → Type} [Monad m]

/-- The schemas themselves are asked, and each question is noted first. -/
def Inquiry.noting (source : String) (note : Question → m Unit) : Inquiry m where
  scan e := do note (.scan e); return e.schema.scan source
  run e := do note (.run e); return e.schema.run source

variable {note : Question → m Unit}

lemma Inquiry.scan_noting (e : Entry) : (noting source note).scan e = do
    note (.scan e)
    return e.schema.scan source := rfl

lemma Inquiry.run_noting (e : Entry) : (noting source note).run e = do
    note (.run e)
    return e.schema.run source := rfl

variable [LawfulMonad m]

lemma filterAuxM_noting (entries found : List Entry) :
    entries.filterAuxM (Inquiry.noting source note).scan found = do
      forM (entries.map Question.scan) note
      return (entries.filter fun e => e.schema.scan source).reverse ++ found := by
  induction entries generalizing found with
  | nil => simp [List.filterAuxM]
  | cons e rest ih =>
    simp only [List.filterAuxM, Inquiry.scan_noting, bind_assoc, pure_bind, ih, List.map_cons,
      List.forM_cons]
    cases hscan : e.schema.scan source <;> simp [hscan]

/-- Each scanner is asked once, in order. -/
lemma filterM_noting (entries : List Entry) :
    entries.filterM (Inquiry.noting source note).scan = do
      forM (entries.map Question.scan) note
      return entries.filter fun e => e.schema.scan source := by
  simp [List.filterM, filterAuxM_noting]

namespace Pipeline

lemma candidatesBy_noting {p : Pipeline} {selected : List Entry}
    (h : p.registry.resolve p.selection.toText = .ok selected) :
    p.candidatesBy (.noting source note) = do
      forM (p.scans selected) note
      return .ok (p.kept source selected) := by
  cases hskip : p.skipScan <;> simp [candidatesBy, h, kept, scans, hskip, filterM_noting]

/-- Of entries that all fail each is run once, in order, before the others are tried. -/
lemma tryEach_failed {entries : List Entry} {attempts : List Attempt} (note : Question → m Unit)
    (h : Failed source entries attempts) (failed : List Attempt) (rest : List Entry) :
    tryEach (.noting source note) failed (entries ++ rest) =
      (do
        forM (entries.map Question.run) note
        tryEach (.noting source note) (failed ++ attempts) rest) := by
  induction h generalizing failed with
  | nil => simp
  | @cons e attempt entries attempts hattempt _ ih =>
    obtain ⟨hlabel, hfails⟩ := hattempt
    have hrun := Entry.failsWith_iff.mp hfails
    have hattempt : attempt = ⟨e.label, attempt.failure⟩ := by rw [← hlabel]
    simp only [List.cons_append, tryEach, Inquiry.run_noting, bind_assoc, pure_bind, hrun,
      ← hattempt, ih, List.map_cons, List.forM_cons, List.append_assoc, List.nil_append]

lemma runBy_noting {p : Pipeline} {selected : List Entry}
    (h : p.registry.resolve p.selection.toText = .ok selected)
    (hkept : p.kept source selected ≠ []) :
    p.runBy (.noting source note) =
      (do
        forM (p.scans selected) note
        tryEach (.noting source note) [] (p.kept source selected)) := by
  obtain ⟨e, rest, hcons⟩ := List.exists_cons_of_ne_nil hkept
  simp only [runBy, candidatesBy_noting h, bind_assoc, pure_bind, hcons]

/-- A run comes to what is described, and asks for it what is described, in that order. -/
lemma Dispatched.runBy_eq {p : Pipeline} {result : Except PipelineError Unmasked}
    {asked : List Question} (h : p.Dispatched source result asked) :
    p.runBy (.noting source note) = do
      forM asked note
      return result := by
  cases h with
  | unresolved h => simp [runBy, candidatesBy, h]
  | unrecognized h hkept => simp [runBy, candidatesBy_noting h, hkept]
  | @unmasked selected before after e attempts output h hkept hbefore hreports =>
    have hrun := Entry.reports_iff.mp hreports
    have hne : p.kept source selected ≠ [] := by simp [hkept]
    rw [runBy_noting h hne, hkept, tryEach_failed note hbefore, tryEach]
    simp [Inquiry.run_noting, hrun]
  | @allFailed selected attempts h hkept hfailed =>
    have htry := tryEach_failed note hfailed [] []
    rw [List.append_nil] at htry
    rw [runBy_noting h hkept, htry, tryEach]
    simp

end Pipeline

end Noting

namespace Pipeline

/-- Adds a question to those that were asked. -/
def record (question : Question) : StateM (List Question) Unit := modify (· ++ [question])

/-- A run that also lists what it asks. -/
def noted (p : Pipeline) (source : String) : Except PipelineError Unmasked × List Question :=
  ((p.runBy (.noting source record)).run []).run

lemma run_record (asked before : List Question) :
    (forM asked record).run before = pure ((), before ++ asked) := by
  induction asked generalizing before with
  | nil => simp
  | cons question rest ih =>
    have hfirst : (record question).run before = pure ((), before ++ [question]) := rfl
    rw [List.forM_cons, StateT.run_bind, hfirst, pure_bind, ih, List.append_assoc,
      List.singleton_append]

variable {p : Pipeline} {result : Except PipelineError Unmasked} {asked : List Question}

lemma Dispatched.run_eq (h : p.Dispatched source result asked) : p.run source = result := by
  have hsilent (asked : List Question) : forM asked (fun _ => (pure () : Id Unit)) = pure () := by
    induction asked with
    | nil => rfl
    | cons question rest ih => rw [List.forM_cons, pure_bind, ih]
  have hdirect : Inquiry.direct source = .noting source fun _ => pure () := rfl
  rw [Pipeline.run, hdirect, h.runBy_eq, hsilent, pure_bind, Id.run_pure]

lemma Dispatched.noted_eq (h : p.Dispatched source result asked) :
    p.noted source = (result, asked) := by
  rw [noted, h.runBy_eq, StateT.run_bind, run_record, pure_bind, StateT.run_pure, Id.run_pure,
    List.nil_append]

/-- A run that cannot resolve its selection reports that, and asks nothing. Else it asks the
scanners of the selected entries in order, unless they are left out, and of the entries that are
kept it runs each once in order, up to the first that succeeds: it reports the text of that one
under its label, with the failures of those before it, or all failures, or that there was nothing to
run. -/
theorem dispatched_iff (p : Pipeline) (source : String) (result : Except PipelineError Unmasked)
    (asked : List Question) :
    p.Dispatched source result asked ↔
      p.run source = result ∧ p.noted source = (result, asked) := by
  constructor
  · intro h
    exact ⟨h.run_eq, h.noted_eq⟩
  · rintro ⟨-, hnoted⟩
    obtain ⟨result', asked', h⟩ := exists_dispatched p source
    obtain ⟨rfl, rfl⟩ := Prod.mk.inj (h.noted_eq.symm.trans hnoted)
    exact h

end Pipeline

end Unmask
