import Mathlib.Data.List.Basic
import Unmask.Disguise.Basic
import Unmask.Layers
import Unmask.Proofs.TextOctets

/-!
# Where peeling ends

Of the layers on a program only the first kind that matches counts, so there is at most one program
below each. Peeling goes down from program to program and stops at the first that counts as the last
one, at the greatest number of layers, or where nothing can be peeled off; it reports the program at
which it stopped and how many layers lay above it.
-/
namespace Unmask.Pile

variable {α : Type} {p : Pile α} {m : α} {trail : List String}

/-- The first kind of layer that is on a program. -/
def FirstOn (p : Pile α) (m : α) (layer : Layer α) : Prop :=
  ∃ before after, p.layers = before ++ layer :: after ∧ layer.isOn m = true ∧
    ∀ other ∈ before, other.isOn m = false

/-- A program with a layer of that name, below which the next program lies. -/
def Hides (p : Pile α) (m : α) (name : String) (next : α) : Prop :=
  ∃ layer, p.FirstOn m layer ∧ layer.name = name ∧ layer.peel m = .ok (some next)

/-- The evidence of the layers that were peeled. -/
def trailNote (f : Failure) (trail : List String) : Failure :=
  f.note "trail" (.text (" -> ".intercalate trail))

/-- Why nothing can be peeled off a program that lay below the layers of a trail. -/
inductive Bare (p : Pile α) (m : α) (trail : List String) : Failure → Prop where
  | unrecognized (h : ∀ layer ∈ p.layers, layer.isOn m = false) :
    Bare p m trail (trailNote (.new .unrecognizedLayer
      s!"no {p.title} layer shape matches the current tree") trail)
  | empty {layer : Layer α} (h : p.FirstOn m layer) (hpeel : layer.peel m = .ok none) :
    Bare p m trail (trailNote (.new .layerNotLocated
      s!"could not locate the payload of layer '{layer.name}'") trail)
  | refused {layer : Layer α} {f : Failure} (h : p.FirstOn m layer)
      (hpeel : layer.peel m = .error f) :
    Bare p m trail (f.note "layer" (.text layer.name))

/-- The layer that is looked for is the first one. -/
lemma find?_eq_some_iff {layer : Layer α} :
    (p.layers.find? fun l => l.isOn m) = some layer ↔ p.FirstOn m layer := by
  rw [List.find?_eq_some_iff_append]
  constructor
  · rintro ⟨hon, before, after, hlayers, hbefore⟩
    exact ⟨before, after, hlayers, hon, fun other h => by simpa using hbefore other h⟩
  · rintro ⟨before, after, hlayers, hon, hbefore⟩
    exact ⟨hon, before, after, hlayers, fun other h => by simpa using hbefore other h⟩

lemma FirstOn.unique {a b : Layer α} (ha : p.FirstOn m a) (hb : p.FirstOn m b) : a = b :=
  Option.some.inj ((find?_eq_some_iff.mpr ha).symm.trans (find?_eq_some_iff.mpr hb))

/-- No layer is the first one if none is on the program. -/
lemma FirstOn.not_forall {layer : Layer α} (h : p.FirstOn m layer) :
    ¬ ∀ other ∈ p.layers, other.isOn m = false := by
  obtain ⟨before, after, hlayers, hon, -⟩ := h
  intro hnone
  have hoff := hnone layer (by simp [hlayers])
  rw [hon] at hoff
  contradiction

lemma Hides.unique {name name' : String} {next next' : α} (h : p.Hides m name next)
    (h' : p.Hides m name' next') : name = name' ∧ next = next' := by
  obtain ⟨layer, hfirst, rfl, hpeel⟩ := h
  obtain ⟨layer', hfirst', rfl, hpeel'⟩ := h'
  obtain rfl := hfirst.unique hfirst'
  rw [hpeel] at hpeel'
  cases hpeel'
  exact ⟨rfl, rfl⟩

/-- Nothing lies below a bare program. -/
lemma Bare.not_hides {f : Failure} (h : p.Bare m trail f) (name : String) (next : α) :
    ¬ p.Hides m name next := by
  rintro ⟨layer, hfirst, -, hpeel⟩
  cases h with
  | unrecognized hnone => exact hfirst.not_forall hnone
  | empty hfirst' hpeel' | refused hfirst' hpeel' =>
    obtain rfl := hfirst.unique hfirst'
    rw [hpeel] at hpeel'
    cases hpeel'

lemma Bare.unique {f f' : Failure} (h : p.Bare m trail f) (h' : p.Bare m trail f') : f = f' := by
  cases h with
  | unrecognized hnone =>
    cases h' with
    | unrecognized => rfl
    | empty hfirst _ | refused hfirst _ => exact absurd hnone hfirst.not_forall
  | empty hfirst hpeel =>
    cases h' with
    | unrecognized hnone => exact absurd hnone hfirst.not_forall
    | empty hfirst' hpeel' =>
      obtain rfl := hfirst.unique hfirst'
      rfl
    | refused hfirst' hpeel' =>
      obtain rfl := hfirst.unique hfirst'
      rw [hpeel] at hpeel'
      contradiction
  | refused hfirst hpeel =>
    cases h' with
    | unrecognized hnone => exact absurd hnone hfirst.not_forall
    | empty hfirst' hpeel' =>
      obtain rfl := hfirst.unique hfirst'
      rw [hpeel] at hpeel'
      contradiction
    | refused hfirst' hpeel' =>
      obtain rfl := hfirst.unique hfirst'
      rw [hpeel] at hpeel'
      cases hpeel'
      rfl

/-- To peel one layer gives the program below, or tells why there is none. -/
theorem peelOne_spec (p : Pile α) (m : α) (trail : List String) :
    (∃ name next, p.peelOne m trail = .ok (next, name) ∧ p.Hides m name next) ∨
      ∃ f, p.peelOne m trail = .error ⟨f, m, trail.length⟩ ∧ p.Bare m trail f := by
  unfold peelOne
  cases hfind : p.layers.find? fun l => l.isOn m with
  | none =>
    have hnone : ∀ layer ∈ p.layers, layer.isOn m = false := by
      simpa using List.find?_eq_none.mp hfind
    exact .inr ⟨_, rfl, .unrecognized hnone⟩
  | some layer =>
    have hfirst := find?_eq_some_iff.mp hfind
    cases hpeel : layer.peel m with
    | error f => exact .inr ⟨_, by simp only [hpeel], .refused hfirst hpeel⟩
    | ok found =>
      cases found with
      | none => exact .inr ⟨_, by simp only [hpeel, stop]; rfl, .empty hfirst hpeel⟩
      | some next => exact .inl ⟨layer.name, next, by simp only [hpeel], layer, hfirst, rfl, hpeel⟩

/-- The program that lies so many layers below another one, and the names of the layers. -/
inductive Below (p : Pile α) (top : α) : Nat → α → List String → Prop where
  | top : Below p top 0 top []
  | layer {n : Nat} {m next : α} {trail : List String} {name : String} :
    Below p top n m trail → p.Hides m name next → Below p top (n + 1) next (trail ++ [name])

variable {top : α} {isLast : α → List String → Bool} {n : Nat}

lemma Below.length_trail (h : p.Below top n m trail) : trail.length = n := by
  induction h with
  | top => rfl
  | layer _ _ ih => rw [List.length_append, ih, List.length_singleton]

lemma Below.unique {m' : α} {trail' : List String} (h : p.Below top n m trail)
    (h' : p.Below top n m' trail') : m = m' ∧ trail = trail' := by
  induction h generalizing m' trail' with
  | top =>
    cases h'
    exact ⟨rfl, rfl⟩
  | layer _ hides ih =>
    cases h' with
    | layer below' hides' =>
      obtain ⟨rfl, rfl⟩ := ih below'
      obtain ⟨rfl, rfl⟩ := hides.unique hides'
      exact ⟨rfl, rfl⟩

/-- A program that lies deeper lies below each program on the way. -/
lemma Below.exists_hides (h : p.Below top n m trail) {i : Nat} (hi : i < n) :
    ∃ m' trail' name next, p.Below top i m' trail' ∧ p.Hides m' name next := by
  induction h with
  | top => exact absurd hi (Nat.not_lt_zero i)
  | layer below hides ih =>
    rcases Nat.lt_succ_iff_lt_or_eq.mp hi with hlt | rfl
    · exact ih hlt
    · exact ⟨_, _, _, _, below, hides⟩

/-- Peeling comes to a program: none of those above it counts as the last one. -/
structure Reaches (p : Pile α) (isLast : α → List String → Bool) (top : α) (n : Nat) (m : α)
    (trail : List String) : Prop where
  below : p.Below top n m trail
  passed : ∀ i < n, ∀ m' trail', p.Below top i m' trail' → isLast m' trail' = false

/-- A program below one that is not the last is reached from it. -/
lemma Reaches.next {name : String} {next : α} (h : p.Reaches isLast top n m trail)
    (hopen : isLast m trail = false) (hides : p.Hides m name next) :
    p.Reaches isLast top (n + 1) next (trail ++ [name]) := by
  refine ⟨.layer h.below hides, fun i hi m' trail' below => ?_⟩
  rcases Nat.lt_succ_iff_lt_or_eq.mp hi with hlt | rfl
  · exact h.passed i hlt m' trail' below
  · obtain ⟨rfl, rfl⟩ := below.unique h.below
    exact hopen

/-- Peeling goes no further than a program. -/
structure Halts (p : Pile α) (isLast : α → List String → Bool) (top : α) (n : Nat) (m : α)
    (trail : List String) : Prop where
  reaches : p.Reaches isLast top n m trail
  within : n ≤ p.maxLayers
  why : isLast m trail = true ∨ n = p.maxLayers ∨ ∃ f, p.Bare m trail f

section Halts

variable {n' : Nat} {m' : α} {trail' : List String}

lemma Halts.le (h : p.Halts isLast top n m trail) (h' : p.Halts isLast top n' m' trail') :
    n ≤ n' := by
  by_contra hlt
  rcases h'.why with hlast | hlimit | ⟨f, hbare⟩
  · have hopen := h.reaches.passed n' (Nat.not_le.mp hlt) m' trail' h'.reaches.below
    rw [hlast] at hopen
    contradiction
  · exact hlt (hlimit ▸ h.within)
  · obtain ⟨_, _, name, next, below, hides⟩ := h.reaches.below.exists_hides (Nat.not_le.mp hlt)
    obtain ⟨rfl, -⟩ := below.unique h'.reaches.below
    exact hbare.not_hides name next hides

/-- There is one program at most at which peeling halts. -/
lemma Halts.unique (h : p.Halts isLast top n m trail) (h' : p.Halts isLast top n' m' trail') :
    n = n' ∧ m = m' ∧ trail = trail' := by
  obtain rfl := Nat.le_antisymm (h.le h') (h'.le h)
  exact ⟨rfl, h.reaches.below.unique h'.reaches.below⟩

end Halts

/-- The failure of a run that may go no deeper. -/
def tooDeep (p : Pile α) (trail : List String) : Failure :=
  trailNote (.new .iterationLimitExceeded s!"{p.title} did not finish within {p.maxLayers} layers")
    trail

/-- A run succeeds at a program that counts as the last one. -/
structure Succeeds (p : Pile α) (isLast : α → List String → Bool) (top : α) (r : Peeled α) :
    Prop where
  within : r.steps ≤ p.maxLayers
  reaches : p.Reaches isLast top r.steps r.program r.trail
  last : isLast r.program r.trail = true

/-- A run fails at a program that does not, at the limit or because nothing can be peeled off. -/
structure Fails (p : Pile α) (isLast : α → List String → Bool) (top : α) (f : LayerFailure α)
    (trail : List String) : Prop where
  reaches : p.Reaches isLast top f.steps f.reached trail
  notLast : isLast f.reached trail = false
  why : f.steps = p.maxLayers ∧ f.failure = p.tooDeep trail ∨
    f.steps < p.maxLayers ∧ p.Bare f.reached trail f.failure

lemma Succeeds.halts {r : Peeled α} (h : p.Succeeds isLast top r) :
    p.Halts isLast top r.steps r.program r.trail :=
  ⟨h.reaches, h.within, .inl h.last⟩

lemma Fails.halts {f : LayerFailure α} (h : p.Fails isLast top f trail) :
    p.Halts isLast top f.steps f.reached trail := by
  rcases h.why with ⟨hlimit, -⟩ | ⟨hlt, hbare⟩
  · exact ⟨h.reaches, Nat.le_of_eq hlimit, .inr (.inl hlimit)⟩
  · exact ⟨h.reaches, Nat.le_of_lt hlt, .inr (.inr ⟨_, hbare⟩)⟩

lemma Succeeds.unique {r r' : Peeled α} (h : p.Succeeds isLast top r)
    (h' : p.Succeeds isLast top r') : r = r' := by
  obtain ⟨-, hprogram, htrail⟩ := h.halts.unique h'.halts
  cases r
  cases r'
  cases hprogram
  cases htrail
  rfl

lemma Fails.unique {f f' : LayerFailure α} {trail' : List String}
    (h : p.Fails isLast top f trail) (h' : p.Fails isLast top f' trail') : f = f' := by
  obtain ⟨hsteps, hreached, htrail⟩ := h.halts.unique h'.halts
  have hfailure : f.failure = f'.failure := by
    rcases h.why with ⟨hlimit, hfailure⟩ | ⟨hlt, hbare⟩ <;>
      rcases h'.why with ⟨hlimit', hfailure'⟩ | ⟨hlt', hbare'⟩
    · rw [hfailure, hfailure', htrail]
    · omega
    · omega
    · rw [← hreached, ← htrail] at hbare'
      exact hbare.unique hbare'
  cases f
  cases f'
  cases hsteps
  cases hreached
  cases hfailure
  rfl

/-- No run both succeeds and fails. -/
lemma Succeeds.not_fails {r : Peeled α} {f : LayerFailure α} (h : p.Succeeds isLast top r) :
    ¬ p.Fails isLast top f trail := by
  intro h'
  obtain ⟨-, hprogram, htrail⟩ := h.halts.unique h'.halts
  have hlast := h.last
  rw [hprogram, htrail, h'.notLast] at hlast
  contradiction

/-- How a run ends. -/
def Ends (p : Pile α) (isLast : α → List String → Bool) (top : α) :
    Except (LayerFailure α) (Peeled α) → Prop
  | .ok r => p.Succeeds isLast top r
  | .error f => ∃ trail, p.Fails isLast top f trail

/-- What is left of a run ends as the whole run does. -/
lemma ends_peelUpTo (n : Nat) {i : Nat} (h : p.Reaches isLast top i m trail)
    (hn : i + n = p.maxLayers) : p.Ends isLast top (p.peelUpTo isLast n m trail) := by
  have htrail : trail.length = i := h.below.length_trail
  induction n generalizing i m trail with
  | zero =>
    rw [peelUpTo]
    split
    · next hlast =>
      subst htrail
      exact ⟨by simp only [Peeled.steps]; omega, h, hlast⟩
    · next hopen =>
      subst htrail
      exact ⟨trail, h, Bool.eq_false_iff.mpr hopen, .inl ⟨hn, rfl⟩⟩
  | succ n ih =>
    rw [peelUpTo]
    split
    · next hlast =>
      subst htrail
      exact ⟨by simp only [Peeled.steps]; omega, h, hlast⟩
    · next hopen =>
      have hopen := Bool.eq_false_iff.mpr hopen
      obtain ⟨name, next, hpeel, hides⟩ | ⟨f, hpeel, hbare⟩ := peelOne_spec p m trail
      · rw [hpeel]
        have hnext := h.next hopen hides
        exact ih hnext (by omega) hnext.below.length_trail
      · rw [hpeel]
        subst htrail
        exact ⟨trail, h, hopen, .inr ⟨by simp only; omega, hbare⟩⟩

/-- A whole run ends as it should. -/
lemma ends_run (p : Pile α) (isLast : α → List String → Bool) (top : α) :
    p.Ends isLast top (p.run top isLast) :=
  ends_peelUpTo p.maxLayers ⟨.top, fun _ hi => absurd hi (Nat.not_lt_zero _)⟩ (Nat.zero_add _)

/-- Every run succeeds or fails, in the way that its first halt determines and in no other. -/
lemma run_eq_ok_iff {r : Peeled α} : p.run top isLast = .ok r ↔ p.Succeeds isLast top r := by
  have hends := ends_run p isLast top
  constructor
  · intro hrun
    rwa [hrun] at hends
  · intro h
    cases hrun : p.run top isLast with
    | ok r' =>
      rw [hrun] at hends
      rw [h.unique hends]
    | error f =>
      rw [hrun] at hends
      obtain ⟨trail, hfails⟩ := hends
      exact absurd hfails h.not_fails

lemma run_eq_error_iff {f : LayerFailure α} :
    p.run top isLast = .error f ↔ ∃ trail, p.Fails isLast top f trail := by
  have hends := ends_run p isLast top
  constructor
  · intro hrun
    rwa [hrun] at hends
  · rintro ⟨trail, h⟩
    cases hrun : p.run top isLast with
    | ok r =>
      rw [hrun] at hends
      exact absurd h hends.not_fails
    | error f' =>
      rw [hrun] at hends
      obtain ⟨trail', h'⟩ := hends
      rw [h.unique h']

/-- A run that may go no deeper is one that came to the limit past no last program. -/
lemma fails_at_limit_iff {f : LayerFailure α} :
    (∃ trail, p.Fails isLast top f trail) ∧ f.steps = p.maxLayers ↔
      ∃ trail, p.Reaches isLast top p.maxLayers f.reached trail ∧
        isLast f.reached trail = false ∧ f = ⟨p.tooDeep trail, f.reached, p.maxLayers⟩ := by
  constructor
  · rintro ⟨⟨trail, hreaches, hopen, ⟨hsteps, hfailure⟩ | ⟨hlt, -⟩⟩, hlimit⟩
    · refine ⟨trail, hsteps ▸ hreaches, hopen, ?_⟩
      rw [← hfailure, ← hsteps]
    · omega
  · rintro ⟨trail, hreaches, hopen, heq⟩
    rw [heq]
    exact ⟨⟨trail, hreaches, hopen, .inl ⟨rfl, rfl⟩⟩, rfl⟩

lemma run_of_last (h : isLast top [] = true) : p.run top isLast = .ok ⟨top, []⟩ :=
  run_eq_ok_iff.mpr ⟨Nat.zero_le _, ⟨.top, fun _ hi => absurd hi (Nat.not_lt_zero _)⟩, h⟩

lemma run_of_bare {f : Failure} (hopen : isLast top [] = false) (hlimit : 0 < p.maxLayers)
    (hbare : p.Bare top [] f) : p.run top isLast = .error ⟨f, top, 0⟩ :=
  run_eq_error_iff.mpr ⟨[], ⟨.top, fun _ hi => absurd hi (Nat.not_lt_zero _)⟩, hopen,
    .inr ⟨hlimit, hbare⟩⟩

/-- A run that fails before it has peeled a layer has reached no other program. -/
lemma Fails.reached_top {f : LayerFailure α} (h : p.Fails isLast top f trail)
    (hsteps : f.steps = 0) :
    f.reached = top ∧ trail = [] := by
  have hbelow := h.reaches.below
  rw [hsteps] at hbelow
  exact hbelow.unique .top

/-- If layers do not fail for want of layers, a program that does has none on it. -/
lemma Bare.forall_off {f : Failure} (h : p.Bare m trail f)
    (hpeel : ∀ layer ∈ p.layers, ∀ f, layer.peel m = .error f → f.kind ≠ .unrecognizedLayer)
    (hkind : f.kind = .unrecognizedLayer) : ∀ layer ∈ p.layers, layer.isOn m = false := by
  cases h with
  | unrecognized hnone => exact hnone
  | empty hfirst hempty => contradiction
  | @refused layer f hfirst hrefused =>
    obtain ⟨before, after, hlayers, -⟩ := hfirst
    exact absurd hkind (hpeel layer (by simp [hlayers]) f hrefused)

/-- A run finds no layer at the top just where there is none and the top is not the last. -/
lemma unrecognized_top_iff (hlimit : 0 < p.maxLayers)
    (hpeel : ∀ layer ∈ p.layers, ∀ f, layer.peel top = .error f → f.kind ≠ .unrecognizedLayer) :
    (∃ f, p.run top isLast = .error f ∧ f.failure.kind = .unrecognizedLayer ∧ f.steps = 0) ↔
      isLast top [] = false ∧ ∀ layer ∈ p.layers, layer.isOn top = false := by
  constructor
  · rintro ⟨f, hrun, hkind, hsteps⟩
    obtain ⟨trail, hfails⟩ := run_eq_error_iff.mp hrun
    obtain ⟨hreached, rfl⟩ := hfails.reached_top hsteps
    have hopen := hreached ▸ hfails.notLast
    obtain ⟨hdeep, -⟩ | ⟨-, hbare⟩ := hfails.why
    · omega
    · rw [hreached] at hbare
      exact ⟨hopen, hbare.forall_off hpeel hkind⟩
  · rintro ⟨hopen, hnone⟩
    exact ⟨_, run_of_bare hopen hlimit (.unrecognized hnone), rfl, rfl⟩

/-- A failure that is reported tells where peeling stopped besides its own evidence. -/
lemma lookup_toFailure (f : LayerFailure α) (text : α → String) (name : String) :
    (f.toFailure text).diagnostics.lookup name =
      if name = "partial" then some (.text (text f.reached))
      else if name = "steps" then some (.text (toString f.steps))
      else f.failure.diagnostics.lookup name := by
  rw [LayerFailure.toFailure, Failure.lookup_note, Failure.lookup_note]

/-- A run succeeds exactly at the first program that counts as the last, within the limit; it may
go no deeper exactly if there is none down to the limit; and else it fails exactly at the first
program that is bare. A failure that is reported has the kind and the message of the one that was
met, and tells the program at which peeling stopped and how many layers lay above. -/
theorem run_exact (p : Pile α) (isLast : α → List String → Bool) (top : α) :
    (∀ r, p.run top isLast = .ok r ↔ p.Succeeds isLast top r) ∧
    (∀ f, p.run top isLast = .error f ↔ ∃ trail, p.Fails isLast top f trail) ∧
    (∀ f, p.run top isLast = .error f ∧ f.steps = p.maxLayers ↔
      ∃ trail, p.Reaches isLast top p.maxLayers f.reached trail ∧
        isLast f.reached trail = false ∧ f = ⟨p.tooDeep trail, f.reached, p.maxLayers⟩) ∧
    ∀ (f : LayerFailure α) (text : α → String),
      (f.toFailure text).kind = f.failure.kind ∧
      (f.toFailure text).message = f.failure.message ∧
      ∀ name, (f.toFailure text).diagnostics.lookup name =
        if name = "partial" then some (.text (text f.reached))
        else if name = "steps" then some (.text (toString f.steps))
        else f.failure.diagnostics.lookup name := by
  refine ⟨fun r => run_eq_ok_iff, fun f => run_eq_error_iff, fun f => ?_, fun f text => ?_⟩
  · rw [run_eq_error_iff]
    exact fails_at_limit_iff
  · exact ⟨rfl, rfl, lookup_toFailure f text⟩

end Unmask.Pile

namespace Unmask.Disguise

variable {α ε : Type} {name s : String} {program : Module} {octets : Bytes} {f : Failure}

/-- The octets of a text are read as its program. -/
lemma readOctets_encode (hs : Module.parse s = .ok program) :
    readOctets name (Text.Utf8.encode s) = .ok program := by
  have htext : decodeText (Text.Utf8.encode s) = .ok s := by
    rw [decodeText, Text.Utf8.decode_eq_ok_iff.mpr rfl]
    rfl
  rw [readOctets, htext]
  show readProgram name s = .ok program
  rw [readProgram, hs]
  rfl

lemma mapError_eq_error {ε' : Type} {r : Except ε α} {g : ε → ε'} {e' : ε'}
    (h : r.mapError g = .error e') : ∃ e, r = .error e ∧ g e = e' := by
  cases r with
  | ok a => cases h
  | error e => exact ⟨e, rfl, Except.error.inj h⟩

lemma failure_of_witnessed {toFailure : ε → Failure} {evidence : Diagnostic} {r : Except ε α}
    (h : witnessed toFailure name evidence r = .error f) :
    ∃ e, r = .error e ∧ f = (toFailure e).note name evidence := by
  obtain ⟨e, he, rfl⟩ := mapError_eq_error h
  exact ⟨e, he, rfl⟩

/-- Octets that are not read are no text, or the text is no program. -/
lemma failure_of_readOctets (h : readOctets name octets = .error f) :
    (∃ e, f = .ofDecodeError e) ∨
      ∃ e text, f = (Failure.ofSyntaxError e).note name (.text text) := by
  rw [readOctets] at h
  cases htext : decoded (decodeText octets) with
  | error f' =>
    rw [htext] at h
    obtain rfl : f' = f := Except.error.inj h
    obtain ⟨e, -, rfl⟩ := mapError_eq_error htext
    exact .inl ⟨e, rfl⟩
  | ok text =>
    rw [htext] at h
    obtain ⟨e, -, rfl⟩ := failure_of_witnessed h
    exact .inr ⟨e, text, rfl⟩

end Unmask.Disguise
