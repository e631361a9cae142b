import Mathlib.Tactic.Lemma
import Unmask.Disguise.Hyperion
import Unmask.Proofs.Peeling

/-!
# Chunks and a scaffold, and no third layer

Peeling comes to few programs: the one on top, the one in its chunks, and what follows the scaffold
of either. What follows a scaffold is the last program, even if it starts with a `try` statement
again, so two layers are always enough. What can go wrong goes wrong at the program on top: a
scaffold always comes off.
-/
namespace Unmask.Hyperion
open Disguise

variable {m inner top : Module} {name : String} {trail : List String} {f : Failure}

/-- What statements resolve to, with all that became known written out. -/
def resolved (m : Module) : Module :=
  let (rest, session) := (Session.start Namespace.empty).transform m
  rest.clean session.names

lemma peelScaffold_eq (h : startsWithScaffold m = true) :
    peelScaffold m = .ok (some (resolved m.tail)) := by
  unfold startsWithScaffold at h
  split at h
  · rfl
  · contradiction

/-- One of the two kinds of layers is always on a program. -/
lemma firstOn_iff {layer : Layer Module} :
    pile.FirstOn m layer ↔ layer = if startsWithScaffold m then scaffold else outer := by
  rw [← Pile.find?_eq_some_iff]
  cases h : startsWithScaffold m <;> simp [pile, scaffold, outer, h, eq_comm]

lemma hides_iff : pile.Hides m name inner ↔
    startsWithScaffold m = true ∧ name = scaffold.name ∧ inner = resolved m.tail ∨
      startsWithScaffold m = false ∧ name = outer.name ∧ peelOuter m = .ok (some inner) := by
  simp only [Pile.Hides, firstOn_iff, exists_eq_left]
  cases h : startsWithScaffold m with
  | true => simp [scaffold, peelScaffold_eq h, eq_comm]
  | false => simp [outer, eq_comm]

/-- The failure of a program without chunks. -/
def noChunks : Failure :=
  Pile.trailNote (.new .layerNotLocated "could not locate the payload of layer 'outer'") []

/-- Nothing lies below a program just when it has no scaffold and no program is read from its
chunks. -/
lemma bare_iff : pile.Bare m [] f ↔ startsWithScaffold m = false ∧
    (peelOuter m = .ok none ∧ f = noChunks ∨
      ∃ g, peelOuter m = .error g ∧ f = g.note "layer" (.text outer.name)) := by
  constructor
  · intro h
    have hnone : startsWithScaffold m = false := by
      refine Bool.eq_false_iff.mpr fun hscaffold => ?_
      exact h.not_hides scaffold.name (resolved m.tail) (hides_iff.mpr (.inl ⟨hscaffold, rfl, rfl⟩))
    have hfirst {layer : Layer Module} : pile.FirstOn m layer ↔ layer = outer := by
      rw [firstOn_iff, hnone]
      rfl
    refine ⟨hnone, ?_⟩
    cases h with
    | unrecognized hoff => exact absurd hoff (hfirst.mpr rfl).not_forall
    | empty hlayer hpeel =>
      obtain rfl := hfirst.mp hlayer
      exact .inl ⟨hpeel, rfl⟩
    | refused hlayer hpeel =>
      obtain rfl := hfirst.mp hlayer
      exact .inr ⟨_, hpeel, rfl⟩
  · rintro ⟨hnone, hpeel⟩
    have hfirst : pile.FirstOn m outer := firstOn_iff.mpr (by rw [hnone]; rfl)
    obtain ⟨hpeel, rfl⟩ | ⟨g, hpeel, rfl⟩ := hpeel
    · exact .empty hfirst hpeel
    · exact .refused hfirst hpeel

/-- The program in the octets of all chunks. -/
def openChunks (packed : Bytes) : Except Failure Module := do
  let inflated ←
    witnessed .ofDecodeError "first_layer_bytes" (.bytes packed) (Zlib.decompress packed)
  readOctets "second_layer" inflated

lemma peelOuter_of_defrosted {defrosted : Module} (h : defrost.onBody m = .ok defrosted) :
    peelOuter m = if chunks defrosted = [] then .ok none
      else (openChunks (chunks defrosted)).map some := by
  rw [peelOuter, h]
  show (if (chunks defrosted).isEmpty then _ else _) = _
  by_cases hchunks : chunks defrosted = []
  · rw [if_pos hchunks, if_pos (List.isEmpty_iff.mpr hchunks)]
    rfl
  · rw [if_neg hchunks, if_neg (mt List.isEmpty_iff.mp hchunks), openChunks]
    cases witnessed .ofDecodeError "first_layer_bytes" (.bytes (chunks defrosted))
        (Zlib.decompress (chunks defrosted)) with
    | error e => rfl
    | ok inflated => rfl

lemma peelOuter_of_damaged {e : DecodeError} (h : defrost.onBody m = .error e) :
    peelOuter m = .error (.ofDecodeError e) := by
  rw [peelOuter, h]
  rfl

/-- No program is looked for just where no chunk has an octet. -/
lemma peelOuter_eq_none_iff : peelOuter m = .ok none ↔
    ∃ defrosted, defrost.onBody m = .ok defrosted ∧ chunks defrosted = [] := by
  constructor
  · intro h
    cases hfold : defrost.onBody m with
    | error e =>
      rw [peelOuter_of_damaged hfold] at h
      contradiction
    | ok defrosted =>
      refine ⟨defrosted, rfl, by_contra fun hchunks => ?_⟩
      rw [peelOuter_of_defrosted hfold, if_neg hchunks] at h
      cases hopen : openChunks (chunks defrosted) <;> rw [hopen] at h <;> cases h
  · rintro ⟨defrosted, hfold, hchunks⟩
    rw [peelOuter_of_defrosted hfold, if_pos hchunks]

lemma kind_of_openChunks {packed : Bytes} (h : openChunks packed = .error f) :
    f.kind = .payload ∨ f.kind = .invalidSyntax := by
  rw [openChunks] at h
  cases hinflated : witnessed .ofDecodeError "first_layer_bytes" (.bytes packed)
      (Zlib.decompress packed) with
  | error f' =>
    rw [hinflated] at h
    obtain rfl : f' = f := Except.error.inj h
    obtain ⟨e, -, rfl⟩ := failure_of_witnessed hinflated
    exact .inl rfl
  | ok inflated =>
    rw [hinflated] at h
    obtain ⟨e, rfl⟩ | ⟨e, text, rfl⟩ := failure_of_readOctets h
    · exact .inl rfl
    · exact .inr rfl

/-- Damaged octets are reported as such, and a text that is no program as a fault of syntax. -/
lemma kind_of_peelOuter (h : peelOuter m = .error f) :
    f.kind = .payload ∨ f.kind = .invalidSyntax := by
  cases hfold : defrost.onBody m with
  | error e =>
    rw [peelOuter_of_damaged hfold] at h
    obtain rfl := Except.error.inj h
    exact .inl rfl
  | ok defrosted =>
    rw [peelOuter_of_defrosted hfold] at h
    split at h
    · contradiction
    · cases hopen : openChunks (chunks defrosted) with
      | ok program =>
        rw [hopen] at h
        contradiction
      | error f' =>
        rw [hopen] at h
        obtain rfl : f' = f := Except.error.inj h
        exact kind_of_openChunks hopen

/-- Nothing lies below a program because of its octets, or because there are none. -/
lemma kind_of_bare (h : pile.Bare m [] f) : f.kind = .payload ∨ f.kind = .invalidSyntax ∨
    f = noChunks ∧ startsWithScaffold m = false ∧ peelOuter m = .ok none := by
  obtain ⟨hnone, ⟨hpeel, rfl⟩ | ⟨g, hpeel, rfl⟩⟩ := bare_iff.mp h
  · exact .inr (.inr ⟨rfl, hnone, hpeel⟩)
  · obtain hkind | hkind := kind_of_peelOuter hpeel
    · exact .inl hkind
    · exact .inr (.inl hkind)

/-- The programs that peeling comes to from the one on top, with the layers above them. -/
inductive Stage (top : Module) : Module → List String → Prop
  | onTop : Stage top top []
  | belowScaffold : startsWithScaffold top = true → Stage top (resolved top.tail) [scaffold.name]
  | inChunks {inner : Module} : startsWithScaffold top = false →
      peelOuter top = .ok (some inner) → Stage top inner [outer.name]
  | belowBoth {inner : Module} : startsWithScaffold top = false →
      peelOuter top = .ok (some inner) → startsWithScaffold inner = true →
      Stage top (resolved inner.tail) [outer.name, scaffold.name]

/-- Peeling goes on from one of these programs to another. -/
lemma Stage.next (h : Stage top m trail) (hopen : isLast m trail = false)
    (hides : pile.Hides m name inner) : Stage top inner (trail ++ [name]) := by
  cases h with
  | onTop =>
    obtain ⟨hscaffold, rfl, rfl⟩ | ⟨hnone, rfl, hinner⟩ := hides_iff.mp hides
    · exact .belowScaffold hscaffold
    · exact .inChunks hnone hinner
  | inChunks hnone hinner =>
    obtain ⟨hscaffold, rfl, rfl⟩ | ⟨hlast, rfl, -⟩ := hides_iff.mp hides
    · exact .belowBoth hnone hinner hscaffold
    · simp [isLast, hlast, outer, scaffold] at hopen
  | belowScaffold | belowBoth => simp [isLast, scaffold] at hopen

lemma stage_of_reaches {n : Nat} (h : pile.Reaches isLast top n m trail) : Stage top m trail := by
  obtain ⟨below, passed⟩ := h
  induction below with
  | top => exact .onTop
  | layer below hides ih =>
    have habove := ih fun i hi => passed i (by omega)
    exact habove.next (passed _ (by omega) _ _ below) hides

/-- Peeling comes to each of these programs. -/
lemma Stage.reaches (h : Stage top m trail) : pile.Reaches isLast top trail.length m trail := by
  have htop : pile.Reaches isLast top 0 top [] :=
    ⟨.top, fun _ hi => absurd hi (Nat.not_lt_zero _)⟩
  cases h with
  | onTop => exact htop
  | belowScaffold hscaffold =>
    exact htop.next rfl (hides_iff.mpr (.inl ⟨hscaffold, rfl, rfl⟩))
  | inChunks hnone hinner => exact htop.next rfl (hides_iff.mpr (.inr ⟨hnone, rfl, hinner⟩))
  | belowBoth hnone hinner hscaffold =>
    have hinChunks := htop.next rfl (hides_iff.mpr (.inr ⟨hnone, rfl, hinner⟩))
    refine hinChunks.next ?_ (hides_iff.mpr (.inl ⟨hscaffold, rfl, rfl⟩))
    simp [isLast, hscaffold, outer, scaffold]

/-- A program that is not the last one is the one on top, or the one in its chunks, and then it
has a scaffold. -/
lemma Stage.onTop_or_hides (h : Stage top m trail) (hopen : isLast m trail = false) :
    m = top ∧ trail = [] ∨
      trail = [outer.name] ∧ pile.Hides m scaffold.name (resolved m.tail) := by
  cases h with
  | onTop => exact .inl ⟨rfl, rfl⟩
  | inChunks =>
    cases hscaffold : startsWithScaffold m with
    | true => exact .inr ⟨rfl, hides_iff.mpr (.inl ⟨hscaffold, rfl, rfl⟩)⟩
    | false => simp [isLast, hscaffold, outer, scaffold] at hopen
  | belowScaffold | belowBoth => simp [isLast, scaffold] at hopen

lemma Stage.trail_of_last (h : Stage top m trail) (hlast : isLast m trail = true) :
    trail = [scaffold.name] ∨ trail = [outer.name] ∨ trail = [outer.name, scaffold.name] := by
  cases h with
  | onTop => simp [isLast] at hlast
  | belowScaffold => exact .inl rfl
  | inChunks => exact .inr (.inl rfl)
  | belowBoth => exact .inr (.inr rfl)

lemma run_eq_ok_iff {r : Peeled Module} : pile.run top isLast = .ok r ↔
    Stage top r.program r.trail ∧ isLast r.program r.trail = true := by
  rw [Pile.run_eq_ok_iff]
  constructor
  · intro h
    exact ⟨stage_of_reaches h.reaches, h.last⟩
  · rintro ⟨hstage, hlast⟩
    refine ⟨?_, hstage.reaches, hlast⟩
    obtain htrail | htrail | htrail := hstage.trail_of_last hlast <;>
      simp [Peeled.steps, htrail, pile]

/-- A run fails at the program on top or not at all. -/
lemma run_eq_error_iff {f : LayerFailure Module} : pile.run top isLast = .error f ↔
    ∃ g, pile.Bare top [] g ∧ f = ⟨g, top, 0⟩ := by
  rw [Pile.run_eq_error_iff]
  constructor
  · rintro ⟨trail, hfails⟩
    have hlength := hfails.reaches.below.length_trail
    obtain ⟨htop, rfl⟩ | ⟨rfl, hides⟩ :=
      (stage_of_reaches hfails.reaches).onTop_or_hides hfails.notLast
    · obtain ⟨hlimit, -⟩ | ⟨-, hbare⟩ := hfails.why
      · cases hlength.trans hlimit
      · obtain ⟨g, m, steps⟩ := f
        obtain rfl : m = top := htop
        obtain rfl : 0 = steps := hlength
        exact ⟨g, hbare, rfl⟩
    · obtain ⟨hlimit, -⟩ | ⟨-, hbare⟩ := hfails.why
      · cases hlength.trans hlimit
      · exact absurd hides (hbare.not_hides _ _)
  · rintro ⟨g, hbare, rfl⟩
    exact ⟨[], Stage.onTop.reaches, rfl, .inr ⟨Nat.zero_lt_two, hbare⟩⟩

lemma unmask_eq_ok_iff {source text : String} : unmask source = .ok text ↔
    ∃ m r, Module.parse source = .ok m ∧ pile.run m isLast = .ok r ∧ r.program.text = text := by
  rw [unmask]
  cases hparse : Module.parse source with
  | error e => simp [Except.mapError, bind, Except.bind]
  | ok m =>
    cases hrun : pile.run m isLast <;>
      simp [Except.mapError, bind, Except.bind, hrun, pure, Except.pure]

lemma unmask_eq_error_iff {source : String} : unmask source = .error f ↔
    (∃ e, Module.parse source = .error e ∧ f = .ofSyntaxError e) ∨
      ∃ m g, Module.parse source = .ok m ∧ pile.run m isLast = .error g ∧
        f = g.toFailure Module.text := by
  rw [unmask]
  cases hparse : Module.parse source with
  | error e => simp [Except.mapError, bind, Except.bind, eq_comm]
  | ok m =>
    cases hrun : pile.run m isLast <;>
      simp [Except.mapError, bind, Except.bind, hrun, pure, Except.pure, eq_comm]

/-- A run peels two layers at most: a scaffold, chunks, or chunks with a scaffold in them. -/
lemma trail_of_run {r : Peeled Module} (h : pile.run top isLast = .ok r) : r.steps ≤ 2 ∧
    (r.trail = ["scaffold"] ∨ r.trail = ["outer"] ∨ r.trail = ["outer", "scaffold"]) := by
  obtain ⟨hstage, hlast⟩ := run_eq_ok_iff.mp h
  have htrail := hstage.trail_of_last hlast
  refine ⟨?_, htrail⟩
  obtain htrail | htrail | htrail := htrail <;> simp [Peeled.steps, htrail]

lemma top_of_failure {f : LayerFailure Module} (h : pile.run top isLast = .error f) :
    f.steps = 0 ∧ f.reached = top := by
  obtain ⟨g, -, rfl⟩ := run_eq_error_iff.mp h
  exact ⟨rfl, rfl⟩

/-- Nothing fails for want of layers or of a known one. -/
lemma kind_of_unmask {source : String} (h : unmask source = .error f) :
    f.kind = .invalidSyntax ∨ f.kind = .payload ∨ f.kind = .layerNotLocated := by
  obtain ⟨e, -, rfl⟩ | ⟨m, g, -, hrun, rfl⟩ := unmask_eq_error_iff.mp h
  · exact .inl rfl
  · obtain ⟨g, hbare, rfl⟩ := run_eq_error_iff.mp hrun
    obtain hkind | hkind | ⟨rfl, -⟩ := kind_of_bare hbare
    · exact .inr (.inl hkind)
    · exact .inl hkind
    · exact .inr (.inr rfl)

/-- What is not located are the chunks of a program without any. -/
lemma notLocated_iff {source : String} :
    unmask source = .error f ∧ f.kind = .layerNotLocated ↔
      ∃ m defrosted, Module.parse source = .ok m ∧ startsWithScaffold m = false ∧
        defrost.onBody m = .ok defrosted ∧ chunks defrosted = [] ∧
        f = LayerFailure.toFailure Module.text ⟨noChunks, m, 0⟩ := by
  constructor
  · rintro ⟨h, hkind⟩
    obtain ⟨e, -, rfl⟩ | ⟨m, g, hparse, hrun, rfl⟩ := unmask_eq_error_iff.mp h
    · cases hkind
    · obtain ⟨g, hbare, rfl⟩ := run_eq_error_iff.mp hrun
      obtain hother | hother | ⟨rfl, hnone, hpeel⟩ := kind_of_bare hbare
      · cases hkind.symm.trans hother
      · cases hkind.symm.trans hother
      · obtain ⟨defrosted, hfold, hchunks⟩ := peelOuter_eq_none_iff.mp hpeel
        exact ⟨m, defrosted, hparse, hnone, hfold, hchunks, rfl⟩
  · rintro ⟨m, defrosted, hparse, hnone, hfold, hchunks, rfl⟩
    have hpeel := peelOuter_eq_none_iff.mpr ⟨defrosted, hfold, hchunks⟩
    have hrun := run_eq_error_iff.mpr ⟨noChunks, bare_iff.mpr ⟨hnone, .inl ⟨hpeel, rfl⟩⟩, rfl⟩
    exact ⟨unmask_eq_error_iff.mpr (.inr ⟨m, _, hparse, hrun, rfl⟩), rfl⟩

/-- Every program is unmasked, or it is told why not, after two layers at most: one of the kinds of
layers lies on the last program, or chunks and then a scaffold. Nothing fails for want of layers or
of a known one: what fails is no program, or its chunks are damaged, or there are none in it. -/
theorem unmask_two_layers (source : String) :
    (∀ text, unmask source = .ok text ↔ ∃ m r, Module.parse source = .ok m ∧
      pile.run m isLast = .ok r ∧ r.program.text = text) ∧
    (∀ m r, pile.run m isLast = .ok r ↔
      Stage m r.program r.trail ∧ isLast r.program r.trail = true) ∧
    (∀ m r, pile.run m isLast = .ok r → r.steps ≤ 2 ∧
      (r.trail = ["scaffold"] ∨ r.trail = ["outer"] ∨ r.trail = ["outer", "scaffold"])) ∧
    (∀ m f, pile.run m isLast = .error f → f.steps = 0 ∧ f.reached = m) ∧
    (∀ f, unmask source = .error f →
      f.kind = .invalidSyntax ∨ f.kind = .payload ∨ f.kind = .layerNotLocated) ∧
    ∀ f, unmask source = .error f ∧ f.kind = .layerNotLocated ↔
      ∃ m defrosted, Module.parse source = .ok m ∧ startsWithScaffold m = false ∧
        defrost.onBody m = .ok defrosted ∧ chunks defrosted = [] ∧
        f = LayerFailure.toFailure Module.text ⟨noChunks, m, 0⟩ :=
  ⟨fun _ => unmask_eq_ok_iff, fun _ _ => run_eq_ok_iff, fun _ _ => trail_of_run,
    fun _ _ => top_of_failure, fun _ => kind_of_unmask, fun _ => notLocated_iff⟩

/-- What follows the scaffold in the chunks is the last program, though it starts with a `try`
statement as well. -/
example : (unmask ("a.b(c='', d=b'x\\x01\\x01.\\x00\\xd1\\xfftry: pass\\x0afinally: pass\\x0a" ++
      "try: f()\\x0afinally: pass|\\x1f\\x0f\\xff')")).toOption =
    some "try:\n    f()\nfinally:\n    pass" := by
  decide +kernel

end Unmask.Hyperion
