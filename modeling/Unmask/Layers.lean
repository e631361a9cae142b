import Unmask.Named
import Unmask.Syntax.Grammar.Statement

/-!
# Layers

A disguise is a pile of layers, each of which hides the program below it. The layers are peeled off
one after the other: the first kind of layer that matches the program on top yields the next one,
until a program is reached that counts as the last. A program is whatever the layers are read from:
a tree as a rule, or its text. A failure tells why a program could not be unmasked, with the pieces
of evidence found on the way by name, in the order in which the names first came up.
-/
namespace Unmask

inductive FailureKind where
  /-- Hidden data is damaged. -/
  | payload
  /-- Something that marks the disguise is not there. -/
  | missingMarker
  /-- There is more than one candidate. -/
  | ambiguous
  /-- A text is no program. -/
  | invalidSyntax
  /-- No known layer is on top. -/
  | unrecognizedLayer
  /-- A known layer holds nothing. -/
  | layerNotLocated
  | iterationLimitExceeded
  deriving DecidableEq, Repr

def FailureKind.name : FailureKind → String
  | .payload => "payload"
  | .missingMarker => "missing_marker"
  | .ambiguous => "ambiguous"
  | .invalidSyntax => "syntax"
  | .unrecognizedLayer => "unrecognized_layer"
  | .layerNotLocated => "layer_not_located"
  | .iterationLimitExceeded => "iteration_limit_exceeded"

inductive Diagnostic where
  | text (s : String)
  | bytes (b : Bytes)
  | list (items : List Diagnostic)

namespace Diagnostic

mutual

/-- Evidence as text: octets as a literal, the items of a list each on a line. -/
def display : Diagnostic → String
  | .text s => s
  | .bytes b => Literal.quoteBytes b
  | .list items => "\n".intercalate (displays items)

def displays : List Diagnostic → List String
  | [] => []
  | d :: rest => d.display :: displays rest

end

end Diagnostic

structure Failure where
  kind : FailureKind
  message : String
  diagnostics : Named Diagnostic

namespace Failure

def new (kind : FailureKind) (message : String) : Failure := ⟨kind, message, []⟩

def payload (message : String) : Failure := new .payload message

def missingMarker (message : String) : Failure := new .missingMarker message

def ambiguous (message : String) : Failure := new .ambiguous message

def ofSyntaxError (e : SyntaxError) : Failure := new .invalidSyntax e.message

/-- Adds evidence under a name, or replaces what is there. -/
def note (f : Failure) (name : String) (d : Diagnostic) : Failure :=
  { f with diagnostics := f.diagnostics.put name d }

@[simp] theorem note_kind (f : Failure) (name : String) (d : Diagnostic) :
    (f.note name d).kind = f.kind := rfl

@[simp] theorem note_message (f : Failure) (name : String) (d : Diagnostic) :
    (f.note name d).message = f.message := rfl

theorem lookup_note (f : Failure) (name : String) (d : Diagnostic) (other : String) :
    (f.note name d).diagnostics.lookup other =
      if other = name then some d else f.diagnostics.lookup other :=
  Named.lookup_put f.diagnostics name d other

end Failure

section Layers

variable {α : Type}

/-- A kind of layer. Its `peel` gives the program below, nothing if it hides none, or a failure. -/
structure Layer (α : Type) where
  name : String
  isOn : α → Bool
  peel : α → Except Failure (Option α)

/-- The program that was reached, and the names of the layers that lay on it. -/
structure Peeled (α : Type) where
  program : α
  trail : List String

def Peeled.steps (p : Peeled α) : Nat := p.trail.length

/-- Why peeling stopped, and the program that it had reached after so many layers. -/
structure LayerFailure (α : Type) where
  failure : Failure
  reached : α
  steps : Nat

/-- A failure with the text of the program that was reached as evidence. -/
def LayerFailure.toFailure (text : α → String) (f : LayerFailure α) : Failure :=
  (f.failure.note "steps" (.text (toString f.steps))).note "partial" (.text (text f.reached))

/-- A known disguise: the kinds of its layers and the greatest number of them. -/
structure Pile (α : Type) where
  title : String
  layers : List (Layer α)
  maxLayers : Nat

namespace Pile

/-- A failure with the names of the layers that were peeled. -/
def stop (kind : FailureKind) (message : String) (m : α) (trail : List String) : LayerFailure α :=
  ⟨(Failure.new kind message).note "trail" (.text (" -> ".intercalate trail)), m, trail.length⟩

def peelOne (p : Pile α) (m : α) (trail : List String) : Except (LayerFailure α) (α × String) :=
  match p.layers.find? fun l => l.isOn m with
  | none =>
    .error (stop .unrecognizedLayer s!"no {p.title} layer shape matches the current tree" m trail)
  | some layer =>
    match layer.peel m with
    | .ok (some next) => .ok (next, layer.name)
    | .ok none =>
      .error (stop .layerNotLocated
        s!"could not locate the payload of layer '{layer.name}'" m trail)
    | .error failure => .error ⟨failure.note "layer" (.text layer.name), m, trail.length⟩

/-- Peels at most `n` further layers, after those of the trail. -/
def peelUpTo (p : Pile α) (isLast : α → List String → Bool) :
    Nat → α → List String → Except (LayerFailure α) (Peeled α)
  | n, m, trail =>
    if isLast m trail then .ok ⟨m, trail⟩
    else
      match n with
      | 0 =>
        .error (stop .iterationLimitExceeded
          s!"{p.title} did not finish within {p.maxLayers} layers" m trail)
      | n + 1 =>
        match p.peelOne m trail with
        | .error failure => .error failure
        | .ok (next, name) => peelUpTo p isLast n next (trail ++ [name])

def run (p : Pile α) (m : α) (isLast : α → List String → Bool) :
    Except (LayerFailure α) (Peeled α) :=
  p.peelUpTo isLast p.maxLayers m []

end Pile

end Layers

end Unmask
