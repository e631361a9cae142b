import Unmask.Codec.Radix
import Unmask.Codec.Zlib
import Unmask.Disguise.Basic
import Unmask.Dispatch
import Unmask.Layers
import Unmask.Resolve.Program
import Unmask.Syntax.Tree
import Unmask.Syntax.Visit
import Unmask.Text.Basic

/-!
# Hyperion

The outer layer hides a program in chunks, which are keyword arguments of method calls; a chunk may
be frosted, that is compressed and encoded once more. The program in it starts with a `try`
statement that does nothing, the scaffold, and what follows resolves to the program that was
disguised.
-/
namespace Unmask.Hyperion

open Disguise

/-- The comment that disguised programs start with. -/
def banner : String :=
  "# sourcery skip: collection-to-bool, remove-redundant-boolean, remove-redundant-except-handler"

def signatures : List String := ["__obfuscator__", "__authors__", "__github__"]

def isSignature : Stmt → Bool
  | .assign [.name id] _ => signatures.contains id
  | _ => false

def scan (source : String) : Bool :=
  Text.occurs banner.toList source.toList ||
    match Module.parse source with
    | .ok m => (Node.stmts m.nodes).any isSignature
    | .error _ => false

/-- The octets under the frosting. -/
def frosted? (e : Expr) : Option Bytes :=
  match e.moduleCall? "base64" "b64decode" with
  | some [inner] =>
    match inner.moduleCall? "zlib" "decompress" with
    | some [packed] => packed.bytes?
    | _ => none
  | _ => none

def thaw (frosted : Bytes) : Except DecodeError Bytes := do
  Radix.decodeBase64 (← Zlib.decompress frosted)

def thawText (frosted : Bytes) : Except DecodeError String := do decodeText (← thaw frosted)

/-- The frosted octets on which `decode` is called. -/
def frostedText? : Expr → Option Bytes
  | .call (.attribute object "decode") [] _ => frosted? object
  | _ => none

/-- The literal that a frosted expression stands for. -/
def thawed? (e : Expr) : Option (Except DecodeError Expr) :=
  match frosted? e with
  | some frosted => some ((thaw frosted).map Expr.bytes)
  | none => (frostedText? e).map fun frosted => (thawText frosted).map Expr.str

def defrost : Fold (Except DecodeError) where
  expr e walk := (thawed? e).getD walk
  stmt _ walk := do return [← walk]

def chunk? : Expr → Option Bytes
  | .call (.attribute _ _) [] [⟨_, .constant (.str _)⟩, ⟨_, .constant (.bytes chunk)⟩] => some chunk
  | _ => none

def isNoCall : Expr → Bool
  | .call .. => false
  | _ => true

/-- The chunks of a program in a row. A call within a call holds none. -/
def chunks (m : Module) : Bytes := ((Node.exprs (m.visited isNoCall)).filterMap chunk?).flatten

def peelOuter (m : Module) : Except Failure (Option Module) := do
  let packed := chunks (← decoded (defrost.onBody m))
  if packed.isEmpty then return none
  else
    let inflated ←
      witnessed .ofDecodeError "first_layer_bytes" (.bytes packed) (Zlib.decompress packed)
    return some (← readOctets "second_layer" inflated)

def startsWithScaffold : Module → Bool
  | .tryBlock .. :: _ => true
  | _ => false

/-- What the statements after the scaffold resolve to. -/
def peelScaffold : Module → Except Failure (Option Module)
  | .tryBlock .. :: rest =>
    let (resolved, session) := (Session.start Namespace.empty).transform rest
    .ok (some (resolved.clean session.names))
  | _ => .ok none

def outer : Layer Module := ⟨"outer", fun _ => true, peelOuter⟩

def scaffold : Layer Module := ⟨"scaffold", startsWithScaffold, peelScaffold⟩

def pile : Pile Module := ⟨"hyperion", [scaffold, outer], 2⟩

/-- Whether nothing is left to peel. -/
def isLast (m : Module) (trail : List String) : Bool :=
  trail.getLast? == some scaffold.name ||
    (trail.getLast? == some outer.name && !startsWithScaffold m)

def unmask (source : String) : Except Failure String := do
  let m ← (Module.parse source).mapError Failure.ofSyntaxError
  let peeled ← (pile.run m isLast).mapError (LayerFailure.toFailure Module.text)
  return peeled.program.text

def schema : Schema := Unmasker.schema ⟨scan, unmask, id⟩

end Unmask.Hyperion
