import Unmask.Disguise.Basic
import Unmask.Disguise.BlankObf.Folding
import Unmask.Dispatch
import Unmask.Layers
import Unmask.Value.Arithmetic

/-!
# BlankOBF

After its imports a program is a short row of statements that folds to one `exec` of the next layer:
four texts that are joined and decoded, a loop that looks for the octet under which a compressed
program is masked, or `exec` of compiled octets. The innermost program starts with a text that names
the disguise.
-/
namespace Unmask.BlankObf

open Disguise

def isImport : Stmt → Bool
  | .importNames _ => true
  | .importFrom .. => true
  | _ => false

def isBase64Layer : Module → Bool
  | [.assign .., .assign .., .assign .., .assign .., .expr _] => true
  | _ => false

def isXorLayer : Module → Bool
  | [.assign .., .forLoop ..] => true
  | _ => false

def isCompileLayer : Module → Bool
  | [.assign .., .assign .., .expr _] => true
  | _ => false

/-- Whether a loop with a single conditional that ends the loop follows an assignment. -/
def isXorLoop : Module → Bool
  | [.assign .., .forLoop _ _ [.ite _ [.expr _, .breakLoop] _] _ _] => true
  | _ => false

def scan (source : String) : Bool :=
  match Module.parse source with
  | .error _ => false
  | .ok m =>
    let body := m.dropWhile isImport
    isBase64Layer body || (body.length == m.length && isXorLoop body)

def execArgument? : Module → Option Expr
  | [.expr e] => e.soleArgument? "exec"
  | _ => none

/-- The next layer in octets, if there are any. -/
def nextLayer (octets : Option Bytes) : Except Failure (Option Module) :=
  match octets with
  | some b => (readOctets "next_layer" b).map some
  | none => .ok none

def peelBase64 (m : Module) : Except Failure (Option Module) :=
  nextLayer ((execArgument? (foldConstants m)).bind Expr.bytes?)

def compiled? : Expr → Option Bytes
  | .call (.name "compile") (.constant (.bytes b) :: _) _ => some b
  | _ => none

def peelCompile (m : Module) : Except Failure (Option Module) :=
  nextLayer ((execArgument? (foldConstants m)).bind compiled?)

/-- The constants of a loop that runs `payload` masked with the number whose exclusive or with
`left` is `right`. -/
structure XorLoop where
  left : Int
  right : Int
  payload : Bytes
  deriving DecidableEq

def int? (e : Expr) : Option Int := (Value.ofExpr? e).bind Value.asInt?

/-- The payload in `exec(zlib.decompress(bytes(map(…, payload))))`. -/
def maskedPayload? (run : Expr) : Option Bytes := do
  let packed ← (← run.soleArgument? "exec").dottedArgument? "zlib" "decompress"
  match ← packed.soleArgument? "bytes" with
  | .call (.name "map") [_, payload] _ => octets? (← Value.ofExpr? payload)
  | _ => none

/-- The loop that a folded layer consists of. -/
def XorLoop.of? : Module → Option XorLoop
  | [.forLoop _ _
      [.ite (.compare (.binary left .bitXor (.name _)) [.eq] [right]) [.expr run, .breakLoop] _]
      _ _] => do return ⟨← int? left, ← int? right, ← maskedPayload? run⟩
  | _ => none

/-- The octet that the loop finds. -/
def XorLoop.pad? (l : XorLoop) : Option UInt8 := octet? (Integer.bitXor l.left l.right)

def XorLoop.masked (l : XorLoop) (pad : UInt8) : Bytes := l.payload.map (· ^^^ pad)

def XorLoop.run (l : XorLoop) : Except Failure Module :=
  match l.pad? with
  | none => .error (Failure.payload "xor pad does not fit in a byte")
  | some pad => do
    let masked := l.masked pad
    readOctets "next_layer"
      (← witnessed .ofDecodeError "xor_payload" (.bytes masked) (Zlib.decompress masked))

def peelXor (m : Module) : Except Failure (Option Module) :=
  match XorLoop.of? (foldConstants m) with
  | some l => l.run.map some
  | none => .ok none

/-- Whether two characters are the same but for letter case. -/
def sameLetter (letter c : Char) : Bool :=
  Text.asciiLower c == letter || (letter == 'k' && c == '\u212A')

def afterWord? : List Char → List Char → Option (List Char)
  | [], cs => some cs
  | letter :: word, c :: cs => if sameLetter letter c then afterWord? word cs else none
  | _ :: _, [] => none

/-- What follows words at the front that may have blanks between them. -/
def afterWords? : List String → List Char → Option (List Char)
  | [], cs => some cs
  | word :: words, cs =>
    (afterWord? word.toList cs).bind fun rest => afterWords? words (rest.dropWhile Text.isBlank)

def isBanner (text : String) : Bool :=
  (Text.firstMatch? (afterWords? ["blank", "obf", "v", "2"]) text.toList).isSome

/-- Whether a program is the innermost one. -/
def hasBanner (m : Module) : Bool :=
  match m with
  | .expr (.constant (.str text)) :: _ => isBanner text
  | _ => false

def pile : Pile Module :=
  { title := "blank obf"
    layers := [⟨"base64", isBase64Layer, peelBase64⟩, ⟨"xor", isXorLayer, peelXor⟩,
      ⟨"compile", isCompileLayer, peelCompile⟩]
    maxLayers := 30 }

def withoutImports (m : Module) : Module := m.filter (!isImport ·)

def unmask (source : String) : Except Failure String := do
  let m ← (Module.parse source).mapError Failure.ofSyntaxError
  let peeled ←
    (pile.run (withoutImports m) fun m _ => hasBanner m).mapError
      (LayerFailure.toFailure Module.text)
  return peeled.program.text

def schema : Schema := Unmasker.schema ⟨scan, unmask, Webhook.appendReport⟩

end Unmask.BlankObf
