import Unmask.Codec.Radix
import Unmask.Codec.Zlib
import Unmask.Disguise.Basic
import Unmask.Dispatch
import Unmask.Syntax.Tree
import Unmask.Syntax.Visit
import Unmask.Text.Basic

/-!
# FCT

The program defines `_`, which reverses, decodes and inflates octets, and runs what it makes of a
literal. The result is a further call of that kind, or marshalled code with the octets of the next
round in it, and so on; what the last round gives is the result.
-/
namespace Unmask.Fct

open Disguise

def isReversalOf (id : String) : Expr → Bool
  | .subscript (.name n) (.slice none none (some (.unary .minus (.constant (.int 1))))) => n == id
  | _ => false

/-- The only argument of `__import__('module').function(…)`. -/
def soleModuleArgument? (module function : String) (e : Expr) : Option Expr :=
  match e.moduleCall? module function with
  | some [arg] => some arg
  | _ => none

/-- Whether an expression inflates and decodes the octets of `__` in reverse. -/
def isOpening (e : Expr) : Bool :=
  match (soleModuleArgument? "zlib" "decompress" e).bind
      (soleModuleArgument? "base64" "b64decode") with
  | some reversed => isReversalOf "__" reversed
  | none => false

/-- Whether an expression is the function that opens a round; it may also load marshalled code. -/
def isOpener : Expr → Bool
  | .lambda params body =>
    Text.trim params == "__" &&
      isOpening ((soleModuleArgument? "marshal" "loads" body).getD body)
  | _ => false

def definesOpener : Stmt → Bool
  | .assign [.name "_"] value => isOpener value
  | _ => false

/-- Whether a statement runs what the opener makes of a literal. -/
def runsPayload : Stmt → Bool
  | .expr e => (((e.soleArgument? "exec").bind (·.soleArgument? "_")).bind Expr.bytes?).isSome
  | _ => false

def scan (source : String) : Bool :=
  match Module.parse source with
  | .ok m =>
    let stmts := Node.stmts m.nodes
    stmts.any definesOpener && stmts.any runsPayload
  | .error _ => false

/-- The only literal of octets in the program. -/
def surfacePayload (source : String) : Except Failure Bytes := do
  match (Node.exprs (← readProgram "surface_code" source).nodes).filterMap Expr.bytes? with
  | [] => .error (Failure.missingMarker "no byte string in the surface code")
  | [payload] => return payload
  | found =>
    .error ((Failure.ambiguous "several byte strings in the surface code").note "candidates"
      (.list (found.map Diagnostic.bytes)))

def inflate (decode : Bytes → Except DecodeError Bytes) (data : Bytes) :
    Except DecodeError Bytes := do
  Zlib.decompress (← decode data)

/-- Opens a round: its octets in reverse are in base 64, or else in base 32. -/
def openRound (hidden : Bytes) : Except Failure Bytes :=
  match inflate Radix.decodeBase64 hidden.reverse with
  | .ok opened => .ok opened
  | .error _ =>
    witnessed .ofDecodeError "obf_bytes" (.bytes hidden)
      (inflate Radix.decodeBase32 hidden.reverse)

/-- What stands before the octets in a further call. -/
def callFront : Bytes := Text.Utf8.encode "exec((_)(b'"

/-- What stands behind the octets in a further call, blanks apart. -/
def callBack : Bytes := Text.Utf8.encode "'))"

/-- The octets in a call whose front is left out. -/
def calledOn? (rest : Bytes) : Option Bytes :=
  (Text.afterFront? callBack.reverse (rest.reverse.dropWhile isAsciiBlank)).map List.reverse

/-- The octets of the next round, if there is one. -/
def next? (opened : Bytes) : Except Failure (Option Bytes) :=
  match Text.afterFront? callFront opened with
  | some rest =>
    match calledOn? rest with
    | some hidden => .ok (some hidden)
    | none =>
      .error ((Failure.payload "exec wrapper is not closed").note "marshalled_bytes"
        (.bytes opened))
  | none =>
    match Marshal.findPayload opened with
    | .ok hidden => .ok (if hidden.isEmpty then none else some hidden)
    | .error _ => .ok none

/-- Opens at most `n` further rounds of `limit` in all; `opened` is what the last one gave. -/
def unwindUpTo (limit : Nat) : Nat → Bytes → Bytes → Except Failure Bytes
  | 0, _, opened =>
    let message := s!"payload still wrapped after {limit} rounds"
    .error ((Failure.new .iterationLimitExceeded message).note "marshalled_bytes" (.bytes opened))
  | n + 1, hidden, _ => do
    let opened ← openRound hidden
    match ← next? opened with
    | some further => unwindUpTo limit n further opened
    | none => return opened

def unwind (limit : Nat) (hidden : Bytes) : Except Failure Bytes := unwindUpTo limit limit hidden []

def maxRounds : Nat := 1000

def unmask (source : String) : Except Failure Bytes := do unwind maxRounds (← surfacePayload source)

/-- Octets as text, or as a literal if they form no text. -/
def report (output : Bytes) : String :=
  match Text.Utf8.decode output with
  | .ok text => text
  | .error _ => Literal.quoteBytes output

def schema : Schema := Unmasker.schema ⟨scan, unmask, report⟩

end Unmask.Fct
