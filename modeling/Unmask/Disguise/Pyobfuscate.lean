import Unmask.Cipher.Text
import Unmask.Codec.Basic
import Unmask.Codec.Radix
import Unmask.Disguise.Basic
import Unmask.Dispatch
import Unmask.Syntax.Tree
import Unmask.Syntax.Visit

/-!
# Pyobfuscate

The program is encrypted in one of two ways. Either a function is called with a dictionary whose
first pair makes up the password and whose last value is the encrypted text, or a dictionary with
one pair holds the password and the encrypted text. The password in the first way may lack the last
character of the value, that in the second way lacks the first and the last one.
-/
namespace Unmask.Pyobfuscate

open Disguise

/-- Encrypted text as it stands in a program. -/
inductive Payload where
  | digits (key value hex : String)
  | blob (password : String) (encoded : Bytes)
  deriving DecidableEq

/-- The text in `bytes.fromhex('…'.replace('\n', ''))`. -/
def hexText? (e : Expr) : Option String :=
  match e.dottedArgument? "bytes" "fromhex" with
  | some (.call (.attribute text "replace") [.constant (.str "\n"), .constant (.str "")] _) =>
    text.str?
  | _ => none

/-- The payload in the dictionary that a function is called with. -/
def digits? : Expr → Option Payload
  | .call (.lambda _ _) _ [⟨_, .dict
      [some key, some (.constant (.str "exec")), some (.constant (.str "eval"))]
      [value, .constant (.str _), hex]⟩] => do
    return .digits (← key.str?) (← value.str?) (Text.remove (· == '\n') (← hexText? hex))
  | _ => none

def encoded? : Expr → Option Bytes
  | .constant (.str s) => some (Text.Utf8.encode s)
  | .constant (.bytes b) => some b
  | _ => none

/-- The payload in a dictionary with one pair. -/
def blob? : Expr → Option Payload
  | .dict [some password] [encoded] => do return .blob (← password.str?) (← encoded? encoded)
  | _ => none

def payload? : Stmt → Option Payload
  | .assign [.name "pyobfuscate"] value => digits? value
  | .assign [.name "obfuscate"] value => blob? value
  | _ => none

def findPayload? (m : Module) : Option Payload :=
  ((Node.stmts m.nodes).filterMap payload?).getLast?

def scan (source : String) : Bool :=
  match Module.parse source with
  | .ok m => (findPayload? m).isSome
  | .error _ => false

def dropLast (s : String) : String := String.ofList s.toList.dropLast

def dropEnds (s : String) : String := String.ofList (s.toList.drop 1).dropLast

/-- Decrypts under the key and the value, or else under the key and the value without its last
character. -/
def decryptDigits (key value hex : String) : Except Failure String := do
  let data ← decoded (Hex.decodeSpaced (Text.Utf8.encode hex))
  match Cipher.decryptHashed (key ++ value) data with
  | .ok text => return text
  | .error _ =>
    witnessed .ofCipherError "ciphertext" (.bytes data)
      (Cipher.decryptHashed (key ++ dropLast value) data)

def decryptBlob (password : String) (encoded : Bytes) : Except Failure String := do
  let data ← decoded (Base85.decode encoded)
  witnessed .ofCipherError "blob" (.bytes data)
    (Cipher.decryptSalted (Text.Utf8.encode (dropEnds password)) data)

def Payload.decrypt : Payload → Except Failure String
  | .digits key value hex => decryptDigits key value hex
  | .blob password encoded => decryptBlob password encoded

def unmask (source : String) : Except Failure String := do
  match findPayload? (← (Module.parse source).mapError Failure.ofSyntaxError) with
  | some payload => payload.decrypt
  | none => .error (Failure.missingMarker "pyobfuscate payload not found")

def schema : Schema := Unmasker.schema ⟨scan, unmask, Webhook.appendReport⟩

end Unmask.Pyobfuscate
