import Unmask.Cipher.Aes
import Unmask.Cipher.Hmac
import Unmask.Codec.Basic
import Unmask.Codec.Radix

/-!
# Sealed tokens and encrypted text

A token is a version, a time, an initial block, encrypted blocks and a digest of all these under the
first half of the key; the second half decrypts the blocks. The time does not matter.

Text is encrypted under a password in two ways. In the first one the key is the digest of the
password and the data starts with an initial block; in the second one key and register are derived
from the password and a salt at the front of the data.
-/
namespace Unmask

/-- Why a sealed token cannot be opened. -/
inductive TokenError where
  | keyLength (length : Nat)
  | malformed
  | signature
  | padding
  | decode (error : DecodeError)
  deriving DecidableEq

def TokenError.message : TokenError → String
  | .keyLength length => s!"fernet key must be 32 bytes, got {length}"
  | .malformed => "fernet token is malformed"
  | .signature => "fernet signature does not match"
  | .padding => "fernet plaintext padding is invalid"
  | .decode error => error.message

/-- Why encrypted text cannot be read. -/
inductive CipherError where
  /-- The data is not an initial block and whole blocks. -/
  | blockLength (length : Nat)
  | missingSalt (length : Nat)
  | padding
  | decode (error : DecodeError)
  deriving DecidableEq

def CipherError.message : CipherError → String
  | .blockLength length => s!"ciphertext of {length} bytes is not an IV followed by whole blocks"
  | .missingSalt length => s!"blob of {length} bytes is shorter than its 8-byte salt"
  | .padding => "plaintext padding is invalid"
  | .decode error => error.message

namespace SealedToken

structure Key where
  signing : Bytes
  encryption : Bytes
  deriving DecidableEq

def Key.decode (encoded : Bytes) : Except TokenError Key := do
  let raw ← (Radix.decodeBase64Url encoded).mapError TokenError.decode
  if raw.length == 32 then return ⟨raw.take 16, raw.drop 16⟩
  else .error (.keyLength raw.length)

/-- Whether the octets before the digest have the right form. -/
def isWellFormed (signed : Bytes) : Bool :=
  signed.head? == some 0x80 && 25 < signed.length && (signed.length - 25) % 16 == 0

def openToken (k : Key) (token : Bytes) : Except TokenError Bytes := do
  let raw ← (Radix.decodeBase64Url token).mapError TokenError.decode
  let signed := raw.take (raw.length - 32)
  let tag := raw.drop (raw.length - 32)
  if raw.length < 32 || !isWellFormed signed then .error .malformed
  else if Hmac.digest k.signing signed != tag then .error .signature
  else
    match Aes.decryptPadded? k.encryption ((signed.drop 9).take 16) (signed.drop 25) with
    | some plain => return plain
    | none => .error .padding

end SealedToken

namespace Cipher

/-- The rounds in which a password becomes a key. -/
def derivationRounds : Nat := 100000

def asText (plain : Bytes) : Except CipherError String :=
  (decodeText plain).mapError CipherError.decode

/-- Decrypts blocks under the digest of a password. -/
def decryptHashed (password : String) (data : Bytes) : Except CipherError String :=
  if data.length < 16 || data.length % 16 != 0 then .error (.blockLength data.length)
  else
    let key := (Sha256.digest (Text.Utf8.encode password)).take 24
    match Aes.decryptPadded? key (data.take 16) (data.drop 16) with
    | some plain => asText plain
    | none => .error .padding

/-- Decrypts octets under a key that is derived from a password. -/
def decryptSalted (password data : Bytes) : Except CipherError String :=
  if data.length < 8 then .error (.missingSalt data.length)
  else
    let derived := Hmac.derive password (data.take 8) derivationRounds
    asText (Aes.decryptStream (derived.take 16) (derived.drop 16) (data.drop 8))

end Cipher

end Unmask
