import Unmask.Text.Utf8

/-!
# AES

A cipher on blocks of sixteen octets, which form a square of columns. A round replaces octets,
rotates rows, mixes columns and adds a round key.
-/
namespace Unmask.Aes

/-- Multiplies by the polynomial `x` modulo the cipher's polynomial. -/
def double (b : UInt8) : UInt8 := (b <<< 1) ^^^ (if 0x80 ≤ b then 0x1B else 0)

/-- Multiplies polynomials, taking the lowest `n` bits of the first one. -/
def timesFrom : Nat → UInt8 → UInt8 → UInt8
  | 0, _, _ => 0
  | n + 1, a, b => (if a &&& 1 == 1 then b else 0) ^^^ timesFrom n (a >>> 1) (double b)

def times (a b : UInt8) : UInt8 := timesFrom 8 a b

/-- The inverse of a polynomial; that of zero is zero. -/
def inverse (b : UInt8) : UInt8 :=
  let square (x : UInt8) : UInt8 := times x x
  let b₂ := square b
  let b₄ := square b₂
  let b₈ := square b₄
  let b₁₆ := square b₈
  let b₃₂ := square b₁₆
  let b₆₄ := square b₃₂
  let b₁₂₈ := square b₆₄
  times b₂ (times b₄ (times b₈ (times b₁₆ (times b₃₂ (times b₆₄ b₁₂₈)))))

def rotate (b : UInt8) (n : UInt8) : UInt8 := b <<< n ||| b >>> (8 - n)

def substitute (b : UInt8) : UInt8 :=
  let i := inverse b
  i ^^^ rotate i 1 ^^^ rotate i 2 ^^^ rotate i 3 ^^^ rotate i 4 ^^^ 0x63

def substitutes : Array UInt8 := (Array.range 256).map fun n => substitute (UInt8.ofNat n)

def originals : Array UInt8 :=
  (Array.range 256).map fun n => UInt8.ofNat ((substitutes.findIdx? (· == UInt8.ofNat n)).getD 0)

def replace (table : Array UInt8) (block : Bytes) : Bytes := block.map fun b => table.getD b.toNat 0

def add (a b : Bytes) : Bytes := List.zipWith (· ^^^ ·) a b

/-- The words of a round key, each of four octets. -/
abbrev Words := Array Bytes

def turnConstant (n : Nat) : UInt8 := (List.range (n - 1)).foldl (fun b _ => double b) 1

/-- What the last word is turned into before it is added to an earlier one. -/
def turn (keyWords i : Nat) (word : Bytes) : Bytes :=
  if i % keyWords == 0 then
    match replace substitutes (word.drop 1 ++ word.take 1) with
    | b :: rest => (b ^^^ turnConstant (i / keyWords)) :: rest
    | [] => []
  else if 6 < keyWords && i % keyWords == 4 then replace substitutes word
  else word

/-- Extends the words of a key by `n` words. -/
def extend (keyWords : Nat) : Nat → Words → Words
  | 0, words => words
  | n + 1, words =>
    let i := words.size
    let word := add (words.getD (i - keyWords) []) (turn keyWords i (words.getD (i - 1) []))
    extend keyWords n (words.push word)

/-- The octets in groups of `size`, at most `n` of them. -/
def groups (size : Nat) : Nat → Bytes → List Bytes
  | 0, _ => []
  | n + 1, data => if data.isEmpty then [] else data.take size :: groups size n (data.drop size)

def roundKeys (key : Bytes) : List Bytes :=
  let words := groups 4 key.length key
  let keyWords := words.length
  let total := 4 * (keyWords + 7)
  let octets := (extend keyWords (total - keyWords) words.toArray).toList.flatten
  groups 16 octets.length octets

/-- Row `r` of the square moves left by `r` columns. -/
def shiftRows (block : Bytes) : Bytes :=
  let cells := block.toArray
  (List.range 16).map fun i => cells.getD ((i + 4 * (i % 4)) % 16) 0

/-- Row `r` of the square moves right by `r` columns. -/
def unshiftRows (block : Bytes) : Bytes :=
  let cells := block.toArray
  (List.range 16).map fun i => cells.getD ((i + 12 * (i % 4)) % 16) 0

/-- Mixes a column, with the factors of its octets in the first row. -/
def mixColumn (p q r s : UInt8) (column : Bytes) : Bytes :=
  match column with
  | [a, b, c, d] =>
    let mix (a b c d : UInt8) : UInt8 := times p a ^^^ times q b ^^^ times r c ^^^ times s d
    [mix a b c d, mix b c d a, mix c d a b, mix d a b c]
  | _ => column

def mixColumns (block : Bytes) : Bytes := (groups 4 4 block).flatMap (mixColumn 2 3 1 1)

def unmixColumns (block : Bytes) : Bytes := (groups 4 4 block).flatMap (mixColumn 14 11 13 9)

/-- The rounds after the first key was added. -/
def encryptRounds (block : Bytes) : List Bytes → Bytes
  | [] => block
  | [last] => add (shiftRows (replace substitutes block)) last
  | key :: rest => encryptRounds (add (mixColumns (shiftRows (replace substitutes block))) key) rest

def encrypt (keys : List Bytes) (block : Bytes) : Bytes :=
  match keys with
  | [] => block
  | first :: rest => encryptRounds (add block first) rest

/-- The rounds backwards, before the first key is taken off. -/
def decryptRounds (block : Bytes) : List Bytes → Bytes
  | [] => block
  | [first] => add (replace originals (unshiftRows block)) first
  | key :: rest =>
    decryptRounds (unmixColumns (add (replace originals (unshiftRows block)) key)) rest

def decrypt (keys : List Bytes) (block : Bytes) : Bytes :=
  match keys.reverse with
  | [] => block
  | last :: rest => decryptRounds (add block last) rest

/-- Decrypts blocks, to each of which the encrypted one before it was added. -/
def decryptChain (keys : List Bytes) (previous : Bytes) : List Bytes → Bytes
  | [] => []
  | block :: rest => add (decrypt keys block) previous ++ decryptChain keys block rest

/-- Takes off the padding: so many octets at the end, each of which tells how many there are. -/
def unpad? (data : Bytes) : Option Bytes :=
  match data.getLast? with
  | none => none
  | some b =>
    let n := b.toNat
    if n == 0 || 16 < n || data.length < n then none
    else if (data.drop (data.length - n)).all (· == b) then some (data.take (data.length - n))
    else none

def decryptPadded? (key initial data : Bytes) : Option Bytes :=
  unpad? (decryptChain (roundKeys key) initial (groups 16 data.length data))

/-- Decrypts octets one by one, each added to the first octet of the encrypted register, into which
the encrypted octets move. -/
def decryptOctets (keys : List Bytes) (register : Bytes) : Bytes → Bytes
  | [] => []
  | b :: rest =>
    let mask := (encrypt keys register).headD 0
    (b ^^^ mask) :: decryptOctets keys (register.drop 1 ++ [b]) rest

def decryptStream (key initial data : Bytes) : Bytes := decryptOctets (roundKeys key) initial data

end Unmask.Aes
