import Unmask.Codec.Basic
import Unmask.Decimal
import Unmask.Mock.Basic
import Unmask.Value.Compare

/-!
# Members and calls of mocks

What is under an attribute or an index of a mock, and what the known functions and methods give for
known arguments. A call that is understood but has no known result, as the import of an unknown
module, gives `none`.
-/
namespace Unmask

namespace Mock

/-- The mock of a value; `None` has none. -/
def ofValue (v : Value) : Except MockError Mock :=
  match v with
  | .none => .error (.unsupportedKind .none)
  | v => .ok (.value v.kind.name v)

def libraryMember? (l : Library) (attr : String) : Option Mock :=
  match l with
  | .builtins => ofBaseName? attr
  | .binascii => if attr == Builtin.unhexlify.name then some (.builtin .unhexlify) else none

def methodOf? (v : Value) (attr : String) : Option Mock :=
  ((Method.ofKind v.kind).find? fun m => m.name == attr).map (Mock.method v)

def getAttr (m : Mock) (attr : String) : Except MockError Mock :=
  let found := match m with
    | .library l => libraryMember? l attr
    | .value _ v => methodOf? v attr
    | _ => none
  match found with
  | some member => .ok member
  | none => .error (.attributeNotFound m.name attr)

/-- An item by its key. The items of a scope are the names of the program. -/
def getItem (m : Mock) (key : String) (ns : Namespace) : Except MockError Mock :=
  let found := match m with
    | .scope _ => ns.get? key
    | _ => none
  match found with
  | some item => .ok item
  | none => .error (.keyNotFound m.name key)

end Mock

structure Arguments where
  positional : List Mock
  named : List (String × Mock)

namespace Arguments

def isEmpty (a : Arguments) : Bool := a.positional.isEmpty && a.named.isEmpty

def firstValue? (a : Arguments) : Option Value := a.positional.head?.bind Mock.value?

def single? (a : Arguments) : Option Mock :=
  match a.positional, a.named with
  | [m], [] => some m
  | _, _ => none

def pair? (a : Arguments) : Option (Mock × Mock) :=
  match a.positional, a.named with
  | [m, n], [] => some (m, n)
  | _, _ => none

/-- The value to convert, if there is one. -/
def converted (a : Arguments) (name : String) : Except MockError (Option Value) :=
  let invalid fault := Except.error (MockError.invalidArguments name fault)
  if !a.named.isEmpty then invalid .noKeywords
  else
    match a.positional with
    | [] => .ok none
    | [m] =>
      match m.value? with
      | some v => .ok (some v)
      | none => invalid (.notConvertible m.display)
    | _ => invalid .moreThanOne

end Arguments

namespace Builtin

def callScope (s : Scope) (a : Arguments) : Except MockError Mock :=
  if a.isEmpty then .ok (.scope s) else .error (.invalidArguments s.name .noArguments)

def callGetattr (a : Arguments) : Except MockError Mock :=
  match a.pair? with
  | none => .error (.invalidArguments getattr.name .notTwo)
  | some (object, attr) =>
    match attr.text? with
    | none => .error (.invalidArguments getattr.name .attributeNotText)
    | some attr => object.getAttr attr

/-- The names of the members in the order of their characters. -/
def callDir (a : Arguments) : Except MockError Mock :=
  match a.single? with
  | none => .error (.invalidArguments dir.name .notOne)
  | some object =>
    Mock.ofValue (.list ((object.members.mergeSort fun s t => decide (s ≤ t)).map Value.str))

def callImport (a : Arguments) : Except MockError (Option Mock) :=
  match a.positional.head?.bind Mock.text? with
  | none => .error (.invalidArguments importModule.name .moduleNotText)
  | some name => .ok ((Library.ofName? name).map Mock.library)

/-- The float that text denotes; blanks around it and underscores do not matter. -/
def floatOfText (s : String) : Except MockError Float :=
  match Decimal.readFloat ((Text.trimChars s.toList).filter (· != '_')) with
  | some x => .ok x
  | none => .error (.evaluation (.invalid (.notFloat s)))

def floatOfNumber (v : Value) : Except MockError Float :=
  match v.asInt? with
  | none => .error (.invalidArguments float.name (.notConvertible v.kind.name))
  | some n => ((Number.int n).toFloat .toFloat).mapError MockError.evaluation

def callFloat (a : Arguments) : Except MockError Mock := do
  let x ← match ← a.converted float.name with
    | none => .ok 0
    | some (.float x) => .ok x
    | some (.str s) => floatOfText s
    | some v => floatOfNumber v
  Mock.ofValue (.float x)

def callStr (a : Arguments) : Except MockError Mock := do
  let v ← a.converted str.name
  Mock.ofValue (.str ((v.map Value.display).getD ""))

def callBool (a : Arguments) : Except MockError Mock := do
  let v ← a.converted bool.name
  Mock.ofValue (.bool ((v.map Value.truthy).getD false))

def callCompile (a : Arguments) : Except MockError Mock :=
  match a.firstValue? with
  | some (.str source) => .ok (.code source)
  | some (.bytes b) =>
    match Text.Utf8.decode b with
    | .ok source => .ok (.code source)
    | .error _ => .error (.invalidArguments compile.name .sourceNotUtf8)
  | _ => .error (.invalidArguments compile.name .noSource)

/-- The octets to read as hexadecimal digits. -/
def hexDigits? : Value → Option Bytes
  | .str s => if s.toList.all fun c => c.toNat < 0x80 then some (Text.Utf8.encode s) else none
  | .bytes b => some b
  | _ => none

def callUnhexlify (a : Arguments) : Except MockError Mock :=
  match a.single? with
  | none => .error (.invalidArguments unhexlify.name .notOne)
  | some m =>
    match m.value?.bind hexDigits? with
    | none => .error (.invalidArguments unhexlify.name .notHexText)
    | some digits =>
      match Hex.decode? digits with
      | some b => Mock.ofValue (.bytes b)
      | none => .error (.evaluation (.invalid .notHexadecimal))

def call (b : Builtin) (a : Arguments) : Except MockError (Option Mock) :=
  match b with
  | .globals => (callScope .globals a).map some
  | .locals => (callScope .locals a).map some
  | .vars => (callScope .vars a).map some
  | .getattr => (callGetattr a).map some
  | .dir => (callDir a).map some
  | .importModule => callImport a
  | .float => (callFloat a).map some
  | .str => (callStr a).map some
  | .bool => (callBool a).map some
  | .compile => (callCompile a).map some
  | .unhexlify => (callUnhexlify a).map some
  | .exec => .error (.notCallable b.name)
  | .eval => .error (.notCallable b.name)

end Builtin

namespace Method

def fullName (m : Method) (receiver : Value) : String := receiver.kind.name ++ "." ++ m.name

/-- Items of a list with a separator between them. -/
def callJoin (name separator : String) (a : Arguments) : Except MockError Value :=
  match a.firstValue? with
  | some (.list items) =>
    match items.mapM Value.asText? with
    | some parts => .ok (.str (separator.intercalate parts))
    | none => .error (.invalidArguments name .itemNotText)
  | _ => .error (.invalidArguments name .notTextList)

/-- The first place of a value in a list. -/
def callIndex (name : String) (items : List Value) (a : Arguments) : Except MockError Value :=
  match a.firstValue? with
  | none => .error (.invalidArguments name .noValue)
  | some needle =>
    match items.findIdx? (Value.same · needle) with
    | some n => .ok (.int n)
    | none => .error (.evaluation (.invalid (.notInList needle.repr)))

def callGetItem (name : String) (sequence : Value) (a : Arguments) : Except MockError Value :=
  match a.firstValue? with
  | none => .error (.invalidArguments name .noIndex)
  | some position => (sequence.index position).mapError MockError.evaluation

def encoding (a : Arguments) : List Char :=
  let argument := a.positional.head?.or (a.named.lookup "encoding")
  let asked := (argument.bind Mock.text?).getD "utf-8"
  asked.toList.map fun c => if c == '_' then '-' else Text.asciiLower c

def callDecode (name : String) (b : Bytes) (a : Arguments) : Except MockError Value :=
  if !(["utf-8", "utf8", "ascii"].map String.toList).contains (encoding a) then
    .error (.invalidArguments name .otherEncoding)
  else
    match Text.Utf8.decode b with
    | .ok s => .ok (.str s)
    | .error fault => .error (.evaluation (.invalid (.notUtf8 fault)))

def call (m : Method) (receiver : Value) (a : Arguments) : Except MockError Mock := do
  let name := m.fullName receiver
  let result ← match m, receiver with
    | .join, .str separator => callJoin name separator a
    | .index, .list items => callIndex name items a
    | .getItem, sequence => callGetItem name sequence a
    | .neg, number => (number.unary .minus).mapError MockError.evaluation
    | .pos, number => (number.unary .plus).mapError MockError.evaluation
    | .decode, .bytes b => callDecode name b a
    | _, _ => .error (.invalidArguments name .otherReceiver)
  Mock.ofValue result

end Method

def Mock.call (m : Mock) (a : Arguments) : Except MockError (Option Mock) :=
  match m with
  | .builtin b => if b.hasBehaviour then b.call a else .error (.notCallable b.name)
  | .method receiver f => (f.call receiver a).map some
  | .getter s => .ok (some (.scope s))
  | _ => .error (.notCallable m.name)

end Unmask
