import Unmask.Proofs.Findings
import Unmask.Proofs.MethodArguments

/-!
# Code objects

Compiled text is an object of its own, and what is done to such an object should not tell its text.
Slices, operators and lists leave it alone. But an item of it is a character of the text, `str`,
`bool`, `float` and `unhexlify` convert the text, `compile` compiles it again and `index` looks for
it in a list; besides, methods overlook it among their later arguments.
-/
namespace Unmask
open Value Resolving

variable {source : String} {m : Mock}

namespace Mock

/-- The object with another text, if it is code. -/
def retext (g : String → String) : Mock → Mock
  | .code source => .code (g source)
  | m => m

variable {g : String → String} {f : Mock} {a : Arguments}

@[simp] lemma retext_text? (m : Mock) : (m.retext g).text? = m.text? := by cases m <;> rfl

@[simp] lemma retext_members (m : Mock) : (m.retext g).members = m.members := by cases m <;> rfl

@[simp] lemma retext_getAttr (m : Mock) (attr : String) :
    (m.retext g).getAttr attr = m.getAttr attr := by cases m <;> rfl

lemma retext_of_ne (h : ∀ source, m ≠ .code source) : m.retext g = m := by
  cases m with
  | code source => exact absurd rfl (h source)
  | _ => rfl

end Mock

/-- The arguments with other texts where they are code. -/
def Arguments.retext (g : String → String) (a : Arguments) : Arguments :=
  ⟨a.positional.map (Mock.retext g), a.named.map fun n => (n.1, n.2.retext g)⟩

/-- The functions that convert a value. -/
def Builtin.conversions : List Builtin := [.str, .bool, .float, .unhexlify]

/-- The calls that look at the text of code. -/
inductive Mock.Reads (a : Arguments) : Mock → Prop where
  | converted {b : Builtin} {source : String} (hb : b ∈ Builtin.conversions)
    (ha : a = ⟨[.code source], []⟩) : Reads a (.builtin b)
  | compiled {source : String} (ha : a.positional.head? = some (.code source)) :
    Reads a (.builtin .compile)
  | sought {items : List Value} {source : String}
    (ha : a.positional.head? = some (.code source)) : Reads a (.method (.list items) .index)

section Calls

variable {g : String → String} {f : Mock} {a : Arguments}

namespace Arguments

lemma isEmpty_retext : (a.retext g).isEmpty = a.isEmpty := by
  simp [isEmpty, retext]

lemma firstText_retext :
    (a.retext g).positional.head?.bind Mock.text? = a.positional.head?.bind Mock.text? := by
  obtain ⟨positional, named⟩ := a
  cases positional with
  | nil => rfl
  | cons m rest => simp [retext]

lemma firstValue?_retext (h : ∀ source, a.positional.head? ≠ some (.code source)) :
    (a.retext g).firstValue? = a.firstValue? := by
  obtain ⟨positional, named⟩ := a
  cases positional with
  | nil => rfl
  | cons m rest =>
    have hm : m.retext g = m := Mock.retext_of_ne fun source heq => h source (by rw [heq]; rfl)
    simp [firstValue?, retext, hm]

lemma firstValue?_code (h : a.positional.head? = some (.code source)) :
    a.firstValue? = some (.str source) := by
  rw [firstValue?, h]
  rfl

/-- The first argument has the same value or is code with another text. -/
lemma firstValue?_cases (g : String → String) (a : Arguments) :
    (a.retext g).firstValue? = a.firstValue? ∨
      ∃ source, a.positional.head? = some (.code source) ∧ a.firstValue? = some (.str source) ∧
        (a.retext g).firstValue? = some (.str (g source)) := by
  by_cases hhead : ∃ source, a.positional.head? = some (.code source)
  · obtain ⟨source, hsource⟩ := hhead
    refine .inr ⟨source, hsource, firstValue?_code hsource, firstValue?_code ?_⟩
    rw [retext, List.head?_map, hsource]
    rfl
  · exact .inl (firstValue?_retext fun source heq => hhead ⟨source, heq⟩)

lemma single?_retext : (a.retext g).single? = a.single?.map (Mock.retext g) := by
  obtain ⟨positional, named⟩ := a
  match positional, named with
  | [], _ => rfl
  | [m], [] => rfl
  | [m], _ :: _ => rfl
  | _ :: _ :: _, _ => rfl

lemma eq_of_single? (h : a.single? = some m) : a = ⟨[m], []⟩ := by
  obtain ⟨positional, named⟩ := a
  match positional, named with
  | [_], [] =>
    cases h
    rfl

lemma pair?_retext :
    (a.retext g).pair? = a.pair?.map fun p => (p.1.retext g, p.2.retext g) := by
  obtain ⟨positional, named⟩ := a
  match positional, named with
  | [], _ => rfl
  | [_], _ => rfl
  | [m, n], [] => rfl
  | [m, n], _ :: _ => rfl
  | _ :: _ :: _ :: _, _ => rfl

lemma converted_retext {name : String} (h : ∀ source, a ≠ ⟨[.code source], []⟩) :
    (a.retext g).converted name = a.converted name := by
  obtain ⟨positional, named⟩ := a
  match positional, named with
  | [], [] => rfl
  | [], _ :: _ => rfl
  | [m], [] =>
    have hm : m.retext g = m := Mock.retext_of_ne fun source heq => h source (by rw [heq])
    simp [retext, hm]
  | [_], _ :: _ => rfl
  | _ :: _ :: _, [] => rfl
  | _ :: _ :: _, _ :: _ => rfl

lemma lookup_retext (named : List (String × Mock)) (name : String) :
    (named.map fun n => (n.1, n.2.retext g)).lookup name =
      (named.lookup name).map (Mock.retext g) := by
  induction named with
  | nil => rfl
  | cons n rest ih =>
    rw [List.map_cons, List.lookup_cons, List.lookup_cons, ih]
    cases name == n.1 <;> rfl

lemma encoding_retext : Method.encoding (a.retext g) = Method.encoding a := by
  have hbound : (a.retext g).positional.head?.or ((a.retext g).named.lookup "encoding") =
      (a.positional.head?.or (a.named.lookup "encoding")).map (Mock.retext g) := by
    rw [retext, lookup_retext, List.head?_map]
    cases a.positional.head? <;> rfl
  have htext : ((a.retext g).positional.head?.or ((a.retext g).named.lookup "encoding")).bind
      Mock.text? = (a.positional.head?.or (a.named.lookup "encoding")).bind Mock.text? := by
    rw [hbound]
    cases a.positional.head?.or (a.named.lookup "encoding") <;> simp
  simp only [Method.encoding, htext]

end Arguments

lemma call_builtin_retext {b : Builtin} (h : ¬(Mock.builtin b).Reads a) :
    b.call (a.retext g) = b.call a := by
  have converted (hb : b ∈ Builtin.conversions) (name : String) :
      (a.retext g).converted name = a.converted name :=
    Arguments.converted_retext fun source ha => h (.converted hb ha)
  cases b with
  | globals | locals | vars =>
    simp only [Builtin.call, Builtin.callScope, Arguments.isEmpty_retext]
  | getattr =>
    simp only [Builtin.call, Builtin.callGetattr, Arguments.pair?_retext]
    cases a.pair? <;> simp
  | dir =>
    simp only [Builtin.call, Builtin.callDir, Arguments.single?_retext]
    cases a.single? <;> simp
  | importModule => simp only [Builtin.call, Builtin.callImport, Arguments.firstText_retext]
  | float =>
    simp only [Builtin.call, Builtin.callFloat, converted (by decide)]
  | str => simp only [Builtin.call, Builtin.callStr, converted (by decide)]
  | bool => simp only [Builtin.call, Builtin.callBool, converted (by decide)]
  | compile =>
    simp only [Builtin.call, Builtin.callCompile]
    rw [Arguments.firstValue?_retext fun source ha => h (.compiled ha)]
  | unhexlify =>
    simp only [Builtin.call, Builtin.callUnhexlify, Arguments.single?_retext]
    cases hsingle : a.single? with
    | none => rfl
    | some m =>
      have hm : m.retext g = m := Mock.retext_of_ne fun source heq =>
        h (.converted (by decide) (Arguments.eq_of_single? (heq ▸ hsingle)))
      rw [Option.map_some, hm]
  | exec | eval => rfl

lemma call_method_retext {receiver : Value} {f : Method} (h : ¬(Mock.method receiver f).Reads a) :
    f.call receiver (a.retext g) = f.call receiver a := by
  obtain hfirst | ⟨source, hsource, hfirst, hother⟩ := Arguments.firstValue?_cases g a
  · cases f with
    | index => cases receiver <;> simp only [Method.call, Method.callIndex, hfirst]
    | join => cases receiver <;> simp only [Method.call, Method.callJoin, hfirst]
    | getItem => simp only [Method.call, Method.callGetItem, hfirst]
    | decode =>
      cases receiver <;> simp only [Method.call, Method.callDecode, Arguments.encoding_retext]
    | neg | pos => rfl
  · cases f with
    | index =>
      cases receiver with
      | list items => exact absurd (.sought hsource) h
      | _ => rfl
    | join => cases receiver <;> simp only [Method.call, Method.callJoin, hfirst, hother]
    | getItem =>
      -- Text is no position, whatever it is.
      simp only [Method.call, Method.callGetItem, hfirst, hother]
      rfl
    | decode =>
      cases receiver <;> simp only [Method.call, Method.callDecode, Arguments.encoding_retext]
    | neg | pos => rfl

/-- Other calls give the same whatever the text of code is. -/
lemma call_retext (h : ¬f.Reads a) : f.call (a.retext g) = f.call a := by
  cases f with
  | builtin b => simp only [Mock.call, call_builtin_retext h]
  | method receiver f => simp only [Mock.call, call_method_retext h]
  | _ => rfl

end Calls

/-- The functions and methods that code is passed to. -/
inductive Mock.Consumer : Mock → Prop where
  | conversion {b : Builtin} (hb : b ∈ Builtin.conversions) : Consumer (.builtin b)
  | join (separator : String) : Consumer (.method (.str separator) .join)
  | index (items : List Value) : Consumer (.method (.list items) .index)

/-- What is made of a text that is converted. -/
inductive Builtin.Converts (source : String) : Builtin → Mock → Prop where
  | str : Converts source .str (.value Kind.str.name (.str source))
  | bool : Converts source .bool (.value Kind.bool.name (.bool !source.isEmpty))
  | float {x : Float} (h : Builtin.floatOfText source = .ok x) :
    Converts source .float (.value Kind.float.name (.float x))
  | unhexlify {o : Bytes} (hascii : ∀ c ∈ source.toList, c.toNat < 0x80)
    (h : Hex.decode? (Text.Utf8.encode source) = some o) :
    Converts source .unhexlify (.value Kind.bytes.name (.bytes o))

section Conversions

variable {a : Arguments} {b : Builtin}

/-- A conversion has one argument at most. -/
lemma Arguments.converted_ok {name : String} {v : Option Value} (h : a.converted name = .ok v) :
    a.named = [] ∧ a.positional.length ≤ 1 := by
  obtain ⟨positional, named⟩ := a
  match positional, named with
  | [], [] => exact ⟨rfl, Nat.zero_le 1⟩
  | [_], [] => exact ⟨rfl, Nat.le_refl 1⟩
  | _ :: _ :: _, [] => contradiction
  | [], _ :: _ => contradiction
  | _ :: _, _ :: _ => contradiction

lemma Builtin.call_conversion (hb : b ∈ conversions) (h : b.call a = .ok (some m)) :
    a.named = [] ∧ a.positional.length ≤ 1 := by
  have converted {name : String} {f : Option Value → Except MockError Mock}
      (h : (a.converted name >>= f).map some = .ok (some m)) :
      a.named = [] ∧ a.positional.length ≤ 1 := by
    cases hv : a.converted name with
    | error e =>
      rw [hv] at h
      contradiction
    | ok v => exact Arguments.converted_ok hv
  cases b with
  | float | str | bool => exact converted h
  | unhexlify =>
    cases hsingle : a.single? with
    | none =>
      simp only [Builtin.call, Builtin.callUnhexlify, hsingle] at h
      contradiction
    | some m =>
      rw [Arguments.eq_of_single? hsingle]
      exact ⟨rfl, Nat.le_refl 1⟩
  | _ => exact absurd hb (by decide)

lemma Builtin.float_converts_iff :
    Builtin.float.call ⟨[.code source], []⟩ = .ok (some m) ↔ Builtin.float.Converts source m := by
  simp only [Builtin.call, Builtin.callFloat, Arguments.converted, Mock.value?,
    List.isEmpty_nil, Bool.not_true, Bool.false_eq_true, if_false]
  cases hx : floatOfText source with
  | error e =>
    simp only [Bind.bind, Except.bind, hx]
    constructor
    · intro h
      cases h
    · rintro (_ | _ | hother)
      cases hx.symm.trans hother
  | ok x =>
    simp only [Bind.bind, Except.bind, hx]
    constructor
    · intro h
      cases h
      exact .float hx
    · rintro (_ | _ | hother)
      cases hx.symm.trans hother
      rfl

lemma Builtin.unhexlify_converts_iff : Builtin.unhexlify.call ⟨[.code source], []⟩ =
    .ok (some m) ↔ Builtin.unhexlify.Converts source m := by
  have hascii : (source.toList.all fun c => decide (c.toNat < 0x80)) = true ↔
      ∀ c ∈ source.toList, c.toNat < 0x80 := by simp
  simp only [Builtin.call, Builtin.callUnhexlify, Arguments.single?, Mock.value?,
    Option.bind_some, hexDigits?]
  constructor
  · intro h
    split at h
    · contradiction
    · next digits hdigits =>
      obtain ⟨hall, heq⟩ := Option.ite_none_right_eq_some.mp hdigits
      cases heq
      split at h
      · next o hdecode =>
        cases h
        exact .unhexlify (hascii.mp hall) hdecode
      · contradiction
  · rintro (_ | _ | _ | ⟨hall, hdecode⟩)
    rw [if_pos (hascii.mpr hall)]
    simp only [hdecode]
    rfl

/-- What a conversion of code makes of its text. -/
lemma Builtin.converts_iff (hb : b ∈ conversions) :
    b.call ⟨[.code source], []⟩ = .ok (some m) ↔ b.Converts source m := by
  cases b with
  | str =>
    have hcall : Builtin.str.call ⟨[.code source], []⟩ =
        .ok (some (.value Kind.str.name (.str source))) := rfl
    rw [hcall]
    constructor
    · intro h
      cases h
      exact .str
    · rintro ⟨⟩
      rfl
  | bool =>
    have hcall : Builtin.bool.call ⟨[.code source], []⟩ =
        .ok (some (.value Kind.bool.name (.bool !source.isEmpty))) := rfl
    rw [hcall]
    constructor
    · intro h
      cases h
      exact .bool
    · rintro ⟨⟩
      rfl
  | float => exact float_converts_iff
  | unhexlify => exact unhexlify_converts_iff
  | _ => exact absurd hb (by decide)

end Conversions

section Methods

variable {a : Arguments}

/-- `join` and `index` look at nothing but the value of the first argument. -/
lemma Method.call_congr {receiver : Value} {f : Method} {a' : Arguments}
    (hf : f = .join ∨ f = .index) (h : a.firstValue? = a'.firstValue?) :
    f.call receiver a = f.call receiver a' := by
  obtain rfl | rfl := hf
  · cases receiver <;> simp only [Method.call, Method.callJoin, h]
  · cases receiver <;> simp only [Method.call, Method.callIndex, h]

lemma same_str (v : Value) (source : String) : v.same (.str source) = true ↔ v = .str source := by
  cases v <;> simp [same]

/-- The text of code is looked for as if it were a value. -/
lemma Method.index_code_iff {items : List Value}
    (h : a.positional.head? = some (.code source)) :
    Method.index.call (.list items) a = .ok m ↔ ∃ p : Nat,
      FirstFrom (· = .str source) items 0 p ∧ m = .value Kind.int.name (.int p) := by
  have hfirst := Arguments.firstValue?_code h
  have hfind (p : Nat) : items.findIdx? (Value.same · (.str source)) = some p ↔
      FirstFrom (· = .str source) items 0 p := findIdx?_iff (fun v _ => same_str v source) p
  simp only [Method.call, Method.callIndex, hfirst]
  cases hp : items.findIdx? (Value.same · (.str source)) with
  | none =>
    constructor
    · intro hm
      cases hm
    · rintro ⟨p, hp', -⟩
      rw [(hfind p).mpr hp'] at hp
      contradiction
  | some p =>
    constructor
    · intro hm
      cases hm
      exact ⟨p, (hfind p).mp hp, rfl⟩
    · rintro ⟨q, hq, rfl⟩
      rw [((hfind p).mp hp).unique hq]
      rfl

/-- Code is no list of texts. -/
lemma Method.join_code {separator : String} (h : a.positional.head? = some (.code source)) :
    Method.join.call (.str separator) a ≠ .ok m := by
  simp [Method.call, Method.callJoin, Arguments.firstValue?_code h, Bind.bind, Except.bind]

end Methods

namespace Session

/-- The uses of an object in which it is indexed, sliced, an operand, an item or an argument. -/
inductive Uses (s : Session) (c : Expr) : Expr → Prop where
  | indexed {key : Expr} (hkey : ∀ lower upper step, key ≠ .slice lower upper step) :
    Uses s c (.subscript c key)
  | sliced (lower upper step : Option Expr) : Uses s c (.subscript c (.slice lower upper step))
  | operand (op : UnaryOp) : Uses s c (.unary op c)
  | left (op : BinaryOp) (right : Expr) : Uses s c (.binary c op right)
  | right (left : Expr) (op : BinaryOp) : Uses s c (.binary left op c)
  | chained (op : BoolOp) {values : List Expr} (h : c ∈ values) : Uses s c (.bool op values)
  | listed {items : List Expr} (h : c ∈ items) : Uses s c (.list items)
  | passed {func : Expr} {args : List Expr} {keywords : List Keyword} {f : Mock}
    (hfunc : s.found func = .mock f) (hf : f.Consumer)
    (h : c ∈ args ∨ ∃ k ∈ keywords, k.value = c) : Uses s c (.call func args keywords)

/-- All arguments of a call are known. -/
structure Knows (s : Session) (args : List Expr) (keywords : List Keyword) (a : Arguments) : Prop
    where
  positional : args.map s.found = a.positional.map Resolved.mock
  named : keywords.map s.foundNamed = a.named.map fun n => (some n.1, .mock n.2)

/-- The uses of code that give an object. -/
inductive Yields (s : Session) (source : String) (c : Expr) : Expr → Mock → Prop where
  /-- A character of the text. -/
  | character {key : Expr} {k : Mock} {v : Value} {n : Int} {x : Char}
    (hkey : s.found key = .mock k) (hv : k.own? = some v) (hn : v.asInt? = some n)
    (hplace : 0 ≤ Method.fromEnd source.length n)
    (hx : source.toList[(Method.fromEnd source.length n).toNat]? = some x) :
    Yields s source c (.subscript c key) (.value Kind.str.name (.str (String.singleton x)))
  /-- The text as a value of some kind. -/
  | converted {func : Expr} {b : Builtin} {m : Mock} (hfunc : s.found func = .mock (.builtin b))
    (h : b.Converts source m) : Yields s source c (.call func [c] []) m
  /-- The first place of the text in a list. -/
  | sought {func : Expr} {items : List Value} {args : List Expr} {keywords : List Keyword}
    {a : Arguments} {p : Nat} (hfunc : s.found func = .mock (.method (.list items) .index))
    (ha : s.Knows args keywords a) (hhead : args.head? = some c)
    (hp : FirstFrom (· = .str source) items 0 p) :
    Yields s source c (.call func args keywords) (.value Kind.int.name (.int p))
  /-- What a method gives for its first argument alone. -/
  | overlooked {func : Expr} {receiver : Value} {f : Method} {args : List Expr}
    {keywords : List Keyword} {a : Arguments} {first m : Mock}
    (hfunc : s.found func = .mock (.method receiver f)) (ha : s.Knows args keywords a)
    (hhead : args.head? ≠ some c) (hfirst : a.positional.head? = some first)
    (h : f.call receiver ⟨[first], []⟩ = .ok m) : Yields s source c (.call func args keywords) m

variable {s : Session} {c e : Expr}

lemma position?_iff {k : Mock} {v : Value} :
    Resolve.position? k = some v ↔ k.own? = some v ∧ ∃ n, v.asInt? = some n := by
  cases k with
  | value name w =>
    cases w with
    | int n =>
      refine ⟨fun h => ⟨h, n, ?_⟩, fun h => h.1⟩
      cases h
      rfl
    | bool b =>
      refine ⟨fun h => ⟨h, if b then 1 else 0, ?_⟩, fun h => h.1⟩
      cases h
      rfl
    | _ =>
      refine ⟨nofun, ?_⟩
      rintro ⟨hv, n, hn⟩
      cases hv
      cases hn
  | _ => exact ⟨nofun, nofun⟩

lemma element?_iff {α : Type} {items : List α} {n : Int} {r : α} :
    element? items n = some r ↔ 0 ≤ Method.fromEnd items.length n ∧
      items[(Method.fromEnd items.length n).toNat]? = some r := by
  rw [element?, Method.place?_eq]
  split
  · next h => rw [Option.bind_some, and_iff_right h.1]
  · next h =>
    refine ⟨nofun, fun ⟨hplace, hr⟩ => absurd ⟨hplace, ?_⟩ h⟩
    have hlt := (List.getElem?_eq_some_iff.mp hr).1
    omega

/-- An item of code is a character of its text. -/
lemma item_code_iff {k m : Mock} {ns : Namespace} :
    Resolve.item (.code source) k ns = .ok m ↔ ∃ v n x, k.own? = some v ∧ v.asInt? = some n ∧
      0 ≤ Method.fromEnd source.length n ∧
      source.toList[(Method.fromEnd source.length n).toNat]? = some x ∧
      m = .value Kind.str.name (.str (String.singleton x)) := by
  unfold Resolve.item
  cases hposition : Resolve.position? k with
  | none =>
    refine ⟨fun h => ?_, ?_⟩
    · dsimp only [Mock.value?] at h
      split at h <;> contradiction
    · rintro ⟨v, n, x, hv, hn, -⟩
      rw [position?_iff.mpr ⟨hv, n, hn⟩] at hposition
      contradiction
  | some v =>
    obtain ⟨hv, n, hn⟩ := position?_iff.mp hposition
    have hlength : source.length = source.toList.length := String.length_toList.symm
    rw [hlength]
    simp only [Mock.value?, Value.index, hn]
    cases helement : element? source.toList n with
    | none =>
      constructor
      · intro h
        cases h
      · rintro ⟨w, k, x, hw, hk, hplace, hx, -⟩
        cases hv.symm.trans hw
        cases hn.symm.trans hk
        rw [element?_iff.mpr ⟨hplace, hx⟩] at helement
        contradiction
    | some x =>
      obtain ⟨hplace, hx⟩ := element?_iff.mp helement
      constructor
      · intro h
        cases h
        exact ⟨v, n, x, hv, hn, hplace, hx, rfl⟩
      · rintro ⟨w, k, y, hw, hk, -, hy, rfl⟩
        cases hv.symm.trans hw
        cases hn.symm.trans hk
        cases hx.symm.trans hy
        rfl

/-- Code is unresolved where it is indexed, save for the characters of its text. -/
lemma found_indexed_iff {key : Expr} {m : Mock} (hc : s.found c = .mock (.code source))
    (hkey : ∀ lower upper step, key ≠ .slice lower upper step) :
    s.found (.subscript c key) = .mock m ↔ s.Yields source c (.subscript c key) m := by
  have hyields : s.Yields source c (.subscript c key) m ↔
      ∃ k, s.found key = .mock k ∧ Resolve.item (.code source) k s.names = .ok m := by
    constructor
    · rintro (⟨hk, hv, hn, hplace, hx⟩)
      exact ⟨_, hk, item_code_iff.mpr ⟨_, _, _, hv, hn, hplace, hx, rfl⟩⟩
    · rintro ⟨k, hk, hitem⟩
      obtain ⟨v, n, x, hv, hn, hplace, hx, rfl⟩ := item_code_iff.mp hitem
      exact .character hk hv hn hplace hx
  rw [hyields]
  cases hk : s.found key with
  | expr e =>
    have hfound : s.found (.subscript c key) = .expr (.subscript (Mock.code source).revert e) := by
      refine found_subscript hkey ?_
      rw [hc, hk]
      exact .pure _
    rw [hfound]
    exact ⟨nofun, nofun⟩
  | mock k =>
    have hfound := finds_subscript s.names (.code source) k
    rw [← hc, ← hk] at hfound
    rw [found_subscript hkey hfound]
    constructor
    · intro h
      refine ⟨k, rfl, ?_⟩
      split at h
      · next hitem =>
        cases h
        exact hitem
      · cases h
    · rintro ⟨other, hother, hitem⟩
      cases hother
      rw [hitem]

lemma found_sliced (hc : s.found c = .mock (.code source)) (lower upper step : Option Expr) :
    ∃ r, s.found (.subscript c (.slice lower upper step)) = .expr r := by
  let bound (o : Option Expr) : Option Expr := (o.map s.found).map Resolved.toExpr
  have hslice : Resolve.slice (s.found c) (lower.map s.found) (upper.map s.found)
      (step.map s.found) = pure (.expr (.subscript (s.found c).toExpr
        (.slice (bound lower) (bound upper) (bound step)))) := by
    rw [hc]
    rfl
  exact ⟨_, found_slice (.of_eq hslice)⟩

lemma found_operand (hc : s.found c = .mock (.code source)) (op : UnaryOp) :
    ∃ r, s.found (.unary op c) = .expr r := by
  have hunary : Resolve.unary op (s.found c) = pure (.expr (.unary op (s.found c).toExpr)) := by
    rw [hc]
    rfl
  exact ⟨_, found_unary (.of_eq hunary)⟩

/-- An operator on what is no integer leaves its operands alone. -/
lemma found_operands {left right : Expr}
    (h : (s.found left).intLike? = Option.none ∨ (s.found right).intLike? = Option.none)
    (op : BinaryOp) : ∃ r, s.found (.binary left op right) = .expr r := by
  have hbinary : Resolve.binary (s.found left) op (s.found right) =
      pure (.expr (.binary (s.found left).toExpr op (s.found right).toExpr)) := by
    unfold Resolve.binary
    dsimp only
    split
    · split
      · next hv hw => simp [hv, hw] at h
      · rfl
    · rfl
  exact ⟨_, found_binary (.of_eq hbinary)⟩

lemma found_chained (hc : s.found c = .mock (.code source)) (op : BoolOp) {values : List Expr}
    (h : c ∈ values) : ∃ r, s.found (.bool op values) = .expr r := by
  have hnot : ¬(values.map s.found).all fun r => r.intLike?.isSome := by
    rw [List.all_eq_true]
    intro hall
    have hone := hall _ (List.mem_map_of_mem h)
    rw [hc] at hone
    contradiction
  exact ⟨_, by rw [found_bool, Resolve.chain, if_neg hnot]⟩

lemma found_listed (hc : s.found c = .mock (.code source)) {items : List Expr} (h : c ∈ items) :
    ∃ r, s.found (.list items) = .expr r := by
  have hnone : (items.map s.found).mapM Resolved.value? = Option.none := by
    rw [Option.eq_none_iff_forall_ne_some]
    intro values hvalues
    obtain ⟨v, hv⟩ := (Resolve.exists_of_mapM hvalues).1 _ (List.mem_map_of_mem h)
    rw [hc] at hv
    contradiction
  exact ⟨_, by rw [found_list, Resolve.list, hnone]⟩

lemma knows_iff {args : List Expr} {keywords : List Keyword} {a : Arguments} :
    Resolve.arguments? (args.map s.found) (keywords.map s.foundNamed) = some a ↔
      s.Knows args keywords a := by
  rw [Resolve.arguments?_eq_some]
  exact ⟨fun h => ⟨h.1, h.2⟩, fun h => ⟨h.positional, h.named⟩⟩

lemma Consumer.evaluated {f : Mock} (hf : f.Consumer) :
    Resolve.isBuiltin .eval f = false ∧ f.hasBehaviour = true := by
  cases hf with
  | @conversion b hb =>
    revert hb
    cases b <;> decide
  | join | index => exact ⟨rfl, rfl⟩

/-- A call of a known function or method that takes code gives what it gives for arguments that are
known. -/
lemma found_call_iff {func : Expr} {args : List Expr} {keywords : List Keyword} {f m : Mock}
    (hfunc : s.found func = .mock f) (hf : f.Consumer) :
    s.found (.call func args keywords) = .mock m ↔
      ∃ a, s.Knows args keywords a ∧ f.call a = .ok (some m) := by
  obtain ⟨heval, hbehaviour⟩ := Consumer.evaluated hf
  simp only [← knows_iff]
  cases harguments : Resolve.arguments? (args.map s.found) (keywords.map s.foundNamed) with
  | none =>
    have hcall : Resolve.call s.reach (s.found func) (args.map s.found)
        (keywords.map s.foundNamed) = pure (.expr (Resolve.residualCall (.mock f)
          (args.map s.found) (keywords.map s.foundNamed))) := by
      simp only [hfunc, Resolve.call, heval, hbehaviour, harguments, Bool.false_eq_true, if_false,
        Bool.not_true]
    rw [found_call (.of_eq hcall)]
    exact ⟨nofun, nofun⟩
  | some a =>
    have hcall : Resolve.call s.reach (s.found func) (args.map s.found)
        (keywords.map s.foundNamed) =
        Resolve.callKnown f a (.mock f) (Resolve.residualCall (.mock f)
          (args.map s.found) (keywords.map s.foundNamed)) := by
      simp only [hfunc, Resolve.call, heval, hbehaviour, harguments, Bool.false_eq_true, if_false,
        Bool.not_true]
    obtain ⟨r, hr, hiff⟩ := finds_callKnown s.names f a (.mock f) (Resolve.residualCall (.mock f)
      (args.map s.found) (keywords.map s.foundNamed))
    rw [← hcall] at hr
    rw [found_call hr, hiff]
    simp

section Passed

variable {func : Expr} {args : List Expr} {keywords : List Keyword} {a : Arguments} {m : Mock}

/-- One argument that is not named is the code that is passed. -/
lemma Knows.only (ha : s.Knows args keywords a) (hc : s.found c = .mock (.code source))
    (h : c ∈ args ∨ ∃ k ∈ keywords, k.value = c)
    (hone : a.named = [] ∧ a.positional.length ≤ 1) :
    args = [c] ∧ keywords = [] ∧ a = ⟨[.code source], []⟩ := by
  obtain ⟨positional, named⟩ := a
  obtain ⟨hpositional, hnamed⟩ := ha
  obtain ⟨rfl, hlength⟩ := hone
  obtain rfl : keywords = [] := List.map_eq_nil_iff.mp hnamed
  have hmem : c ∈ args := h.resolve_right nofun
  have hlengths : args.length = positional.length := by
    simpa using congrArg List.length hpositional
  obtain ⟨x, rfl⟩ := List.length_eq_one_iff.mp
    (Nat.le_antisymm (hlengths ▸ hlength) (List.length_pos_of_mem hmem))
  obtain rfl := List.mem_singleton.mp hmem
  rw [List.map_singleton, hc] at hpositional
  obtain ⟨m, rfl, hm⟩ := List.map_eq_singleton_iff.mp hpositional.symm
  cases hm
  exact ⟨rfl, rfl, rfl⟩

/-- What is found for the first argument is the first one that is known. -/
lemma Knows.head (ha : s.Knows args keywords a) :
    args.head?.map s.found = a.positional.head?.map Resolved.mock := by
  rw [← List.head?_map, ha.positional, List.head?_map]

/-- A conversion gives something for code only if it is the only argument. -/
lemma found_converted_iff {b : Builtin} (hc : s.found c = .mock (.code source))
    (hfunc : s.found func = .mock (.builtin b)) (hb : b ∈ Builtin.conversions)
    (h : c ∈ args ∨ ∃ k ∈ keywords, k.value = c) :
    s.found (.call func args keywords) = .mock m ↔
      s.Yields source c (.call func args keywords) m := by
  have hbehaviour : b.hasBehaviour = true := (Consumer.evaluated (.conversion hb)).2
  have hcall (a : Arguments) : (Mock.builtin b).call a = b.call a := by
    rw [Mock.call, if_pos hbehaviour]
  rw [found_call_iff hfunc (.conversion hb)]
  constructor
  · rintro ⟨a, ha, hm⟩
    rw [hcall] at hm
    obtain ⟨rfl, rfl, rfl⟩ := ha.only hc h (Builtin.call_conversion hb hm)
    exact .converted hfunc ((Builtin.converts_iff hb).mp hm)
  · intro hyields
    cases hyields with
    | converted hfunc' hm =>
      cases hfunc.symm.trans hfunc'
      refine ⟨⟨[.code source], []⟩, ⟨?_, rfl⟩, ?_⟩
      · rw [List.map_singleton, hc, List.map_singleton]
      · rw [hcall]
        exact (Builtin.converts_iff hb).mpr hm
    | sought hfunc' | overlooked hfunc' => cases hfunc.symm.trans hfunc'

lemma call_method_iff {receiver : Value} {f : Method} :
    (Mock.method receiver f).call a = .ok (some m) ↔ f.call receiver a = .ok m := by
  rw [Mock.call]
  cases f.call receiver a <;> simp [Except.map]

lemma Consumer.looks_first {receiver : Value} {f : Method}
    (hf : (Mock.method receiver f).Consumer) : f = .join ∨ f = .index := by
  cases hf with
  | join => exact .inl rfl
  | index => exact .inr rfl

/-- `join` and `index` need an argument. -/
lemma method_no_argument {receiver : Value} {f : Method} (hf : f = .join ∨ f = .index)
    (hnone : a.firstValue? = Option.none) : f.call receiver a ≠ .ok m := by
  obtain rfl | rfl := hf
  · cases receiver <;> simp [Method.call, Method.callJoin, hnone, Bind.bind, Except.bind]
  · cases receiver <;> simp [Method.call, Method.callIndex, hnone, Bind.bind, Except.bind]

/-- `index` looks for the text of code that is its first argument, `join` refuses it, and both
overlook it elsewhere. -/
lemma found_method_iff {receiver : Value} {f : Method} (hc : s.found c = .mock (.code source))
    (hfunc : s.found func = .mock (.method receiver f)) (hf : (Mock.method receiver f).Consumer) :
    s.found (.call func args keywords) = .mock m ↔
      s.Yields source c (.call func args keywords) m := by
  have hlooks := Consumer.looks_first hf
  rw [found_call_iff hfunc hf]
  simp only [call_method_iff]
  constructor
  · rintro ⟨a, ha, hm⟩
    have hhead := ha.head
    cases hfirst : a.positional.head? with
    | none =>
      have hnone : a.firstValue? = Option.none := by
        rw [Arguments.firstValue?, hfirst]
        rfl
      exact absurd hm (method_no_argument hlooks hnone)
    | some first =>
      by_cases hx : args.head? = some c
      · rw [hx, hfirst, Option.map_some, hc] at hhead
        cases hhead
        cases hf with
        | join => exact absurd hm (Method.join_code hfirst)
        | index items =>
          obtain ⟨p, hp, rfl⟩ := (Method.index_code_iff hfirst).mp hm
          exact .sought hfunc ha hx hp
      · refine .overlooked hfunc ha hx hfirst ?_
        rw [← hm]
        refine Method.call_congr hlooks ?_
        rw [Arguments.firstValue?, Arguments.firstValue?, hfirst]
        rfl
  · intro hyields
    cases hyields with
    | converted hfunc' => cases hfunc.symm.trans hfunc'
    | @sought _ _ _ _ a _ hfunc' ha hx hp =>
      cases hfunc.symm.trans hfunc'
      have hhead := ha.head
      rw [hx, Option.map_some, hc] at hhead
      obtain ⟨first, hfirst, hcode⟩ := Option.map_eq_some_iff.mp hhead.symm
      cases hcode
      exact ⟨a, ha, (Method.index_code_iff hfirst).mpr ⟨_, hp, rfl⟩⟩
    | @overlooked _ _ _ _ _ a _ _ hfunc' ha hx hfirst hm =>
      cases hfunc.symm.trans hfunc'
      refine ⟨a, ha, ?_⟩
      rw [← hm]
      refine Method.call_congr hlooks ?_
      rw [Arguments.firstValue?, Arguments.firstValue?, hfirst]
      rfl

end Passed

/-- What stays an expression gives no object. -/
lemma iff_of_unresolved {m : Mock} (hfound : ∃ r, s.found e = .expr r)
    (h : ¬s.Yields source c e m) : s.found e = .mock m ↔ s.Yields source c e m := by
  obtain ⟨r, hr⟩ := hfound
  rw [hr]
  exact ⟨nofun, fun hyields => absurd hyields h⟩

/-- A slice of code is no item of it. -/
lemma not_yields_slice {lower upper step : Option Expr} {m : Mock} :
    ¬s.Yields source c (.subscript c (.slice lower upper step)) m := by
  rintro ⟨hkey, -⟩
  obtain ⟨r, hr⟩ := s.found_bounds lower upper step
  cases hr.symm.trans hkey

/-- Where code is indexed, sliced, an operand, an item of a list, or an argument of `str`, `bool`,
`float`, `unhexlify`, `join` or `index`, nothing is found except for the uses that yield something.
Calls do not look at the text of code except for those that read it. -/
theorem code_untouched (hc : s.found c = .mock (.code source)) :
    (∀ e m, s.Uses c e → (s.found e = .mock m ↔ s.Yields source c e m)) ∧
      ∀ (f : Mock) (a : Arguments) (g : String → String), ¬f.Reads a →
        f.call (a.retext g) = f.call a := by
  refine ⟨fun e m huse => ?_, fun f a g h => call_retext h⟩
  cases huse with
  | indexed hkey => exact found_indexed_iff hc hkey
  | sliced lower upper step =>
    exact iff_of_unresolved (found_sliced hc lower upper step) not_yields_slice
  | operand op => exact iff_of_unresolved (found_operand hc op) nofun
  | left op right =>
    exact iff_of_unresolved (found_operands (.inl (by rw [hc]; rfl)) op) nofun
  | right left op =>
    exact iff_of_unresolved (found_operands (.inr (by rw [hc]; rfl)) op) nofun
  | chained op h => exact iff_of_unresolved (found_chained hc op h) nofun
  | listed h => exact iff_of_unresolved (found_listed hc h) nofun
  | passed hfunc hf h =>
    cases hf with
    | conversion hb => exact found_converted_iff hc hfunc hb h
    | join separator => exact found_method_iff hc hfunc (.join separator)
    | index items => exact found_method_iff hc hfunc (.index items)

/-- A call that compiles a text. -/
def compiling (source : String) : Expr :=
  .apply (.name "compile") [.str source, .str "", .str "exec"]

lemma found_compiling (source : String) :
    (Session.start .empty).found (compiling source) = .mock (.code source) := rfl

/-- A list with code in it is not found, and neither is the sum of code with itself. -/
theorem code_untouched_in_list :
    let s := Session.start .empty
    let c := compiling "x"
    s.found c = .mock (.code "x") ∧ (∀ m, s.found (.list [.int 1, c]) ≠ .mock m) ∧
      ∀ m, s.found (.binary c .add c) ≠ .mock m := by
  intro s c
  have hc : s.found c = .mock (.code "x") := found_compiling "x"
  refine ⟨hc, fun m hm => ?_, fun m hm => ?_⟩
  · cases ((code_untouched hc).1 _ m (.listed (List.mem_of_getLast? rfl))).mp hm
  · cases ((code_untouched hc).1 _ m (.left .add _)).mp hm

/-- An item of code is a character of its text. -/
theorem code_told_by_item :
    ¬∀ (source : String) (c e : Expr), (Session.start .empty).found c = .mock (.code source) →
      (Session.start .empty).Uses c e → ∃ r, (Session.start .empty).found e = .expr r := by
  intro hall
  have hitem : (Session.start .empty).found (.subscript (compiling "x") (.int 0)) =
      .mock (.value "str" (.str "x")) := rfl
  have huse : (Session.start .empty).Uses (compiling "x")
      (.subscript (compiling "x") (.int 0)) := .indexed (by simp [Expr.int])
  obtain ⟨r, hr⟩ := hall "x" (compiling "x") _ (found_compiling "x") huse
  cases hitem.symm.trans hr

end Session
end Unmask
