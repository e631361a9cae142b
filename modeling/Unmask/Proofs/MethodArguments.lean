import Mathlib.Logic.Basic
import Unmask.Proofs.MockResults
import Unmask.Proofs.TextOctets
import Unmask.Proofs.ValueEquality

/-!
# Arguments of methods

The language binds the arguments of a call to the parameters of the method and fails where they do
not fit. The known methods look at the arguments that they need and overlook the others, so that a
call gives a value where the language gives none, or another one. Here is what the language gives,
and which arguments must be as expected for the call to give the same.
-/
namespace Unmask
open Value

/-- The parameters of a method: at least and at most so many positional arguments, which stand for
the first parameters, and the names of the parameters that can be named. -/
structure Signature where
  least : Nat
  most : Nat
  names : List String
  deriving DecidableEq

/-- Arguments that can be bound to parameters. -/
structure Arguments.Fits (a : Arguments) (s : Signature) : Prop where
  least : s.least ≤ a.positional.length
  most : a.positional.length ≤ s.most
  names : ∀ n ∈ a.named, n.1 ∈ s.names.drop a.positional.length
  once : (a.named.map Prod.fst).Nodup

/-- The value that a mock is; compiled text is none. -/
def Mock.own? : Mock → Option Value
  | .value _ v => some v
  | _ => Option.none

namespace Arguments

/-- The value that a positional argument is. -/
def own? (a : Arguments) (i : Nat) : Option Value := a.positional[i]?.bind Mock.own?

/-- What a parameter is bound to. -/
def bound? (a : Arguments) (i : Nat) (name : String) : Option Mock :=
  a.positional[i]?.or (a.named.lookup name)

end Arguments

/-- The encodings that are known. -/
inductive Charset where
  | utf8 | ascii
  deriving DecidableEq

/-- The encoding with a name; letter case does not matter, nor whether a dash is a low line. -/
def Charset.ofName? (name : String) : Option Charset :=
  let key := name.toList.map fun c => if c == '_' then '-' else Text.asciiLower c
  if key = "utf-8".toList ∨ key = "utf8".toList then some .utf8
  else if key = "ascii".toList then some .ascii
  else none

namespace Method

def signature : Method → Signature
  | .join => ⟨1, 1, []⟩
  | .index => ⟨1, 3, []⟩
  | .getItem => ⟨1, 1, []⟩
  | .neg => ⟨0, 0, []⟩
  | .pos => ⟨0, 0, []⟩
  | .decode => ⟨0, 2, ["encoding", "errors"]⟩

/-- A position that may count from the end. -/
def fromEnd (length : Nat) (n : Int) : Int := if n < 0 then n + length else n

/-- The place that a limit of a search asks for. -/
inductive Limit (length absent : Nat) : Option Mock → Nat → Prop where
  | absent : Limit length absent none absent
  | given {m : Mock} {v : Value} {n : Int} (hv : m.own? = some v) (hn : v.asInt? = some n) :
    Limit length absent (some m) (fromEnd length n).toNat

/-- The encoding that an argument asks for. -/
inductive Asks : Option Mock → Charset → Prop where
  | absent : Asks none .utf8
  | given {m : Mock} {t : String} {charset : Charset} (ht : m.own? = some (.str t))
    (hcharset : Charset.ofName? t = some charset) : Asks (some m) charset

/-- The name of a way to handle errors. -/
def NamesPolicy (m : Mock) : Prop := ∃ t, m.own? = some (.str t) ∧ '\x00' ∉ t.toList

/-- What the language gives for arguments that can be bound. Of octets that are no text in the
encoding nothing is said. -/
inductive Answers (a : Arguments) : Method → Value → Value → Prop where
  | join {separator r : String} {parts : List String}
    (hparts : a.own? 0 = some (.list (parts.map Value.str)))
    (hr : r.toList = separator.toList.intercalate (parts.map String.toList)) :
    Answers a .join (.str separator) (.str r)
  | index {items : List Value} {needle r : Value} {start stop p : Nat}
    (hneedle : a.own? 0 = some needle)
    (hstart : Limit items.length 0 a.positional[1]? start)
    (hstop : Limit items.length items.length a.positional[2]? stop)
    (hfirst : FirstFrom (Equals · needle) items start p) (hp : p < stop) (hr : r = .int p) :
    Answers a .index (.list items) r
  | getItem {items : List Value} {position r : Value} {n : Int}
    (hposition : a.own? 0 = some position) (hn : position.asInt? = some n)
    (hplace : 0 ≤ fromEnd items.length n) (hr : items[(fromEnd items.length n).toNat]? = some r) :
    Answers a .getItem (.list items) r
  | neg {v : Value} {n : Int} (hn : v.asInt? = some n) : Answers a .neg v (.int (-n))
  | pos {v : Value} {n : Int} (hn : v.asInt? = some n) : Answers a .pos v (.int n)
  | decode {o : Bytes} {s : String} {charset : Charset}
    (hcharset : Asks (a.bound? 0 "encoding") charset)
    (hpolicy : ∀ m, a.bound? 1 "errors" = some m → NamesPolicy m)
    (hs : Text.Utf8.encode s = o) (hascii : charset = .ascii → ∀ x ∈ o, x < 0x80) :
    Answers a .decode (.bytes o) (.str s)

/-- What the language gives for a call. -/
def Gives (a : Arguments) (m : Method) (v r : Value) : Prop :=
  a.Fits m.signature ∧ Answers a m v r

section
variable {a : Arguments} {m : Method} {v r r' : Value} {length absent place place' : Nat}
  {argument : Option Mock}

lemma Limit.unique (h : Limit length absent argument place)
    (h' : Limit length absent argument place') : place = place' := by
  cases h with
  | absent =>
    cases h'
    rfl
  | given hv hn =>
    cases h' with
    | given hv' hn' =>
      cases hv.symm.trans hv'
      cases hn.symm.trans hn'
      rfl

/-- The language gives at most one value for a call. -/
theorem Answers.unique (h : Answers a m v r) (h' : Answers a m v r') : r = r' := by
  cases h with
  | join hparts hr =>
    cases h' with
    | join hparts' hr' =>
      have hlists := Value.list.inj (Option.some.inj (hparts.symm.trans hparts'))
      cases (List.map_inj_right fun _ _ => Value.str.inj).mp hlists
      rw [String.toList_inj.mp (hr.trans hr'.symm)]
  | index hneedle hstart hstop hfirst hp hr =>
    cases h' with
    | index hneedle' hstart' hstop' hfirst' hp' hr' =>
      cases hneedle.symm.trans hneedle'
      cases hstart.unique hstart'
      rw [hr, hr', hfirst.unique hfirst']
  | getItem hposition hn hplace hr =>
    cases h' with
    | getItem hposition' hn' hplace' hr' =>
      cases hposition.symm.trans hposition'
      cases hn.symm.trans hn'
      exact Option.some.inj (hr.symm.trans hr')
  | neg hn =>
    cases h' with
    | neg hn' => rw [Option.some.inj (hn.symm.trans hn')]
  | pos hn =>
    cases h' with
    | pos hn' => rw [Option.some.inj (hn.symm.trans hn')]
  | decode _ _ hs _ =>
    cases h' with
    | decode _ _ hs' _ =>
      have hread := Text.Utf8.decode_eq_ok_iff.mpr hs
      rw [Except.ok.inj (hread.symm.trans (Text.Utf8.decode_eq_ok_iff.mpr hs'))]

end

/-- The arguments that a call overlooks do not matter to its result. -/
inductive Heeded (a : Arguments) : Method → Value → Value → Prop where
  | plain {m : Method} {v r : Value} (hm : m ∉ [.index, .decode]) : Heeded a m v r
  | index {items : List Value} {needle r : Value} {start stop p : Nat}
    (hneedle : a.own? 0 = some needle)
    (hstart : Limit items.length 0 a.positional[1]? start)
    (hstop : Limit items.length items.length a.positional[2]? stop)
    (hwithin : start ≤ p ∧ p < stop)
    (hbefore : ∀ (q : Nat) (v : Value), start ≤ q → q < p → items[q]? = some v →
      ¬Equals v needle) (hr : r = .int p) :
    Heeded a .index (.list items) r
  | decode {o : Bytes} {r : Value}
    (hencoding : ∀ m, a.bound? 0 "encoding" = some m → ∃ t, m.own? = some (.str t) ∧
      (Charset.ofName? t = some .ascii → ∀ x ∈ o, x < 0x80))
    (hpolicy : ∀ m, a.bound? 1 "errors" = some m → NamesPolicy m) :
    Heeded a .decode (.bytes o) r

variable {a : Arguments} {m : Method} {v r : Value} {name : String} {items : List Value}

lemma firstValue?_of_own? (h : a.own? 0 = some v) : a.firstValue? = some v := by
  obtain ⟨m, hm, hv⟩ := Option.bind_eq_some_iff.mp h
  rw [Arguments.firstValue?, List.head?_eq_getElem?, hm]
  cases m with
  | value => exact hv
  | _ => cases hv

/-- The value of the first argument is the argument itself, unless it is a text. -/
lemma own?_of_firstValue? (h : a.firstValue? = some v) (hv : v.kind ≠ .str) :
    a.own? 0 = some v := by
  rw [Arguments.firstValue?, List.head?_eq_getElem?] at h
  obtain ⟨m, hm, hvalue⟩ := Option.bind_eq_some_iff.mp h
  rw [Arguments.own?, hm]
  cases m with
  | value => exact hvalue
  | code =>
    cases hvalue
    exact absurd rfl hv
  | _ => cases hvalue

lemma texts_eq {parts : List String} (h : items.mapM Value.asText? = some parts) :
    items = parts.map Value.str := by
  induction items generalizing parts with
  | nil =>
    cases h
    rfl
  | cons v items ih =>
    rw [List.mapM_cons] at h
    obtain ⟨t, ht, h⟩ := Option.bind_eq_some_iff.mp h
    obtain ⟨rest, hrest, h⟩ := Option.bind_eq_some_iff.mp h
    cases h
    cases v with
    | str s =>
      cases ht
      rw [ih hrest, List.map_cons]
    | _ => cases ht

lemma callJoin_answers {separator : String} (h : callJoin name separator a = .ok r) :
    Answers a .join (.str separator) r := by
  unfold callJoin at h
  split at h
  · next items hfirst =>
    split at h
    · next parts hparts =>
      cases h
      obtain rfl := texts_eq hparts
      exact .join (own?_of_firstValue? hfirst nofun) String.toList_intercalate
    · contradiction
  · contradiction

lemma place?_eq (n : Int) (length : Nat) : place? n length =
    if 0 ≤ fromEnd length n ∧ fromEnd length n < length then some (fromEnd length n).toNat
    else Option.none :=
  if_congr (by simp [fromEnd]) rfl rfl

lemma place_of_element? {n : Int} (h : element? items n = some r) :
    0 ≤ fromEnd items.length n ∧ items[(fromEnd items.length n).toNat]? = some r := by
  obtain ⟨p, hp, hr⟩ := Option.bind_eq_some_iff.mp h
  rw [place?_eq] at hp
  split at hp
  · next hplace =>
    cases hp
    exact ⟨hplace.1, hr⟩
  · contradiction

lemma callGetItem_answers (h : callGetItem name (.list items) a = .ok r) :
    Answers a .getItem (.list items) r := by
  unfold callGetItem at h
  split at h
  · contradiction
  · next position hfirst =>
    have hindex := Mock.ok_of_mapError h
    unfold Value.index at hindex
    split at hindex
    · contradiction
    · next n hn =>
      dsimp only at hindex
      split at hindex
      · next w hw =>
        cases hindex
        obtain ⟨hplace, hr⟩ := place_of_element? hw
        refine .getItem (own?_of_firstValue? hfirst fun hkind => ?_) hn hplace hr
        cases position with
        | str => cases hn
        | _ => cases hkind
      · contradiction

/-- The operators on numbers fail on what is no number. -/
lemma exists_number {op : UnaryOp} (hv : v.FloatFree) (h : v.unary op = .ok r) (hop : op ≠ .not) :
    ∃ n, v.asInt? = some n ∧ v.number? = some (.int n) := by
  rw [hv.number?_eq]
  cases hn : v.asInt? with
  | none =>
    have hnumber : v.number? = Option.none := by rw [hv.number?_eq, hn, Option.map_none]
    unfold unary at h
    rw [hnumber] at h
    cases op <;> contradiction
  | some n => exact ⟨n, rfl, rfl⟩

lemma neg_answers (hv : v.FloatFree) (h : v.unary .minus = .ok r) : Answers a .neg v r := by
  obtain ⟨n, hn, hnumber⟩ := exists_number hv h nofun
  unfold unary at h
  rw [hnumber] at h
  cases h
  exact .neg hn

lemma pos_answers (hv : v.FloatFree) (h : v.unary .plus = .ok r) : Answers a .pos v r := by
  obtain ⟨n, hn, hnumber⟩ := exists_number hv h nofun
  unfold unary at h
  rw [hnumber] at h
  cases h
  exact .pos hn

/-- The search finds the needle itself; it is what the language finds if it lies between the bounds
and there is no equal element before it. -/
lemma callIndex_iff (hitems : (list items).FloatFree) (h : callIndex name items a = .ok r) :
    Answers a .index (.list items) r ↔ Heeded a .index (.list items) r := by
  unfold callIndex at h
  split at h
  · contradiction
  · next needle hfirst =>
    split at h
    · next k hk =>
      cases h
      obtain ⟨-, ⟨w, hw, heq⟩, -⟩ := (findIdx?_same_iff hitems needle k).mp hk
      have hequals : Equals w needle := heq ▸ (hitems.of_mem (List.mem_of_getElem? hw)).refl
      constructor
      · intro h
        cases h with
        | index hneedle hstart hstop hfound hp hr =>
          exact .index hneedle hstart hstop ⟨hfound.1, hp⟩ hfound.2.2 hr
      · intro h
        cases h with
        | plain hm => simp at hm
        | index hneedle hstart hstop hwithin hbefore hr =>
          cases hfirst.symm.trans (firstValue?_of_own? hneedle)
          obtain rfl := Int.natCast_inj.mp (Value.int.inj hr)
          exact .index hneedle hstart hstop ⟨hwithin.1, ⟨w, hw, hequals⟩, hbefore⟩ hwithin.2 rfl
    · contradiction

/-- A name of an encoding that the call does not refuse is known. -/
lemma exists_charset {n : Mock} {t : String} (hn : a.bound? 0 "encoding" = some n)
    (ht : n.own? = some (.str t))
    (h : (["utf-8", "utf8", "ascii"].map String.toList).contains (encoding a) = true) :
    ∃ charset, Charset.ofName? t = some charset := by
  have htext : n.text? = some t := by
    cases n with
    | value =>
      cases ht
      rfl
    | _ => cases ht
  rw [Arguments.bound?, ← List.head?_eq_getElem?] at hn
  simp only [encoding, hn, htext, Option.bind_some, Option.getD_some] at h
  simp only [List.map_cons, List.map_nil, List.contains_iff_mem, List.mem_cons, List.not_mem_nil,
    or_false] at h
  unfold Charset.ofName?
  dsimp only
  split
  · exact ⟨_, rfl⟩
  · next hother =>
    rw [if_pos ((or_assoc.mpr h).resolve_left hother)]
    exact ⟨_, rfl⟩

/-- Octets are read as the text that they encode, whatever encoding is asked for. -/
lemma callDecode_iff {o : Bytes} (h : callDecode name o a = .ok r) :
    Answers a .decode (.bytes o) r ↔ Heeded a .decode (.bytes o) r := by
  unfold callDecode at h
  split at h
  · contradiction
  · next hencoding =>
    rw [Bool.not_eq_true', Bool.not_eq_false] at hencoding
    split at h
    · next s hs =>
      cases h
      have hoctets := Text.Utf8.decode_eq_ok_iff.mp hs
      constructor
      · intro h
        cases h with
        | decode hcharset hpolicy hs hascii =>
          refine .decode (fun n hn => ?_) hpolicy
          rw [hn] at hcharset
          cases hcharset with
          | given ht hcharset =>
            exact ⟨_, ht, fun h => hascii (Option.some.inj (hcharset.symm.trans h))⟩
      · intro h
        cases h with
        | plain hm => simp at hm
        | decode hasked hpolicy =>
          cases hn : a.bound? 0 "encoding" with
          | none =>
            have hcharset : Asks (a.bound? 0 "encoding") .utf8 := hn ▸ .absent
            exact .decode hcharset hpolicy hoctets nofun
          | some n =>
            obtain ⟨t, ht, hascii⟩ := hasked n hn
            obtain ⟨charset, hcharset⟩ := exists_charset hn ht hencoding
            have hasks : Asks (a.bound? 0 "encoding") charset := hn ▸ .given ht hcharset
            exact .decode hasks hpolicy hoctets fun h => hascii (h ▸ hcharset)
    · contradiction

/-- A method that a value has is looked up by its name. -/
lemma method_of_getAttr {shown : String} {f : Mock}
    (h : (Mock.value shown v).getAttr m.name = .ok f) : f = .method v m ∧ m ∈ ofKind v.kind := by
  have hname : ∀ n : Method, (n.name == m.name) = true → n = m := by
    cases m <;> intro n <;> cases n <;> decide
  unfold Mock.getAttr Mock.methodOf? at h
  dsimp only at h
  split at h
  · next member hfound =>
    cases h
    obtain ⟨n, hn, rfl⟩ := Option.map_eq_some_iff.mp hfound
    obtain rfl := hname n (List.find?_some (p := fun k : Method => k.name == m.name) hn)
    exact ⟨rfl, List.mem_of_find?_eq_some hn⟩
  · contradiction

lemma eq_of_ofValue {f : Mock} (h : Mock.ofValue v = .ok f) : f = .value v.kind.name v := by
  cases v with
  | none => contradiction
  | _ =>
    cases h
    rfl

/-- What a method of a value gives is what the language gives if the arguments that it overlooks do
not matter. -/
lemma call_iff {f : Mock} (hv : v.FloatFree) (hm : m ∈ ofKind v.kind) (h : m.call v a = .ok f) :
    ∃ r, f = .value r.kind.name r ∧ (Answers a m v r ↔ Heeded a m v r) := by
  have result {x : Except MockError Value} (hx : ∀ r, x = .ok r →
      (Answers a m v r ↔ Heeded a m v r)) (h : (x >>= Mock.ofValue) = .ok f) :
      ∃ r, f = .value r.kind.name r ∧ (Answers a m v r ↔ Heeded a m v r) := by
    cases x with
    | error => contradiction
    | ok r => exact ⟨r, eq_of_ofValue h, hx r rfl⟩
  unfold call at h
  dsimp only at h
  split at h
  · exact result (fun _ hr => iff_of_true (callJoin_answers hr) (.plain (by decide))) h
  · exact result (fun _ hr => callIndex_iff hv hr) h
  · cases v with
    | list =>
      exact result (fun _ hr => iff_of_true (callGetItem_answers hr) (.plain (by decide))) h
    | _ => simp [ofKind, kind] at hm
  · exact result (fun _ hr => iff_of_true (neg_answers hv (Mock.ok_of_mapError hr))
      (.plain (by decide))) h
  · exact result (fun _ hr => iff_of_true (pos_answers hv (Mock.ok_of_mapError hr))
      (.plain (by decide))) h
  · exact result (fun _ hr => callDecode_iff hr) h
  · contradiction

/-- A call of a method of a value without floats is an error or gives a value. It is the value that
the language gives just when the arguments can be bound to the parameters and those that the call
overlooks do not matter. -/
theorem call_exact {shown : String} {f : Mock} (hv : v.FloatFree)
    (hf : (Mock.value shown v).getAttr m.name = .ok f) (a : Arguments) :
    (∃ e, f.call a = .error e) ∨
    ∃ r, f.call a = .ok (some (.value r.kind.name r)) ∧
      (Gives a m v r ↔ a.Fits m.signature ∧ Heeded a m v r) := by
  obtain ⟨rfl, hm⟩ := method_of_getAttr hf
  cases h : m.call v a with
  | error e => exact .inl ⟨e, by rw [Mock.call, h, Except.map]⟩
  | ok f =>
    obtain ⟨r, rfl, hiff⟩ := call_iff hv hm h
    exact .inr ⟨r, by rw [Mock.call, h, Except.map], and_congr_right fun _ => hiff⟩

/-- A list with an element that it has twice. -/
def oneTwoOne : Value := .list [.int 1, .int 2, .int 1]

def shownInt (n : Int) : Mock := .value Kind.int.name (.int n)

theorem call_exact_from_start : oneTwoOne.FloatFree ∧
    (Mock.value "list" oneTwoOne).getAttr index.name = .ok (.method oneTwoOne .index) ∧
    (Mock.method oneTwoOne .index).call ⟨[shownInt 2, shownInt 1], []⟩ = .ok (some (shownInt 1)) ∧
    Gives ⟨[shownInt 2, shownInt 1], []⟩ .index oneTwoOne (.int 1) := by
  have hfree : oneTwoOne.FloatFree := .ints [1, 2, 1]
  have hcall : (Mock.method oneTwoOne .index).call ⟨[shownInt 2, shownInt 1], []⟩ =
      .ok (some (shownInt 1)) := rfl
  have hmember : (Mock.value "list" oneTwoOne).getAttr index.name =
      .ok (.method oneTwoOne .index) := rfl
  refine ⟨hfree, hmember, hcall, ?_⟩
  obtain ⟨e, he⟩ | ⟨r, hr, hgives⟩ := call_exact hfree hmember ⟨[shownInt 2, shownInt 1], []⟩
  · cases hcall.symm.trans he
  · obtain ⟨-, rfl⟩ := Mock.value.inj (Option.some.inj (Except.ok.inj (hcall.symm.trans hr)))
    refine hgives.mpr ⟨⟨by decide, by decide, nofun, .nil⟩, ?_⟩
    refine .index rfl (.given rfl rfl) .absent ⟨Nat.le_refl 1, by decide⟩ (fun q v hq hq' => ?_) rfl
    exact absurd hq (Nat.not_le.mpr hq')

/-- A search that should start at the second place finds the first one, and octets that are no ASCII
are decoded as if they were. -/
theorem overlooked_arguments :
    (Mock.method oneTwoOne .index).call ⟨[shownInt 1, shownInt 1], []⟩ = .ok (some (shownInt 0)) ∧
    Gives ⟨[shownInt 1, shownInt 1], []⟩ .index oneTwoOne (.int 2) ∧
    ¬Gives ⟨[shownInt 1, shownInt 1], []⟩ .index oneTwoOne (.int 0) ∧
    (Mock.method (.bytes [0xC3, 0xA9]) .decode).call ⟨[.value "str" (.str "ascii")], []⟩ =
      .ok (some (.value "str" (.str "é"))) ∧
    ∀ r, ¬Gives ⟨[.value "str" (.str "ascii")], []⟩ .decode (.bytes [0xC3, 0xA9]) r := by
  have htwo : Gives ⟨[shownInt 1, shownInt 1], []⟩ .index oneTwoOne (.int 2) := by
    have hfirst : FirstFrom (Equals · (.int 1)) [.int 1, .int 2, .int 1] 1 2 := by
      refine ⟨by decide, ⟨.int 1, rfl, .number rfl rfl⟩, fun q v hq hq' hv hequals => ?_⟩
      obtain rfl : q = 1 := by omega
      cases hv
      cases hequals with
      | number h h' =>
        cases h
        cases h'
    exact ⟨⟨by decide, by decide, nofun, .nil⟩,
      .index rfl (.given rfl rfl) .absent hfirst (by decide) rfl⟩
  have hzero : ¬Gives ⟨[shownInt 1, shownInt 1], []⟩ .index oneTwoOne (.int 0) := fun h =>
    nomatch h.2.unique htwo.2
  refine ⟨rfl, htwo, hzero, rfl, ?_⟩
  rintro r ⟨-, h⟩
  cases h with
  | decode hcharset hpolicy hs hascii =>
    cases hcharset with
    | given ht hcharset =>
      cases ht
      have hknown : Charset.ofName? "ascii" = some .ascii := by decide
      exact absurd (hascii (Option.some.inj (hcharset.symm.trans hknown)) 0xC3 (by simp))
        (by decide)

end Method
end Unmask
