import Unmask.Disguise.BlankObf.Layers
import Unmask.Proofs.BoundFolds
import Unmask.Proofs.ExactArithmetic
import Unmask.Proofs.Peeling
import Unmask.Proofs.RadixWriting

/-!
# Layers as they are built

A program is hidden under a layer in one of three ways: as base 64 in four parts, as octets that are
compiled, and compressed under a mask that a loop looks for. Whatever the program, the parts and the
names are, folding the layer leaves what the program is read from, and peeling gives it back.
-/
namespace Unmask.BlankObf
open Disguise

/-- The names that the layers call; they stand for nothing else. -/
def reserved : List String := ["exec", "compile", "base64", "zlib", "bytes", "map", "range"]

/-- Names for the variables of a layer: distinct, and none that the layers call. -/
structure Fresh (names : List String) : Prop where
  nodup : names.Nodup
  unreserved : ∀ id ∈ names, id ∉ reserved

/-- `id = value` -/
def assign (id : String) (value : Expr) : Stmt := .assign [.name id] value

/-- `id(arg)` -/
def called (id : String) (arg : Expr) : Expr := .apply (.name id) [arg]

/-- `module.function(arg)` -/
def dotted (module function : String) (arg : Expr) : Expr :=
  .apply (.attribute (.name module) function) [arg]

/-- Four assignments of the texts, and `exec(base64.b64decode(a + b + c + d))`. -/
def base64Layer (a b c d : String) (first second third fourth : String) : Module :=
  [assign a (.str first), assign b (.str second), assign c (.str third), assign d (.str fourth),
    .expr (called "exec" (dotted "base64" "b64decode"
      (.binary (.binary (.binary (.name a) .add (.name b)) .add (.name c)) .add (.name d))))]

/-- `source = octets`, `mode = 'exec'`, `exec(compile(source, '<string>', mode))`. -/
def compileLayer (source mode : String) (octets : Bytes) : Module :=
  [assign source (.bytes octets), assign mode (.str "exec"),
    .expr (called "exec"
      (.apply (.name "compile") [.name source, .str "<string>", .name mode]))]

/-- `exec(zlib.decompress(bytes(map(lambda octet: octet ^ counter, payload))))` -/
def unmasking (counter octet : String) (payload : Expr) : Expr :=
  called "exec" (dotted "zlib" "decompress" (called "bytes" (.apply (.name "map")
    [.lambda octet (.binary (.name octet) .bitXor (.name counter)), payload])))

/-- `key = [o, …]`, `for counter in range(256):` with
`if left ^ counter == right: exec(…); break` in it. -/
def xorLayer (key counter octet : String) (left right : Expr) (payload : Bytes) : Module :=
  [assign key (.list (payload.map fun o => .int o.toNat)),
    .forLoop (.name counter) (called "range" (.int 256))
      [.ite (.compare (.binary left .bitXor (.name counter)) [.eq] [right])
        [.expr (unmasking counter octet (.name key)), .breakLoop] []]
      [] false]

/-- An integer as it is written: digits, with a sign in front of them if it is below zero. The
tree may also hold it as one literal. -/
inductive Written : Int → Expr → Prop
  | literal (n : Int) : Written n (.int n)
  | negated (n : Int) : Written (-n) (.unary .minus (.int n))

/-- The only kind of layer that a program is taken for. -/
def TakenFor (name : String) (m : Module) : Prop :=
  (pile.layers.filter fun layer => layer.isOn m).map Layer.name = [name]

variable {s : String} {program : Module} {octets : Bytes} {bindings : Bindings}

lemma Fresh.ne_reserved {names : List String} {id word : String} (h : Fresh names)
    (hid : id ∈ names) (hword : word ∈ reserved) : word ≠ id := by
  rintro rfl
  exact h.unreserved _ hid hword

/-- No word is bound that the layers call. -/
def Spared (bindings : Bindings) : Prop := ∀ word ∈ reserved, bindings.lookup word = none

lemma spared_nil : Spared [] := fun _ _ => rfl

lemma Spared.bound {names : List String} {id : String} (hnames : Fresh names) (hid : id ∈ names)
    (h : Spared bindings) (v : Value) : Spared ((id, v) :: bindings) := by
  intro word hword
  rw [Named.lookup_entry, if_neg (hnames.ne_reserved hid hword)]
  exact h word hword

lemma becomes_exec {arg r : Expr} (h : Spared bindings) (harg : Becomes bindings arg r) :
    Becomes bindings (called "exec" arg) (called "exec" r) :=
  .called (h "exec" (by decide)) (by decide) harg

/-- The next layer is read from the octets of its text. -/
lemma nextLayer_encode (hs : Module.parse s = .ok program) :
    nextLayer (some (Text.Utf8.encode s)) = .ok (some program) := by
  rw [nextLayer, readOctets_encode hs]
  rfl

lemma reduced_add {a b : String} (h : (a ++ b).utf8ByteSize ≤ maxLength) :
    reduced (.binary (.str a) .add (.str b)) = .str (a ++ b) := by
  rw [String.utf8ByteSize_append] at h
  have hsum : Value.joined? (.str a) (.str b) = some (.ok (.str (a ++ b))) := by
    rw [Value.joined?, Value.sized, if_neg (Nat.not_lt.mpr h)]
  have hreduce : reduce? (.binary (.str a) .add (.str b)) = some (.str (a ++ b)) := by
    rw [reduce?_binary]
    simp [Value.ofExpr?, Value.ofConstant?, Expr.str, Value.binary, hsum, Except.toOption,
      Value.toExpr]
  rw [reduced, hreduce]
  rfl

/-- A call of the decoder on the base 64 of octets becomes the octets. -/
lemma reduced_decode (octets : Bytes) :
    reduced (dotted "base64" "b64decode" (.str (Radix.text64 octets))) = .bytes octets := by
  have hascii := Radix.ascii_encode64 octets
  have hall : (Radix.text64 octets).toList.all (fun c => c.toNat < 0x80) = true := by
    simpa [Radix.text64] using Text.Utf8.ascii_ofAscii hascii
  have hdata : encoded? (.str (Radix.text64 octets)) =
      some (Radix.writing64.encode octets) := by
    rw [encoded?, if_pos hall, Radix.text64, Text.Utf8.encode_ofAscii hascii]
  have hcall : decodeCall? "base64" "b64decode" (.str (Radix.text64 octets)) =
      some (.bytes octets) := by
    simp [decodeCall?, decoders, Value.ofExpr?, Value.ofConstant?, Expr.str, hdata,
      Radix.decodeBase64_encode, Except.toOption]
  have hreduce : reduce? (dotted "base64" "b64decode" (.str (Radix.text64 octets))) =
      some (.bytes octets) := hcall
  rw [reduced, hreduce]
  rfl

lemma foldConstants_base64Layer {a b c d first second third fourth : String}
    (hnames : Fresh [a, b, c, d])
    (hcut : first ++ second ++ third ++ fourth = Radix.text64 octets)
    (hlength : (Radix.text64 octets).utf8ByteSize ≤ maxLength) :
    foldConstants (base64Layer a b c d first second third fourth) =
      [.expr (called "exec" (.bytes octets))] := by
  have hspared : Spared [(d, .str fourth), (c, .str third), (b, .str second), (a, .str first)] :=
    (((spared_nil.bound hnames (by simp) _).bound hnames (by simp) _).bound hnames (by simp)
      _).bound hnames (by simp) _
  have hnodup := hnames.nodup
  simp only [List.nodup_cons, List.mem_cons, List.not_mem_nil, or_false, not_or] at hnodup
  obtain ⟨⟨hab, hac, had⟩, ⟨hbc, hbd⟩, hcd, -⟩ := hnodup
  rw [← hcut] at hlength
  have hsize {x y : String} (h : (x ++ y).utf8ByteSize ≤ maxLength) :
      x.utf8ByteSize ≤ maxLength := by
    rw [String.utf8ByteSize_append] at h
    omega
  have hthree := hsize hlength
  have htwo := hsize hthree
  refine foldConstants_of_turns (.assign (v := .str first) (.constant _)
    (.assign (v := .str second) (.constant _) (.assign (v := .str third) (.constant _)
    (.assign (v := .str fourth) (.constant _) (.expr (becomes_exec hspared ?_) .nil)))))
  rw [← reduced_decode, ← hcut, ← reduced_add hlength, ← reduced_add hthree, ← reduced_add htwo]
  refine .dotted (hspared _ (by decide)) (.binary (.binary (.binary ?_ ?_ _) ?_ _) ?_ _)
  · exact .bound (v := .str first) (by simp [Named.lookup_entry, hab, hac, had])
  · exact .bound (v := .str second) (by simp [Named.lookup_entry, hbc, hbd])
  · exact .bound (v := .str third) (by simp [Named.lookup_entry, hcd])
  · exact .bound (v := .str fourth) (by simp)

lemma foldConstants_compileLayer {source mode : String} (hnames : Fresh [source, mode])
    (octets : Bytes) :
    foldConstants (compileLayer source mode octets) =
      [.expr (called "exec"
        (.apply (.name "compile") [.bytes octets, .str "<string>", .str "exec"]))] := by
  have hspared : Spared [(mode, .str "exec"), (source, .bytes octets)] :=
    (spared_nil.bound hnames (by simp) _).bound hnames (by simp) _
  have hdistinct : source ≠ mode := by simpa using hnames.nodup
  refine foldConstants_of_turns (.assign (v := .bytes octets) (.constant _)
    (.assign (v := .str "exec") (.constant _) (.expr (becomes_exec hspared ?_) .nil)))
  refine .apply (.free (hspared _ (by decide))) (.cons ?_ (.cons (.constant _) (.cons ?_ .nil)))
    (by simp)
  · exact .bound (v := .bytes octets) (by simp [Named.lookup_entry, hdistinct])
  · exact .bound (v := .str "exec") (by simp)

lemma becomes_written {n : Int} {e : Expr} (h : Written n e) : Becomes bindings e (.int n) := by
  cases h with
  | literal => exact .constant _
  | negated n => exact (Becomes.constant _).unary .minus

/-- A list of octets is a literal. -/
lemma toExpr_octets (payload : Bytes) :
    (Value.list (payload.map fun o => .int o.toNat)).toExpr =
      .list (payload.map fun o => .int o.toNat) := by
  simpa [Function.comp_def] using toExpr_ints (payload.map fun o => (o.toNat : Int))

lemma becomes_octets (payload : Bytes) :
    Becomes bindings (.list (payload.map fun o => .int o.toNat))
      (Value.list (payload.map fun o => .int o.toNat)).toExpr := by
  rw [toExpr_octets]
  refine .list (List.forall₂_same.mpr fun e he => ?_)
  obtain ⟨o, -, rfl⟩ := List.mem_map.mp he
  exact .constant _

lemma octet?_toNat (o : UInt8) : octet? o.toNat = some o := by
  have ho := o.toNat_lt
  rw [octet?, if_pos (by simp; omega), Int.toNat_natCast, UInt8.ofNat_toNat]

lemma octets?_payload (payload : Bytes) :
    octets? (.list (payload.map fun o => .int o.toNat)) = some payload := by
  induction payload with
  | nil => rfl
  | cons o rest ih =>
    have hfirst : (Value.int o.toNat).asInt?.bind octet? = some o := by
      rw [Value.asInt?, Option.bind_some, octet?_toNat]
    rw [octets?] at ih ⊢
    rw [List.map_cons, List.mapM_cons, hfirst, ih]
    rfl

/-- What the loop becomes: the constants are folded, and the payload takes the place of its name. -/
lemma foldConstants_xorLayer {key counter octet : String} (hnames : Fresh [key, counter, octet])
    {l r : Int} {left right : Expr} (hleft : Written l left) (hright : Written r right)
    (payload : Bytes) :
    foldConstants (xorLayer key counter octet left right payload) =
      [.forLoop (.name counter) (called "range" (.int 256))
        [.ite (.compare (.binary (.int l) .bitXor (.name counter)) [.eq] [.int r])
          [.expr (unmasking counter octet (.list (payload.map fun o => .int o.toNat))),
            .breakLoop] []]
        [] false] := by
  have hspared : Spared [(key, .list (payload.map fun o => .int o.toNat))] :=
    spared_nil.bound hnames (by simp) _
  have hnodup := hnames.nodup
  simp only [List.nodup_cons, List.mem_cons, List.not_mem_nil, or_false, not_or] at hnodup
  obtain ⟨⟨hcounter, hoctet⟩, -⟩ := hnodup
  have hfree {id : String} (hid : ¬key = id) : Becomes
      [(key, .list (payload.map fun o => .int o.toNat))] (.name id) (.name id) :=
    .free (by simp [Named.lookup_entry, Ne.symm hid])
  have hkey : Becomes [(key, .list (payload.map fun o => .int o.toNat))] (.name key)
      (.list (payload.map fun o => .int o.toNat)) :=
    toExpr_octets payload ▸ .bound (by simp)
  refine foldConstants_of_turns (.assign (becomes_octets payload)
    (.forLoop (.called (hspared _ (by decide)) (by decide) (.constant _))
      (.ite (.compare (.binary (becomes_written hleft) (hfree hcounter) _)
          (becomes_written hright) _)
        (.expr (becomes_exec hspared (.dotted (hspared _ (by decide))
          (.called (hspared _ (by decide)) (by decide)
            (.apply (.free (hspared _ (by decide)))
              (.cons (.lambda (.binary (hfree hoctet) (hfree hcounter) _) _) (.cons hkey .nil))
              (by simp)))))
          (.breakLoop .nil))
        .nil)
      .nil))

lemma xorLoop_of_layer {key counter octet : String} (hnames : Fresh [key, counter, octet])
    {l r : Int} {left right : Expr} (hleft : Written l left) (hright : Written r right)
    (payload : Bytes) :
    XorLoop.of? (foldConstants (xorLayer key counter octet left right payload)) =
      some ⟨l, r, payload⟩ := by
  rw [foldConstants_xorLayer hnames hleft hright]
  have hpayload : Value.ofExpr? (.list (payload.map fun o => .int o.toNat)) =
      some (.list (payload.map fun o => .int o.toNat)) := by
    rw [← toExpr_octets, Value.ofExpr?_toExpr]
  have hmasked : maskedPayload?
      (unmasking counter octet (.list (payload.map fun o => .int o.toNat))) = some payload := by
    simp [maskedPayload?, unmasking, called, dotted, Expr.apply, Expr.soleArgument?,
      Expr.dottedArgument?, hpayload, octets?_payload]
  have hint (n : Int) : int? (.int n) = some n := rfl
  simp only [XorLoop.of?, hint, hmasked]
  rfl

/-- The row of bits of the mask is where the two numbers differ, so the mask is what is computed. -/
lemma mask_eq {l r p : Int} (h : Arithmetic.Makes .bitXor l r p) : Integer.bitXor l r = p :=
  have hmade : Arithmetic.Makes .bitXor l r (Integer.bitXor l r) := Integer.digit_bitXor l r
  hmade.unique h

/-- A masked payload is the payload again under the same mask. -/
lemma masked_twice (payload : Bytes) (pad : UInt8) :
    (payload.map (· ^^^ pad)).map (· ^^^ pad) = payload := by
  have hback (o : UInt8) : o ^^^ pad ^^^ pad = o := by
    rw [UInt8.xor_assoc, UInt8.xor_self, UInt8.xor_zero]
  rw [List.map_map]
  exact (List.map_congr_left fun o _ => hback o).trans (List.map_id payload)

lemma run_masked {l r : Int} {pad : UInt8} {z : Bytes} (hs : Module.parse s = .ok program)
    (hmask : Arithmetic.Makes .bitXor l r pad.toNat)
    (hz : Zlib.decompress z = .ok (Text.Utf8.encode s)) :
    XorLoop.run ⟨l, r, z.map (· ^^^ pad)⟩ = .ok program := by
  have hpad : XorLoop.pad? ⟨l, r, z.map (· ^^^ pad)⟩ = some pad := by
    rw [XorLoop.pad?, mask_eq hmask, octet?_toNat]
  have hmasked : XorLoop.masked ⟨l, r, z.map (· ^^^ pad)⟩ pad = z := masked_twice z pad
  simp only [XorLoop.run, hpad, hmasked, hz]
  exact readOctets_encode hs

/-- Whatever program is hidden, each of the three layers is taken for what it is and for nothing
else, and peeling it gives the program: the one in base 64 for every cut of the text into four
parts, the one under a mask for all numbers whose exclusive or is the mask. -/
theorem peel_built (hs : Module.parse s = .ok program) :
    (∀ a b c d first second third fourth, Fresh [a, b, c, d] →
      first ++ second ++ third ++ fourth = Radix.text64 (Text.Utf8.encode s) →
      (Radix.text64 (Text.Utf8.encode s)).utf8ByteSize ≤ maxLength →
      TakenFor "base64" (base64Layer a b c d first second third fourth) ∧
        peelBase64 (base64Layer a b c d first second third fourth) = .ok (some program)) ∧
    (∀ source mode, Fresh [source, mode] →
      TakenFor "compile" (compileLayer source mode (Text.Utf8.encode s)) ∧
        peelCompile (compileLayer source mode (Text.Utf8.encode s)) = .ok (some program)) ∧
    (∀ key counter octet l r left right (pad : UInt8) z, Fresh [key, counter, octet] →
      Written l left → Written r right → Arithmetic.Makes .bitXor l r pad.toNat →
      Zlib.decompress z = .ok (Text.Utf8.encode s) →
      TakenFor "xor" (xorLayer key counter octet left right (z.map (· ^^^ pad))) ∧
        peelXor (xorLayer key counter octet left right (z.map (· ^^^ pad))) =
          .ok (some program)) := by
  refine ⟨fun a b c d first second third fourth hnames hcut hlength => ⟨rfl, ?_⟩,
    fun source mode hnames => ⟨rfl, ?_⟩,
    fun key counter octet l r left right pad z hnames hleft hright hmask hz => ⟨rfl, ?_⟩⟩
  · rw [peelBase64, foldConstants_base64Layer hnames hcut hlength]
    exact nextLayer_encode hs
  · rw [peelCompile, foldConstants_compileLayer hnames]
    exact nextLayer_encode hs
  · rw [peelXor, xorLoop_of_layer hnames hleft hright]
    dsimp only
    rw [run_masked hs hmask hz]
    rfl

/-- The program `f()` under each layer; the mask is looked for between negative numbers. -/
theorem peel_built_call :
    let program : Module := [.expr (.apply (.name "f") [])]
    peelBase64 (base64Layer "a" "b" "c" "d" "Z" "i" "" "gp") = .ok (some program) ∧
    peelCompile (compileLayer "a" "b" (Text.Utf8.encode "f()")) = .ok (some program) ∧
    peelXor (xorLayer "a" "b" "c" (.unary .minus (.int 1)) (.unary .minus (.int 91))
      [34, 91, 91, 89, 90, 166, 165, 60, 114, 115, 91, 244, 90, 226]) = .ok (some program) := by
  intro program
  have hs : Module.parse "f()" = .ok program := rfl
  obtain ⟨hbase64, hcompile, hxor⟩ := peel_built hs
  have hdecompress : Zlib.decompress? [120, 1, 1, 3, 0, 252, 255, 102, 40, 41, 1, 174, 0, 184] =
      some (Text.Utf8.encode "f()") := by decide +kernel
  have hz := congrArg DecodeError.zlib.unlessSome hdecompress
  have hvalue : ((90 : UInt8).toNat : Int) = Integer.bitXor (-1) (-91) := by decide
  have hmask : Arithmetic.Makes .bitXor (-1) (-91) (90 : UInt8).toNat := by
    rw [hvalue]
    exact Integer.digit_bitXor (-1) (-91)
  refine ⟨(hbase64 "a" "b" "c" "d" _ _ _ _ ⟨by decide, by decide⟩ (by decide +kernel)
      (by decide +kernel)).2, (hcompile "a" "b" ⟨by decide, by decide⟩).2,
    (hxor "a" "b" "c" (-1) (-91) _ _ 90 _ ⟨by decide, by decide⟩ (.negated 1) (.negated 91)
      hmask hz).2⟩

end Unmask.BlankObf
