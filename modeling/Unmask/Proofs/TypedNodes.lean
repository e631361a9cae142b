import Unmask.Proofs.FoldedParts
import Unmask.Proofs.Rounds
import Unmask.Proofs.Tupleless
import Unmask.Proofs.TypedOperations

/-!
# Nodes folded with tuples apart

The values of the folder are those of a language in which a tuple is a list. A node whose parts are
folded right is folded right up to that if the operands of an operator do not mix lists with tuples,
`decode` has no argument too many, and a comprehension is what it is taken for. There is one lemma
for each kind of node.
-/
namespace Unmask.Typed
open BlankObf
open Datum (Fit Floats binary_ok eq_bytes eq_str item_ok list_or_tuple ofValue ofValues slice_ok
  unary_ok value? value?_list values?)
open Fct (ok_of_toOption)
open Value (ofExpr? ofExprs?)

/-- The comprehension that reads the numbers of addresses:
`[int(part) for address in [element for element in addresses] for part in address.split('.')]`. -/
def dottedQuads (part address element : String) (addresses : Expr) : Expr :=
  .listComp (.apply (.name "int") [.name part])
    [⟨.name address, .listComp (.name element) [⟨.name element, addresses, [], false⟩], [], false⟩,
      ⟨.name part, .apply (.attribute (.name address) "split") [.str "."], [], false⟩]

section Conditions

variable (floats : Floats)

/-- The comprehension that reads the numbers of addresses, with numerals between the dots of every
text. -/
def Documented (e : Expr) : Prop :=
  ∃ part address element addresses, e = dottedQuads part address element addresses ∧
    part ≠ "int" ∧ address ≠ "int" ∧ address ≠ part ∧
    ∀ d items, eval floats [] addresses = some d → d.items? = some items →
      ∀ s, .str s ∈ items → ∀ cs ∈ s.toList.splitOn '.', (numeral? (Text.trimChars cs)).isSome

/-- A node that is folded as it is evaluated, up to tuples: the operands of an operator fit,
`decode` has no more arguments than it takes, and a comprehension that looks like one over addresses
is one. -/
def Honest : Expr → Prop
  | .binary left op right => ∀ d e, eval floats [] left = some d → eval floats [] right = some e →
      Fit floats op d e
  | .call (.attribute _ attr) args _ => attr = "decode" → args.length ≤ 2
  | .listComp elt [outer, second] => elt.isCallOf "int" → ∀ inner source,
      outer.iter = .listComp inner [source] → Documented floats (.listComp elt [outer, second])
  | _ => True

mutual

/-- What the literal that an expression is folded to evaluates to. Displays keep their types, `list`
gives its argument as it is, and all else gives lists for tuples. -/
def told : Expr → Option Datum
  | .list items => (toldAll items).map Datum.list
  | .tuple items => (toldAll items).map Datum.tuple
  | .call (.name "list") [arg] [] => told arg
  | e => (eval floats [] e).bind fun d => d.value?.map ofValue

def toldAll : List Expr → Option (List Datum)
  | [] => some []
  | e :: rest => (told e).bind fun d => (toldAll rest).map (d :: ·)

end

end Conditions

variable {floats : Floats} {n : Nat} {e l : Expr} {v : Value} {Has : Expr → Prop}

section Literals

variable (floats)

mutual

lemma eval_toExpr (v : Value) : eval floats [] v.toExpr = some (ofValue v) := by
  cases v with
  | list items => simp [Value.toExpr, eval, evalAll_toExprs items, ofValue]
  | _ => rfl

lemma evalAll_toExprs (items : List Value) :
    evalAll floats [] (Value.toExprs items) = some (ofValues items) := by
  cases items with
  | nil => rfl
  | cons v rest =>
    simp [Value.toExprs, evalAll, eval_toExpr v, evalAll_toExprs rest, ofValues]

end

end Literals

/-- The literal `l` of the value `v` is right for an expression up to tuples, it evaluates to what
is told, and without tuples it is right altogether. -/
def Agrees (floats : Floats) (e l : Expr) (v : Value) : Prop :=
  ∃ d, eval floats [] e = some d ∧ d.value? = some v ∧ eval floats [] l = told floats e ∧
    (Tupleless e → told floats e = some d)

/-- An expression is folded to no literal but right ones. -/
def Right (floats : Floats) (n : Nat) (e : Expr) : Prop :=
  ∀ l v, Folds n e l → ofExpr? l = some v → Agrees floats e l v

/-- The literal of a value is right for an expression that evaluates to what is taken for it. -/
lemma agrees_of_value {d : Datum} (he : eval floats [] e = some d) (hd : d.value? = some v)
    (htold : told floats e = (eval floats [] e).bind fun d => d.value?.map ofValue) :
    Agrees floats e v.toExpr v := by
  have hvalue : told floats e = some (ofValue v) := by
    rw [htold, he, Option.bind_some, hd]
    rfl
  refine ⟨d, he, hd, by rw [eval_toExpr, hvalue], fun htupleless => ?_⟩
  rw [hvalue, (htupleless.givesPlain [] d .nil he).ofValue_eq hd]

lemma right_constant {c : Constant} : Right floats n (.constant c) := by
  intro l v hl hv
  obtain rfl := hl.constant
  cases c with
  | ellipsis => contradiction
  | _ =>
    cases hv
    exact ⟨_, rfl, rfl, rfl, fun _ => rfl⟩

lemma right_name {id : String} : Right floats n (.name id) := by
  intro l v hl hv
  obtain rfl := hl.name
  contradiction

/-- Rows are folded right if their members are. -/
lemma right_all {items ls : List Expr} {vs : List Value} (h : ∀ e ∈ items, Right floats n e)
    (hls : List.Forall₂ (Folds n) items ls) (hvs : ofExprs? ls = some vs) :
    ∃ ds, evalAll floats [] items = some ds ∧ values? ds = some vs ∧
      evalAll floats [] ls = toldAll floats items ∧
      ((∀ e ∈ items, Tupleless e) → toldAll floats items = some ds) := by
  induction hls generalizing vs with
  | nil =>
    cases hvs
    exact ⟨[], rfl, rfl, rfl, fun _ => rfl⟩
  | @cons e l items ls hl hls ih =>
    obtain ⟨v, hv, hvs⟩ := Option.bind_eq_some_iff.mp hvs
    obtain ⟨ws, hws, rfl⟩ := Option.map_eq_some_iff.mp hvs
    obtain ⟨d, he, hd, htold, hfirst⟩ := h e List.mem_cons_self l v hl hv
    obtain ⟨ds, hall, hds, htoldAll, hrest⟩ := ih (fun e he => h e (List.mem_cons_of_mem _ he)) hws
    refine ⟨d :: ds, by simp [evalAll, he, hall], by simp [values?, hd, hds],
      by rw [evalAll, htold, htoldAll, toldAll], fun htupleless => ?_⟩
    obtain ⟨he, hitems⟩ := List.forall_mem_cons.mp htupleless
    rw [toldAll, hfirst he, hrest hitems]
    rfl

lemma right_list {items : List Expr} (h : ∀ e ∈ items, Right floats n e) :
    Right floats n (.list items) := by
  intro l v hl hv
  obtain ⟨ls, hls, rfl⟩ := hl.list
  obtain ⟨vs, hvs, rfl⟩ := Option.map_eq_some_iff.mp hv
  obtain ⟨ds, hall, hds, htold, hplain⟩ := right_all h hls hvs
  refine ⟨.list ds, by simp [eval, hall], by simp [value?, hds], by rw [eval, htold, told], ?_⟩
  intro htupleless
  rw [told, hplain htupleless.items]
  rfl

lemma right_tuple {items : List Expr} (h : ∀ e ∈ items, Right floats n e) :
    Right floats n (.tuple items) := by
  intro l v hl hv
  obtain ⟨ls, hls, rfl⟩ := hl.tuple
  obtain ⟨vs, hvs, rfl⟩ := Option.map_eq_some_iff.mp hv
  obtain ⟨ds, hall, hds, htold, -⟩ := right_all h hls hvs
  refine ⟨.tuple ds, by simp [eval, hall], by simp [value?, hds], by rw [eval, htold, told],
    fun htupleless => absurd htupleless (not_tupleless_tuple items)⟩

/-- Neither the bounds of a slice nor a call of a name nor a comprehension. -/
def Simple : Expr → Bool
  | .slice .. | .call (.name _) .. | .listComp .. => false
  | _ => true

/-- How an expression that stays one is related to what it came from. -/
inductive Stays (n : Nat) : Expr → Expr → Prop where
  | call {f : String} {args as : List Expr} {keywords ks : List Keyword} :
    Stays n (.call (.name f) args keywords) (.call (.name f) as ks)
  | listComp {elt r : Expr} {generators gs : List Comprehension} (helt : Folds n elt r)
    (hiters : List.Forall₂ (fun g r => Folds n g.iter r.iter) generators gs) :
    Stays n (.listComp elt generators) (.listComp r gs)
  | other {e l : Expr} (h : Simple l) : Stays n e l

lemma not_eval {f : String} (hf : f ∈ ["bytes", "list", "int"]) :
    ¬Folds n (.name f) (.name "eval") := by
  intro h
  cases h.name
  exact absurd hf (by decide)

lemma not_eval_attribute {object : Expr} {attr : String} :
    ¬Folds n (.attribute object attr) (.name "eval") := by
  intro h
  obtain ⟨_, -, heq⟩ := h.attribute
  cases heq

/-- What is folded is a literal or stays what it is. -/
lemma literal_or_stays (he : Built Has e) (h : Folds n e l) :
    (ofExpr? l).isSome ∨ Stays n e l := by
  have hreduced {parts : Expr} (hliteral : ∀ r, reduce? parts = some r → (ofExpr? r).isSome)
      (hstays : Stays n e parts) :
      (ofExpr? (reduced parts)).isSome ∨ Stays n e (reduced parts) := by
    cases hr : reduce? parts with
    | none =>
      rw [reduced, hr]
      exact .inr hstays
    | some r =>
      rw [reduced, hr]
      exact .inl (hliteral r hr)
  cases he with
  | constant =>
    obtain rfl := h.constant
    exact .inr (.other rfl)
  | name =>
    obtain rfl := h.name
    exact .inr (.other rfl)
  | list =>
    obtain ⟨_, -, rfl⟩ := h.list
    exact .inr (.other rfl)
  | tuple =>
    obtain ⟨_, -, rfl⟩ := h.tuple
    exact .inr (.other rfl)
  | unary =>
    obtain ⟨_, -, rfl⟩ := h.unary
    exact hreduced (fun r hr => literal_of_reduce hr (by simp)) (.other rfl)
  | binary =>
    obtain ⟨_, _, -, -, rfl⟩ := h.binary
    exact hreduced (fun r hr => literal_of_reduce hr (by simp)) (.other rfl)
  | item | slice =>
    obtain ⟨_, _, -, -, rfl⟩ := h.subscript
    exact hreduced (fun r hr => literal_of_reduce hr (by simp)) (.other rfl)
  | @call f args keywords hf =>
    obtain ⟨_, as, ks, hfunc, -, -, rfl⟩ := h.call (not_eval hf)
    obtain rfl := hfunc.name
    refine hreduced (fun r hr => ?_) .call
    cases ks with
    | nil => exact literal_of_named hf hr
    | cons => contradiction
  | @method object attr args keywords =>
    obtain ⟨_, as, ks, hfunc, -, -, rfl⟩ := h.call not_eval_attribute
    obtain ⟨_, -, rfl⟩ := hfunc.attribute
    refine hreduced (fun r hr => ?_) (.other rfl)
    cases ks with
    | nil => exact literal_of_method hr
    | cons => contradiction
  | listComp =>
    obtain ⟨_, _, helt, hiters, rfl⟩ := h.listComp
    exact hreduced (fun r hr => literal_of_reduce hr (by simp)) (.listComp helt hiters)

lemma right_unary {op : UnaryOp} {operand : Expr} (h : Right floats n operand) :
    Right floats n (.unary op operand) := by
  intro l v hl hv
  obtain ⟨r, hr, rfl⟩ := hl.unary
  obtain ⟨hvalue, hreduced⟩ := reduced_of_value (reduce?_unary op r) id hv
  obtain ⟨w, hw, hop⟩ := Option.bind_eq_some_iff.mp hvalue
  obtain ⟨d, hd, hdw, -⟩ := h r w hr hw
  obtain ⟨u, hu, huv⟩ := unary_ok hdw (ok_of_toOption hop)
  rw [hreduced]
  exact agrees_of_value (by rw [eval, hd]; exact hu) huv rfl

lemma right_binary {left right : Expr} {op : BinaryOp} (hleft : Right floats n left)
    (hright : Right floats n right) (h : Honest floats (.binary left op right)) :
    Right floats n (.binary left op right) := by
  intro l v hl hv
  obtain ⟨r, s, hr, hs, rfl⟩ := hl.binary
  obtain ⟨hvalue, hreduced⟩ := reduced_of_value (reduce?_binary r op s) (fun _ => rfl) hv
  obtain ⟨w, hw, hvalue⟩ := Option.bind_eq_some_iff.mp hvalue
  obtain ⟨x, hx, hop⟩ := Option.bind_eq_some_iff.mp hvalue
  obtain ⟨d, hd, hdw, -⟩ := hleft r w hr hw
  obtain ⟨e, he, hex, -⟩ := hright s x hs hx
  obtain ⟨u, hu, huv⟩ := binary_ok (h d e hd he) hdw hex (ok_of_toOption hop)
  rw [hreduced]
  exact agrees_of_value (by rw [eval, hd, Option.bind_some, he]; exact hu) huv rfl

/-- A position is not folded to the bounds of a slice. -/
lemma ne_slice_of_folds (he : Built Has e) (h : Folds n e l) :
    ∀ lower upper step, l ≠ .slice lower upper step := by
  rintro lower upper step rfl
  obtain hliteral | hstays := literal_or_stays he h
  · contradiction
  · cases hstays with
    | other h => cases h

lemma right_item {value key : Expr} (hkey : Built Has key) (hv : Right floats n value)
    (hk : Right floats n key) : Right floats n (.subscript value key) := by
  intro l v hl hlv
  obtain ⟨r, k, hr, hkf, rfl⟩ := hl.subscript
  have hreduce := reduce?_item r (ne_slice_of_folds hkey hkf)
  obtain ⟨hvalue, hreduced⟩ := reduced_of_value hreduce (fun _ => rfl) hlv
  obtain ⟨w, hw, hvalue⟩ := Option.bind_eq_some_iff.mp hvalue
  obtain ⟨x, hx, hop⟩ := Option.bind_eq_some_iff.mp hvalue
  obtain ⟨d, hd, hdw, -⟩ := hv r w hr hw
  obtain ⟨e, he, hex, -⟩ := hk k x hkf hx
  obtain ⟨u, hu, huv⟩ := item_ok hdw hex (ok_of_toOption hop)
  have heval : eval floats [] (.subscript value key) = some u := by
    rw [eval_item hkey, hd, Option.bind_some, he]
    exact hu
  rw [hreduced]
  exact agrees_of_value heval huv rfl

/-- A bound that is read from what is folded is what the bound evaluates to. -/
lemma bound_ok {o r : Option Expr} {bound : Option Int} (h : ∀ e ∈ o, Right floats n e)
    (hr : Option.Rel (Folds n) o r) (hbound : bound? r = some bound) :
    evalBound floats [] o = some bound := by
  cases hr with
  | none =>
    cases hbound
    rfl
  | @some e l hl =>
    obtain ⟨w, hw, hbound⟩ := Option.bind_eq_some_iff.mp hbound
    obtain ⟨k, hk, rfl⟩ := Option.map_eq_some_iff.mp hbound
    obtain ⟨d, he, hd, -⟩ := h e rfl l w hl hw
    rw [evalBound, he, Option.bind_some, Datum.integer?_eq hd, hk]
    rfl

lemma right_slice {value : Expr} {lower upper step : Option Expr} (hv : Right floats n value)
    (hlower : ∀ e ∈ lower, Right floats n e) (hupper : ∀ e ∈ upper, Right floats n e)
    (hstep : ∀ e ∈ step, Right floats n e) :
    Right floats n (.subscript value (.slice lower upper step)) := by
  intro l v hl hlv
  obtain ⟨r, k, hr, hkf, rfl⟩ := hl.subscript
  obtain ⟨lo, up, st, hlo, hup, hst, rfl⟩ := hkf.slice
  obtain ⟨hvalue, hreduced⟩ := reduced_of_value (reduce?_slice r lo up st) (fun _ => rfl) hlv
  obtain ⟨w, hw, hvalue⟩ := Option.bind_eq_some_iff.mp hvalue
  obtain ⟨a, ha, hvalue⟩ := Option.bind_eq_some_iff.mp hvalue
  obtain ⟨b, hb, hvalue⟩ := Option.bind_eq_some_iff.mp hvalue
  obtain ⟨c, hc, hop⟩ := Option.bind_eq_some_iff.mp hvalue
  obtain ⟨d, hd, hdw, -⟩ := hv r w hr hw
  obtain ⟨u, hu, huv⟩ := slice_ok hdw (ok_of_toOption hop)
  have heval : eval floats [] (.subscript value (.slice lower upper step)) = some u := by
    rw [eval, hd, Option.bind_some, bound_ok hlower hlo ha, Option.bind_some,
      bound_ok hupper hup hb, Option.bind_some, bound_ok hstep hst hc]
    exact hu
  rw [hreduced]
  exact agrees_of_value heval huv rfl

/-- The only argument of a call, where there is a literal for it. -/
lemma one_argument {args : List Expr} {a : Expr} {w : Value} (h : ∀ e ∈ args, Right floats n e)
    (has : List.Forall₂ (Folds n) args [a]) (hw : ofExpr? a = some w) :
    ∃ arg, args = [arg] ∧ Agrees floats arg a w := by
  cases has with
  | @cons arg _ _ _ harg hrest =>
    cases hrest
    exact ⟨arg, rfl, h arg List.mem_cons_self a w harg hw⟩

lemma agrees_bytes {arg a : Expr} {w : Value} {b : Bytes} (h : Agrees floats arg a w)
    (hb : octets? w = some b) :
    Agrees floats (.apply (.name "bytes") [arg]) (.bytes b) (.bytes b) := by
  obtain ⟨d, hd, hdw, -⟩ := h
  have heval : eval floats [] (.apply (.name "bytes") [arg]) = some (.bytes b) := by
    simp [Expr.apply, eval, evalAll, hd, bytes_ok hdw hb]
  exact agrees_of_value heval rfl rfl

/-- A tuple is no list, so `list` may give its argument as it is where there are no tuples. -/
lemma agrees_list {arg a : Expr} {items : List Value} (h : Agrees floats arg a (.list items)) :
    Agrees floats (.apply (.name "list") [arg]) a (.list items) := by
  obtain ⟨d, hd, hdw, htold, hplain⟩ := h
  obtain ⟨ds, hds, hlist⟩ := list_or_tuple hdw
  have heval : eval floats [] (.apply (.name "list") [arg]) = some (.list ds) := by
    obtain rfl | rfl := hlist <;> simp [Expr.apply, eval, evalAll, hd, call, Datum.items?]
  refine ⟨.list ds, heval, value?_list hds, htold, fun htupleless => ?_⟩
  have harg : Tupleless arg := htupleless.arguments arg List.mem_cons_self
  obtain rfl | rfl := hlist
  · exact hplain harg
  · cases harg.givesPlain [] _ .nil hd

lemma right_call {f : String} {args : List Expr} {keywords : List Keyword}
    (hf : f ∈ ["bytes", "list", "int"]) (h : ∀ e ∈ args, Right floats n e) :
    Right floats n (.call (.name f) args keywords) := by
  intro l v hl hlv
  obtain ⟨_, as, ks, hfunc, has, hks, rfl⟩ := hl.call (not_eval hf)
  obtain rfl := hfunc.name
  have hreduce := reduce_of_literal rfl hlv
  generalize reduced (.call (.name f) as ks) = r at hlv hreduce ⊢
  cases ks with
  | cons => contradiction
  | nil =>
    obtain rfl := hks rfl
    change reduceNamed? f as = some r at hreduce
    unfold reduceNamed? at hreduce
    split at hreduce
    · obtain ⟨w, hw, hreduce⟩ := Option.bind_eq_some_iff.mp hreduce
      obtain ⟨b, hb, rfl⟩ := Option.map_eq_some_iff.mp hreduce
      obtain ⟨arg, rfl, harg⟩ := one_argument h has hw
      cases hlv
      exact agrees_bytes harg hb
    · split at hreduce
      · next items hw =>
        cases hreduce
        obtain ⟨arg, rfl, harg⟩ := one_argument h has hw
        rw [hw] at hlv
        cases hlv
        exact agrees_list harg
      · contradiction
    · exact absurd hf (by decide)
    · contradiction

/-- Arguments that are folded to names of UTF-8 evaluate to names of it. -/
lemma evalAll_names {args as : List Expr} (h : ∀ e ∈ args, Right floats n e)
    (has : List.Forall₂ (Folds n) args as) (hnames : as.all namesUtf8) :
    ∃ names : List String, evalAll floats [] args = some (names.map Datum.str) ∧
      names.length = args.length ∧ ∀ s ∈ names, NamesUtf8 s := by
  induction has with
  | nil => exact ⟨[], rfl, rfl, nofun⟩
  | @cons arg a args as ha has ih =>
    obtain ⟨hname, hrest⟩ := Bool.and_eq_true_iff.mp hnames
    obtain ⟨s, rfl, hs⟩ := exists_name_of_namesUtf8 hname
    obtain ⟨d, hd, hds, -⟩ := h arg List.mem_cons_self _ (.str s) ha rfl
    obtain rfl := eq_str hds
    obtain ⟨names, hall, hlength, hnamed⟩ :=
      ih (fun e he => h e (List.mem_cons_of_mem _ he)) hrest
    exact ⟨s :: names, by simp [evalAll, hd, hall], by simp [hlength],
      List.forall_mem_cons.mpr ⟨hs, hnamed⟩⟩

/-- No function that decodes has the name of a method. -/
lemma decoders_none (module : String) {attr : String} (h : attr ∈ ["decode", "split"]) :
    decoders.lookup (module, attr) = none := by
  have hnames : ∀ entry ∈ decoders, entry.1.2 ∉ ["decode", "split"] := by
    simp [decoders]
  rw [List.lookup_eq_none_iff]
  intro entry hentry
  refine bne_iff_ne.mpr fun heq => hnames entry hentry ?_
  rwa [← heq]

lemma agrees_decode {object o : Expr} {args as : List Expr} {b : Bytes} {s : String}
    (hobject : Right floats n object) (ho : Folds n object o) (hb : o.bytes? = some b)
    (h : ∀ e ∈ args, Right floats n e) (has : List.Forall₂ (Folds n) args as)
    (hnames : as.all namesUtf8) (hlength : args.length ≤ 2)
    (hs : (Text.Utf8.decode b).toOption = some s) :
    Agrees floats (.apply (.attribute object "decode") args) (.str s) (.str s) := by
  obtain rfl : o = .constant (.bytes b) := by
    unfold Expr.bytes? at hb
    split at hb
    · cases hb
      rfl
    · contradiction
  obtain ⟨d, hd, hdb, -⟩ := hobject _ (.bytes b) ho rfl
  obtain rfl := eq_bytes hdb
  obtain ⟨names, hall, hnamesLength, hnamed⟩ := evalAll_names h has hnames
  have hasks := asksUtf8_of hnamed (hnamesLength ▸ hlength)
  have heval : eval floats [] (.apply (.attribute object "decode") args) = some (.str s) := by
    simp [Expr.apply, eval, hd, hall, callMethod, hasks, hs]
  exact agrees_of_value heval rfl rfl

lemma right_method {object : Expr} {attr : String} {args : List Expr} {keywords : List Keyword}
    (hattr : attr ∈ ["decode", "split"]) (hobject : Right floats n object)
    (h : ∀ e ∈ args, Right floats n e)
    (hhonest : Honest floats (.call (.attribute object attr) args keywords)) :
    Right floats n (.call (.attribute object attr) args keywords) := by
  intro l v hl hlv
  obtain ⟨_, as, ks, hfunc, has, hks, rfl⟩ := hl.call not_eval_attribute
  obtain ⟨o, ho, rfl⟩ := hfunc.attribute
  have hreduce := reduce_of_literal rfl hlv
  generalize reduced (.call (.attribute o attr) as ks) = r at hlv hreduce ⊢
  cases ks with
  | cons => contradiction
  | nil =>
    obtain rfl := hks rfl
    change reduceCall? (.attribute o attr) as = some r at hreduce
    unfold reduceCall? at hreduce
    split at hreduce
    · next heq => cases heq
    · next heq =>
      cases heq
      obtain ⟨b, hb, hreduce⟩ := Option.bind_eq_some_iff.mp hreduce
      split at hreduce
      · next hnames =>
        obtain ⟨s, hs, hreduce⟩ := Option.bind_eq_some_iff.mp hreduce
        cases hreduce
        cases hlv
        exact agrees_decode hobject ho hb h has hnames (hhonest rfl) hs
      · contradiction
    · next heq =>
      -- The functions of modules that decode are not among the methods.
      cases heq
      obtain ⟨decode, hdecode, -⟩ := Option.bind_eq_some_iff.mp hreduce
      rw [decoders_none _ hattr] at hdecode
      contradiction
    · contradiction

end Unmask.Typed
