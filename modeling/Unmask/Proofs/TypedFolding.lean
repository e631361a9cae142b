import Unmask.Proofs.TypedNodes

/-!
# Folding with tuples apart

An expression that is folded to a literal evaluates to what the literal evaluates to if tuples are
taken for lists. The types agree as well unless a tuple display stands in the expression. By
induction on the expression from the lemmas about its nodes, and from the comprehension that reads
the numbers of addresses.
-/
namespace Unmask.Typed
open BlankObf
open Datum (Floats eq_str list_or_tuple value?_list)
open Value (ofExpr?)

variable {floats : Floats} {n : Nat} {e l : Expr} {v : Value} {Has : Expr → Prop}

/-- The numbers between the dots of a text. -/
def numbersOf (address : Datum) : Option (List Datum) :=
  (callMethod "split" address [.str "."]).bind fun parts => parts.items?.bind fun parts =>
    (parts.mapM fun part => (call "int" [part]).map ([·])).map List.flatten

lemma mapM_singleton {α : Type} (items : List α) :
    (items.mapM fun a => some [a]) = some (items.map ([·])) := by
  induction items with
  | nil => rfl
  | cons a items ih => simp [ih]

lemma flatten_singletons {α : Type} (items : List α) : (items.map ([·])).flatten = items := by
  simp [← List.flatMap_def]

/-- The comprehension over addresses gives the numbers of all addresses in a row. -/
lemma eval_dottedQuads {part address element : String} {addresses : Expr} (hpart : part ≠ "int")
    (haddress : address ≠ "int") (hne : address ≠ part) :
    eval floats [] (dottedQuads part address element addresses) =
      (eval floats [] addresses).bind fun d => d.items?.bind fun items =>
        (items.mapM numbersOf).map fun numbers => .list numbers.flatten := by
  have hint (d d' : Datum) : List.lookup "int" ([(part, some d), (address, some d'),
      (address, none), (part, none)] : Env) = none := by
    simp [Named.lookup_entry, hpart.symm, haddress.symm]
  simp [dottedQuads, Expr.apply, Expr.str, Expr.name?, eval, evalAll, evalClauses, pass, hne, hint,
    mapM_singleton, flatten_singletons, Option.bind_assoc, Option.bind_map]
  rfl

/-- The numbers that are read from a text of numerals are those between its dots. -/
lemma numbersOf_ok {d : Datum} {ks : List Int} (hd : d.value? = some v)
    (hspelled : ∀ s, d = .str s →
      ∀ cs ∈ s.toList.splitOn '.', (numeral? (Text.trimChars cs)).isSome)
    (h : quads? v = some ks) : numbersOf d = some (ks.map Datum.int) := by
  obtain ⟨s, hs, hks⟩ := Option.bind_eq_some_iff.mp h
  obtain rfl : v = .str s := by
    cases v with
    | str => exact congrArg Value.str (Option.some.inj hs)
    | _ => contradiction
  obtain rfl := eq_str hd
  rw [Text.splitChars_eq] at hks
  have hrows : List.Forall₂ (fun part cs => part = Datum.str (String.ofList cs))
      ((s.toList.splitOn '.').map fun cs => .str (String.ofList cs)) (s.toList.splitOn '.') := by
    rw [List.forall₂_map_left_iff]
    exact List.forall₂_same.mpr fun _ _ => rfl
  have hparts : ((s.toList.splitOn '.').map fun cs => Datum.str (String.ofList cs)).mapM
      (fun part => (call "int" [part]).map ([·])) = some (ks.map fun k => [Datum.int k]) := by
    refine mapM_ok hrows (fun part hpart cs k heq hk => ?_) hks
    subst heq
    obtain ⟨cs', hcs', heq⟩ := List.mem_map.mp hpart
    obtain rfl : cs' = cs := String.ofList_injective (Datum.str.inj heq)
    obtain ⟨k', hk'⟩ := Option.isSome_iff_exists.mp (hspelled s rfl cs' hcs')
    obtain rfl : k' = k := Option.some.inj ((numeral_ok hk').symm.trans hk)
    rw [call, String.toList_ofList, hk']
    rfl
  have hsplit : callMethod "split" (.str s) [.str "."] =
      some (.list ((s.toList.splitOn '.').map fun cs => .str (String.ofList cs))) := rfl
  have hflatten : (ks.map fun k => [Datum.int k]).flatten = ks.map Datum.int := by
    rw [← flatten_singletons (ks.map Datum.int), List.map_map]
    rfl
  rw [numbersOf, hsplit, Option.bind_some, Datum.items?, Option.bind_some, hparts, Option.map_some,
    hflatten]

/-- A comprehension that is reduced looks like one over addresses. -/
lemma reduced_listComp {r : Expr} {gs : List Comprehension}
    (h : ofExpr? (reduced (.listComp r gs)) = some v) :
    ∃ outer second inner source addresses numbers, r.isCallOf "int" ∧ gs = [outer, second] ∧
      outer.iter = .listComp inner [source] ∧ ofExpr? source.iter = some (.list addresses) ∧
      addresses.mapM quads? = some numbers ∧ v = .list (numbers.flatten.map Value.int) ∧
      reduced (.listComp r gs) = v.toExpr := by
  have hreduce : dottedQuads? r gs = some (reduced (.listComp r gs)) := reduce_of_literal rfl h
  generalize reduced (.listComp r gs) = l at h hreduce ⊢
  unfold dottedQuads? at hreduce
  split at hreduce
  · next target inner source ifs isAsync second hcall =>
    split at hreduce
    · next addresses haddresses =>
      obtain ⟨numbers, hnumbers, rfl⟩ := Option.map_eq_some_iff.mp hreduce
      rw [← toExpr_ints, Value.ofExpr?_toExpr] at h
      cases h
      exact ⟨_, second, inner, source, addresses, numbers, hcall, rfl, rfl, haddresses, hnumbers,
        rfl, (toExpr_ints _).symm⟩
    · contradiction
  · contradiction

/-- What stays a call of a name was one. -/
lemma isCallOf_of_folds {f : String} (he : Built Has e) (h : Folds n e l) (hl : l.isCallOf f) :
    e.isCallOf f := by
  unfold Expr.isCallOf at hl
  split at hl
  · obtain hliteral | hstays := literal_or_stays he h
    · contradiction
    · cases hstays with
      | call => exact hl
      | other h => cases h
  · contradiction

/-- What stays a comprehension was one. -/
lemma listComp_of_folds {r : Expr} {gs : List Comprehension} (he : Built Has e)
    (h : Folds n e (.listComp r gs)) :
    ∃ elt generators, e = .listComp elt generators ∧
      List.Forall₂ (fun g r => Folds n g.iter r.iter) generators gs := by
  obtain hliteral | hstays := literal_or_stays he h
  · contradiction
  · cases hstays with
    | listComp _ hiters => exact ⟨_, _, rfl, hiters⟩
    | other h => cases h

/-- What the inner comprehension of the one over addresses goes through. -/
lemma addresses_of_dottedQuads {part address element : String} {addresses elt inner : Expr}
    {outer second source : Comprehension}
    (h : .listComp elt [outer, second] = dottedQuads part address element addresses)
    (hiter : outer.iter = .listComp inner [source]) : source.iter = addresses := by
  have hclauses := (Expr.listComp.inj h).2
  rw [List.cons.injEq] at hclauses
  rw [hclauses.1] at hiter
  have hsources := (Expr.listComp.inj hiter).2
  rw [List.cons.injEq] at hsources
  rw [← hsources.1]

/-- The numbers that are read from the literal of the addresses are those that the comprehension
over them gives. -/
lemma agrees_dottedQuads {e list r : Expr} {addresses : List Value} {numbers : List (List Int)}
    (h : Documented floats e) (hlist : Agrees floats list r (.list addresses))
    (hof : ∀ part address element l, e = dottedQuads part address element l → l = list)
    (hnumbers : addresses.mapM quads? = some numbers) :
    Agrees floats e (Value.list (numbers.flatten.map Value.int)).toExpr
      (.list (numbers.flatten.map Value.int)) := by
  obtain ⟨part, address, element, l, rfl, hpart, haddress, hne, hspelled⟩ := h
  obtain rfl := hof part address element l rfl
  obtain ⟨d, hd, hdv, -⟩ := hlist
  obtain ⟨ds, hds, hlist⟩ := list_or_tuple hdv
  have hitems : d.items? = some ds := by
    obtain rfl | rfl := hlist <;> rfl
  have hquads : ds.mapM numbersOf = some (numbers.map (List.map Datum.int)) := by
    refine mapM_ok (forall₂_of_row hds) (fun a ha w ks haw hks => ?_) hnumbers
    refine numbersOf_ok haw (fun s hs => ?_) hks
    exact hspelled d ds hd hitems s (hs ▸ ha)
  have heval : eval floats [] (dottedQuads part address element l) =
      some (.list (numbers.flatten.map Datum.int)) := by
    rw [eval_dottedQuads hpart haddress hne, hd, Option.bind_some, hitems, Option.bind_some,
      hquads, Option.map_some, List.map_flatten]
  have hvalue : (Datum.list (numbers.flatten.map Datum.int)).value? =
      some (.list (numbers.flatten.map Value.int)) := by
    refine value?_list ?_
    rw [List.map_map, List.map_map]
    rfl
  exact agrees_of_value heval hvalue rfl

lemma right_listComp {elt : Expr} {generators : List Comprehension} (helt : Built Has elt)
    (hiters : ∀ g ∈ generators, Built Has g.iter)
    (h : ∀ g ∈ generators, ∀ inner source, g.iter = .listComp inner [source] →
      Right floats n source.iter)
    (hhonest : Honest floats (.listComp elt generators)) :
    Right floats n (.listComp elt generators) := by
  intro l v hl hlv
  obtain ⟨r, gs, hr, hgs, rfl⟩ := hl.listComp
  obtain ⟨outer', second', inner', source', addresses, numbers, hcall, rfl, hiter, haddresses,
    hnumbers, rfl, hreduced⟩ := reduced_listComp hlv
  -- The clauses come from as many, and the inner comprehension from one of one clause.
  cases hgs with
  | @cons outer _ rest _ houter hrest =>
  cases hrest with
  | @cons second _ rest _ hsecond hrest =>
  cases hrest
  rw [hiter] at houter
  obtain ⟨inner, generators, houterIter, hclauses⟩ :=
    listComp_of_folds (hiters outer List.mem_cons_self) houter
  cases hclauses with
  | @cons source _ rest _ hsource hrest =>
  cases hrest
  have hdocumented : Documented floats (.listComp elt [outer, second]) :=
    hhonest (isCallOf_of_folds helt hr hcall) inner source houterIter
  have hlist : Agrees floats source.iter source'.iter (.list addresses) :=
    h outer List.mem_cons_self inner source houterIter _ _ hsource haddresses
  rw [hreduced]
  exact agrees_dottedQuads hdocumented hlist
    (fun _ _ _ _ heq => (addresses_of_dottedQuads heq houterIter).symm) hnumbers

/-- Expressions whose nodes are honest are folded right up to tuples, and so is what a comprehension
with one clause goes through. -/
theorem right_of_honest (n : Nat) (he : Built (Honest floats) e) : Right floats n e ∧
    ∀ elt source, e = .listComp elt [source] → Right floats n source.iter := by
  induction he with
  | constant => exact ⟨right_constant, nofun⟩
  | name => exact ⟨right_name, nofun⟩
  | list _ _ ih => exact ⟨right_list fun e he => (ih e he).1, nofun⟩
  | tuple _ _ ih => exact ⟨right_tuple fun e he => (ih e he).1, nofun⟩
  | unary _ _ ih => exact ⟨right_unary ih.1, nofun⟩
  | binary _ _ h ihleft ihright => exact ⟨right_binary ihleft.1 ihright.1 h, nofun⟩
  | item _ hkey _ ihvalue ihkey => exact ⟨right_item hkey ihvalue.1 ihkey.1, nofun⟩
  | slice _ _ _ _ _ ihvalue ihlower ihupper ihstep =>
    exact ⟨right_slice ihvalue.1 (fun e he => (ihlower e he).1) (fun e he => (ihupper e he).1)
      fun e he => (ihstep e he).1, nofun⟩
  | call hf _ _ ih => exact ⟨right_call hf fun e he => (ih e he).1, nofun⟩
  | method hattr _ _ h ihobject ih =>
    exact ⟨right_method hattr ihobject.1 (fun e he => (ih e he).1) h, nofun⟩
  | listComp helt hiters h _ ih =>
    refine ⟨right_listComp helt hiters (fun g hg => (ih g hg).2) h, ?_⟩
    rintro elt source heq
    obtain ⟨-, rfl⟩ := Expr.listComp.inj heq
    exact (ih source List.mem_cons_self).1

/-- An expression whose nodes are honest and that is folded to a literal evaluates to what is taken
for the value of the literal, and the literal evaluates to the same, types included, if and only if
that is what is told. -/
theorem eval_of_folds {n : Nat} {floats : Floats} {e l : Expr} {v : Value}
    (he : Built (Honest floats) e) (hl : Folds n e l) (hv : ofExpr? l = some v) :
    ∃ d, eval floats [] e = some d ∧ d.value? = some v ∧
      (eval floats [] l = some d ↔ told floats e = some d) ∧
      (Tupleless e → eval floats [] l = some d) := by
  obtain ⟨d, hd, hdv, htold, hplain⟩ := (right_of_honest n he).1 l v hl hv
  exact ⟨d, hd, hdv, by rw [htold], fun htupleless => htold.trans (hplain htupleless)⟩

section Samples

/-- A language in which no operator gives a float. -/
def noFloats : Floats := fun _ _ _ => none

lemma built_int (k : Int) : Built (Honest floats) (.int k) := .constant nofun trivial

lemma built_str (s : String) : Built (Honest floats) (.str s) := .constant nofun trivial

/-- `([1, 2][-1] + 3, bytes([104, 105]).decode('UTF-8'),
[int(n) for ip in [a for a in ['1.2', '3.4']] for n in ip.split('.')])` becomes
`(5, 'hi', [1, 2, 3, 4])`. -/
theorem eval_of_folds_tuple :
    let sum := Expr.binary (.subscript (.list [.int 1, .int 2]) (.unary .minus (.int 1))) .add
      (.int 3)
    let text := Expr.apply (.attribute (.apply (.name "bytes") [.list [.int 104, .int 105]])
      "decode") [.str "UTF-8"]
    let quads := dottedQuads "n" "ip" "a" (.list [.str "1.2", .str "3.4"])
    let e := Expr.tuple [sum, text, quads]
    let l := Expr.tuple [.int 5, .str "hi", .list [.int 1, .int 2, .int 3, .int 4]]
    Built (Honest noFloats) e ∧ Folds 0 e l ∧
      ofExpr? l = some (.list [.int 5, .str "hi", .list [.int 1, .int 2, .int 3, .int 4]]) ∧
      ∃ d, eval noFloats [] e = some d ∧ eval noFloats [] l = some d := by
  intro sum text quads e l
  have hsum : Built (Honest noFloats) sum := by
    have hrow : Built (Honest noFloats) (.list [.int 1, .int 2]) :=
      .list (List.forall_mem_cons.mpr ⟨built_int 1, List.forall_mem_singleton.mpr (built_int 2)⟩)
        trivial
    refine .binary (.item hrow (.unary (built_int 1) trivial) trivial) (built_int 3) ?_
    intro d e hd he
    cases hd
    cases he
    refine ⟨fun _ => id, fun v w x hv hw h => ?_⟩
    cases hv
    cases hw
    cases h
  have htext : Built (Honest noFloats) text := by
    have hrow : Built (Honest noFloats) (.list [.int 104, .int 105]) :=
      .list (List.forall_mem_cons.mpr
        ⟨built_int 104, List.forall_mem_singleton.mpr (built_int 105)⟩) trivial
    have hbytes : Built (Honest noFloats) (.apply (.name "bytes") [.list [.int 104, .int 105]]) :=
      .call (by decide) (List.forall_mem_singleton.mpr hrow) trivial
    exact .method (by decide) hbytes (List.forall_mem_singleton.mpr (built_str "UTF-8"))
      fun _ => by decide
  have hquads : Built (Honest noFloats) quads := by
    have hrow : Built (Honest noFloats) (.list [.str "1.2", .str "3.4"]) :=
      .list (List.forall_mem_cons.mpr
        ⟨built_str "1.2", List.forall_mem_singleton.mpr (built_str "3.4")⟩) trivial
    have hspelled : ∀ s ∈ ["1.2", "3.4"], ∀ cs ∈ s.toList.splitOn '.',
        (numeral? (Text.trimChars cs)).isSome := by decide
    refine .listComp (.call (by decide) (List.forall_mem_singleton.mpr (.name trivial)) trivial)
      (List.forall_mem_cons.mpr ⟨?_, List.forall_mem_singleton.mpr ?_⟩) fun _ _ _ _ => ?_
    · exact .listComp (.name trivial) (List.forall_mem_singleton.mpr hrow) trivial
    · exact .method (by decide) (.name trivial) (List.forall_mem_singleton.mpr (built_str "."))
        nofun
    · refine ⟨"n", "ip", "a", _, rfl, by decide, by decide, by decide, ?_⟩
      intro d items hd hitems s hs
      cases hd
      cases hitems
      exact hspelled s (by simpa [Datum.ofConstant] using hs)
  have he : Built (Honest noFloats) e :=
    .tuple (List.forall_mem_cons.mpr ⟨hsum, List.forall_mem_cons.mpr
      ⟨htext, List.forall_mem_singleton.mpr hquads⟩⟩) trivial
  have hl : Folds 0 e l := rfl
  obtain ⟨d, hd, -, hsame, -⟩ := eval_of_folds he hl rfl
  refine ⟨he, hl, rfl, d, hd, hsame.mpr ?_⟩
  rw [← hd]
  rfl

/-- Where an expression is folded to a literal, it evaluates to what the literal evaluates to. -/
def Keeps (e : Expr) : Prop :=
  ∀ n floats l v, Folds n e l → ofExpr? l = some v →
    ∃ d, eval floats [] e = some d ∧ eval floats [] l = some d

lemma not_keeps {e l : Expr} {v : Value} (hl : Folds 0 e l) (hv : ofExpr? l = some v)
    (hne : eval noFloats [] e ≠ eval noFloats [] l) : ¬Keeps e := by
  intro h
  obtain ⟨d, hd, hdl⟩ := h 0 noFloats l v hl hv
  exact hne (hd.trans hdl.symm)

/-- `(1,) + (2,)`, `[1] + (2,)`, `list((1,))`, `b'a'.decode('utf8', 'utf8', 'utf8')`,
`[int(n) for ip in [a for a in ['1.2']] for n in ip.split('.') if 0]` and
`[int(n) for ip in [a for a in ['1_.2']] for n in ip.split('.')]` become `[1, 2]`, `[1, 2]`, `(1,)`,
`'a'`, `[1, 2]` and `[1, 2]`. -/
theorem folds_changing_value :
    (¬ ∀ e, Built (fun _ => True) e → Keeps e) ∧
    ¬Keeps (.binary (.tuple [.int 1]) .add (.tuple [.int 2])) ∧
    ¬Keeps (.binary (.list [.int 1]) .add (.tuple [.int 2])) ∧
    ¬Keeps (.apply (.name "list") [.tuple [.int 1]]) ∧
    ¬Keeps (.apply (.attribute (.bytes (Text.Utf8.encode "a")) "decode")
      [.str "utf8", .str "utf8", .str "utf8"]) ∧
    ¬Keeps (.listComp (.apply (.name "int") [.name "n"])
      [⟨.name "ip", .listComp (.name "a") [⟨.name "a", .list [.str "1.2"], [], false⟩], [], false⟩,
        ⟨.name "n", .apply (.attribute (.name "ip") "split") [.str "."], [.int 0], false⟩]) ∧
    ¬Keeps (dottedQuads "n" "ip" "a" (.list [.str "1_.2"])) := by
  have hjoined : ¬Keeps (.binary (.tuple [.int 1]) .add (.tuple [.int 2])) :=
    not_keeps (l := .list [.int 1, .int 2]) rfl rfl nofun
  have hbuilt : Built (fun _ => True) (.binary (.tuple [.int 1]) .add (.tuple [.int 2])) :=
    .binary (.tuple (List.forall_mem_singleton.mpr (.constant nofun trivial)) trivial)
      (.tuple (List.forall_mem_singleton.mpr (.constant nofun trivial)) trivial) trivial
  refine ⟨fun h => hjoined (h _ hbuilt), hjoined, ?_, ?_, ?_, ?_, ?_⟩
  · exact not_keeps (l := .list [.int 1, .int 2]) rfl rfl nofun
  · exact not_keeps (l := .tuple [.int 1]) rfl rfl nofun
  · exact not_keeps (l := .str "a") rfl rfl nofun
  · exact not_keeps (l := .list [.int 1, .int 2]) rfl rfl nofun
  · exact not_keeps (l := .list [.int 1, .int 2]) rfl rfl nofun

end Samples

end Unmask.Typed
