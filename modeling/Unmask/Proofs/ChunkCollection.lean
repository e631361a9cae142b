import Mathlib.Data.List.Forall2
import Unmask.Disguise.Hyperion
import Unmask.Proofs.CallFree
import Unmask.Proofs.Peeling
import Unmask.Proofs.TreeWalks

/-!
# Chunks are collected in their order

A program in chunks is put together from the calls that hold the chunks. Frosting is taken off
first, and then the calls are gone through in their order; statements without calls add nothing,
wherever they stand between them.
-/
namespace Unmask.Hyperion
open Disguise Resolve

/-- `__import__('module').function(arg)` -/
def importCall (module function : String) (arg : Expr) : Expr :=
  .apply (.attribute (.apply (.name "__import__") [.str module]) function) [arg]

/-- `__import__('base64').b64decode(__import__('zlib').decompress(frosted))` -/
def frosting (frosted : Bytes) : Expr :=
  importCall "base64" "b64decode" (importCall "zlib" "decompress" (.bytes frosted))

/-- A chunk as a literal, or under frosting. -/
inductive Wraps (chunk : Bytes) : Expr → Prop
  | plain : Wraps chunk (.bytes chunk)
  | frosted {frosted packed : Bytes} : Zlib.decompress frosted = .ok packed →
      Radix.decodeBase64 packed = .ok chunk → Wraps chunk (frosting frosted)

/-- `object.method(label='text', name=value)` -/
def chunkCall (object : Expr) (method label text name : String) (value : Expr) : Expr :=
  .call (.attribute object method) [] [⟨some label, .str text⟩, ⟨some name, value⟩]

/-- The chunk that a statement adds: none if it has no calls in it, or the one in a call on an
object without frosting. -/
inductive Adds : Bytes → Stmt → Prop
  | nothing {s : Stmt} : NoCallNodes (s.visited fun _ => true) → Adds [] s
  | chunk {chunk : Bytes} {object value : Expr} {method label text name : String} :
      (∀ part ∈ object.all, frosted? part = none) → Wraps chunk value →
      Adds chunk (.expr (chunkCall object method label text name value))

variable {object value : Expr} {s : Stmt} {m : Module} {chunk : Bytes}

lemma defrost_expr (e : Expr) (walk : Except DecodeError Expr) :
    defrost.expr e walk = (thawed? e).getD walk := rfl

lemma restores_of_thawed? {es : List Expr} (h : ∀ e ∈ es, thawed? e = none) :
    defrost.Restores es := by
  intro e he
  rw [defrost_expr, h e he]
  rfl

/-- An object without frosting has no frosted text in it either. -/
lemma thawed?_of_mem (h : ∀ part ∈ object.all, frosted? part = none) {part : Expr}
    (hpart : part ∈ object.all) : thawed? part = none := by
  have htext : frostedText? part = none := by
    unfold frostedText?
    split
    · rename_i inner _
      refine h inner (object.closed_all _ hpart _ ?_)
      simp [Expr.visited, visit, Expr.mem_all]
    · rfl
  rw [thawed?, h part hpart, htext]
  rfl

lemma onExpr_wraps (h : Wraps chunk value) : defrost.onExpr value = .ok (.bytes chunk) := by
  cases h with
  | plain => rfl
  | @frosted frosted packed hpacked hchunk =>
    have hthaw : thaw frosted = .ok chunk := by
      rw [thaw, hpacked]
      exact hchunk
    have hthawed : thawed? (frosting frosted) = some (.ok (.bytes chunk)) := by
      show some ((thaw frosted).map Expr.bytes) = _
      rw [hthaw]
      rfl
    show defrost.expr (frosting frosted) _ = _
    rw [defrost_expr, hthawed]
    rfl

/-- A call without positional arguments on an object without frosting is none itself. -/
lemma thawed?_chunkCall (hobject : frosted? object = none)
    (method label text name : String) (value : Expr) :
    thawed? (chunkCall object method label text name value) = none := by
  have hfrosted : frosted? (chunkCall object method label text name value) = none := by
    rw [frosted?, chunkCall, Expr.moduleCall?]
    split <;> simp_all
  have htext : frostedText? (chunkCall object method label text name value) = none := by
    rw [frostedText?.eq_def, chunkCall]
    split
    · simp_all
    · rfl
  rw [thawed?, hfrosted, htext]
  rfl

/-- A call on an object without frosting keeps its object, and its chunk becomes a literal. -/
lemma onExpr_chunkCall (hobject : ∀ part ∈ object.all, frosted? part = none)
    (h : Wraps chunk value) (method label text name : String) :
    defrost.onExpr (chunkCall object method label text name value) =
      .ok (chunkCall object method label text name (.bytes chunk)) := by
  have hfolded := Fold.onExpr_restores (restores_of_thawed? fun _ => thawed?_of_mem hobject)
  show defrost.expr (chunkCall object method label text name value) _ = _
  rw [defrost_expr, thawed?_chunkCall (hobject object object.mem_all)]
  simp only [Fold.onExpr, Fold.onExprs, Fold.onKeywords, Fold.onKeyword, hfolded, onExpr_wraps h]
  rfl

/-- The chunks among some nodes in a row. -/
def collected (nodes : List Node) : Bytes := ((Node.exprs nodes).filterMap chunk?).flatten

lemma collected_append (nodes rest : List Node) :
    collected (nodes ++ rest) = collected nodes ++ collected rest := by
  simp [collected, Node.exprs]

lemma collected_of_noCalls (h : NoCallNodes (s.visited fun _ => true)) :
    collected (s.visited isNoCall) = [] := by
  have hnone : (Node.exprs (s.visited isNoCall)).filterMap chunk? = [] := by
    refine List.filterMap_eq_nil_iff.mpr fun e he => ?_
    have hmem : e ∈ Node.exprs (s.visited fun _ => true) :=
      (s.visited_sublist.filterMap _).subset he
    cases e with
    | call func args keywords => exact absurd hmem (h func args keywords)
    | _ => rfl
  rw [collected, hnone]
  rfl

/-- A statement that adds a chunk becomes one that the chunk is collected from. -/
lemma onStmt_adds (h : Adds chunk s) :
    ∃ s', defrost.onStmt s = .ok [s'] ∧ collected (s'.visited isNoCall) = chunk := by
  cases h with
  | nothing hs =>
    refine ⟨s, Fold.onStmt_restores ⟨restores_of_thawed? fun e he => ?_, fun _ _ => rfl⟩,
      collected_of_noCalls hs⟩
    cases e with
    | call func args keywords => exact absurd he (hs func args keywords)
    | _ => rfl
  | @chunk _ object _ method label text name hobject hwraps =>
    refine ⟨.expr (chunkCall object method label text name (.bytes chunk)), ?_, ?_⟩
    · rw [Fold.onStmt, onExpr_chunkCall hobject hwraps]
      rfl
    · exact List.append_nil chunk

lemma chunks_eq (m : Module) : chunks m = collected (m.visited isNoCall) := rfl

lemma onBody_adds {cs : List Bytes} (h : List.Forall₂ Adds cs m) :
    ∃ m', defrost.onBody m = .ok m' ∧ chunks m' = cs.flatten := by
  induction h with
  | nil => exact ⟨[], rfl, rfl⟩
  | cons hfirst _ ih =>
    obtain ⟨s', hs', hchunk⟩ := onStmt_adds hfirst
    obtain ⟨m', hm', hchunks⟩ := ih
    refine ⟨s' :: m', by rw [Fold.onBody, hs', hm']; rfl, ?_⟩
    rw [chunks_eq] at hchunks ⊢
    rw [Module.visited, Stmt.visitedList, collected_append, hchunk, List.flatten_cons, ← hchunks]
    rfl

/-- Whatever statements a program is made of that add chunks, or nothing, it is peeled to the
program that its chunks hold in their order. -/
theorem peelOuter_collects {cs : List Bytes} {inflated : Bytes} {source : String}
    {program : Module} (hm : List.Forall₂ Adds cs m) (hne : cs.flatten ≠ [])
    (hz : Zlib.decompress cs.flatten = .ok inflated)
    (htext : Text.Utf8.decode inflated = .ok source) (hs : Module.parse source = .ok program) :
    peelOuter m = .ok (some program) := by
  obtain ⟨m', hm', hchunks⟩ := onBody_adds hm
  have hinflated : inflated = Text.Utf8.encode source := (Text.Utf8.decode_eq_ok_iff.mp htext).symm
  have hnonempty : ¬cs.flatten.isEmpty := by simpa using hne
  rw [peelOuter, hm']
  show (if (chunks m').isEmpty then _ else _) = _
  rw [hchunks, if_neg hnonempty, hz, hinflated]
  show (readOctets "second_layer" (Text.Utf8.encode source)).map some = _
  rw [readOctets_encode hs]
  rfl

/-- The program `f()` in two chunks with a statement between them, the second one frosted. -/
theorem peelOuter_collects_two :
    peelOuter [.expr (chunkCall (.name "a") "b" "c" "" "d" (.bytes [120, 1, 1, 3, 0, 252])),
        .assign [.name "e"] (.int 1),
        .expr (chunkCall (.name "a") "f" "c" "" "d" (frosting [120, 1, 1, 12, 0, 243, 255, 47, 50,
          89, 111, 75, 81, 71, 117, 65, 76, 103, 61, 23, 60, 3, 179]))] =
      .ok (some [.expr (.apply (.name "f") [])]) := by
  have hpacked : Zlib.decompress? [120, 1, 1, 12, 0, 243, 255, 47, 50, 89, 111, 75, 81, 71, 117, 65,
      76, 103, 61, 23, 60, 3, 179] = some [47, 50, 89, 111, 75, 81, 71, 117, 65, 76, 103, 61] := by
    decide +kernel
  have hchunk : Radix.decodeBase64 [47, 50, 89, 111, 75, 81, 71, 117, 65, 76, 103, 61] =
      .ok [255, 102, 40, 41, 1, 174, 0, 184] := by decide +kernel
  have hinflated : Zlib.decompress? [120, 1, 1, 3, 0, 252, 255, 102, 40, 41, 1, 174, 0, 184] =
      some [102, 40, 41] := by decide +kernel
  have hobject : ∀ part ∈ (Expr.name "a").all, frosted? part = none := by
    intro part hpart
    obtain rfl := List.mem_singleton.mp hpart
    rfl
  have hbetween : NoCallNodes ((Stmt.assign [.name "e"] (.int 1)).visited fun _ => true) := by
    intro func args keywords h
    simp [Node.exprs, Stmt.visited, Node.ofExprs, Expr.visitedList, Expr.visited, Expr.int] at h
  have hs : Module.parse "f()" = .ok [.expr (.apply (.name "f") [])] := rfl
  exact peelOuter_collects (.cons (.chunk hobject .plain) (.cons (.nothing hbetween)
    (.cons (.chunk hobject (.frosted (congrArg DecodeError.zlib.unlessSome hpacked) hchunk)) .nil)))
    (by decide) (congrArg DecodeError.zlib.unlessSome hinflated)
    (Text.Utf8.decode_eq_ok_iff.mpr (by decide)) hs

end Unmask.Hyperion
