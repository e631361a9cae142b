import Mathlib.Logic.Relation
import Unmask.Proofs.BuiltLayers

/-!
# The search for a mask

A layer tries the numbers below 256 in a row and runs the payload under the first one that passes
its test. Peeling computes that number at once. The two come to the same: at most one number passes
the test, and the computed one is an octet if and only if the search finds it.
-/
namespace Unmask.BlankObf
open Disguise Integer

namespace XorLoop

/-- Whether a number passes the test `left ^ i == right`. -/
def Hits (l : XorLoop) (i : Nat) : Prop := Arithmetic.Makes .bitXor l.left i l.right

/-- Where a loop stands: before a test, at its `break`, or behind its last number. -/
inductive Place where
  | before (i : Nat)
  | broken (i : Nat)
  | ended

/-- What a loop over `range(256)` does next. -/
inductive Step (l : XorLoop) : Place → Place → Prop
  | breaks {i : Nat} : i < 256 → l.Hits i → l.Step (.before i) (.broken i)
  | goesOn {i : Nat} : i < 256 → ¬l.Hits i → l.Step (.before i) (.before (i + 1))
  | ends : l.Step (.before 256) .ended

/-- The number at which a loop breaks off. -/
def StopsAt (l : XorLoop) (i : Nat) : Prop :=
  Relation.ReflTransGen l.Step (.before 0) (.broken i)

/-- No number passes the test of the loop. -/
def RunsOut (l : XorLoop) : Prop := Relation.ReflTransGen l.Step (.before 0) .ended

/-- Octets under a mask: the exclusive or with it, octet by octet. -/
def Masked (mask : Nat) : Bytes → Bytes → Prop :=
  List.Forall₂ fun o u => Arithmetic.Makes .bitXor o.toNat mask u.toNat

/-- What a loop runs on the payload under the mask. -/
def runOn (masked : Bytes) : Except Failure Module := do
  readOctets "next_layer"
    (← witnessed .ofDecodeError "xor_payload" (.bytes masked) (Zlib.decompress masked))

/-- What a failure says when no octet is the mask. -/
def noMask : String := "xor pad does not fit in a byte"

variable {l : XorLoop} {i j : Nat} {p q : Place} {pad : UInt8}

/-- What is known where a loop stands. -/
def Known (l : XorLoop) : Place → Prop
  | .before i => ∀ j < i, ¬l.Hits j
  | .broken i => i < 256 ∧ l.Hits i
  | .ended => ∀ j < 256, ¬l.Hits j

lemma known_of_step (h : l.Step p q) (hp : l.Known p) : l.Known q := by
  cases h with
  | breaks hi hhits => exact ⟨hi, hhits⟩
  | goesOn hi hmiss =>
    intro j hj
    rcases Nat.lt_succ_iff_lt_or_eq.mp hj with hlt | rfl
    · exact hp j hlt
    · exact hmiss
  | ends => exact hp

lemma known_of_run (h : Relation.ReflTransGen l.Step (.before 0) p) : l.Known p := by
  induction h with
  | refl => intro j hj; omega
  | tail _ hstep ih => exact known_of_step hstep ih

/-- The loop comes to every number that it has found nothing before. -/
lemma run_to (hi : i ≤ 256) (hmiss : ∀ j < i, ¬l.Hits j) :
    Relation.ReflTransGen l.Step (.before 0) (.before i) := by
  induction i with
  | zero => exact .refl
  | succ i ih =>
    have hbefore := ih (by omega) fun j hj => hmiss j (by omega)
    exact hbefore.tail (.goesOn (by omega) (hmiss i (by omega)))

lemma runsOut_iff : l.RunsOut ↔ ∀ i < 256, ¬l.Hits i :=
  ⟨known_of_run, fun hmiss => (run_to le_rfl hmiss).tail .ends⟩

/-- A mask is the exclusive or of what it is between. -/
lemma hits_iff : l.Hits i ↔ bitXor l.left l.right = i := by
  constructor
  · intro h
    refine mask_eq fun place => ?_
    rw [h place, ← Bool.xor_assoc, Bool.xor_self, Bool.false_xor]
  · intro h place
    rw [← h, digit_bitXor, ← Bool.xor_assoc, Bool.xor_self, Bool.false_xor]

lemma hits_unique (hi : l.Hits i) (hj : l.Hits j) : i = j :=
  Int.natCast_inj.mp ((hits_iff.mp hi).symm.trans (hits_iff.mp hj))

lemma stopsAt_iff : l.StopsAt i ↔ i < 256 ∧ l.Hits i := by
  refine ⟨known_of_run, fun ⟨hi, hhits⟩ => ?_⟩
  have hmiss : ∀ j < i, ¬l.Hits j := fun j hj hother => hj.ne (hits_unique hother hhits)
  exact (run_to hi.le hmiss).tail (.breaks hi hhits)

lemma pad?_of_hits (hi : i < 256) (h : l.Hits i) : l.pad? = some (UInt8.ofNat i) := by
  rw [pad?, hits_iff.mp h, octet?, if_pos (by simp; omega), Int.toNat_natCast]

lemma hits_of_pad? (h : l.pad? = some pad) : ∃ i < 256, l.Hits i := by
  rw [pad?, octet?] at h
  split at h
  · rename_i hoctet
    simp only [Bool.and_eq_true, decide_eq_true_eq] at hoctet
    exact ⟨(bitXor l.left l.right).toNat, by omega, hits_iff.mpr (by omega)⟩
  · cases h

/-- The payload under the computed octet is the payload under the mask. -/
lemma masked_ofNat (hi : i < 256) : Masked i l.payload (l.masked (UInt8.ofNat i)) := by
  rw [Masked, masked, List.forall₂_map_right_iff]
  refine List.forall₂_same.mpr fun o _ place => ?_
  rw [digit_natCast, digit_natCast, digit_natCast, UInt8.toNat_xor, Nat.testBit_xor,
    UInt8.toNat_ofNat_of_lt' hi]

/-- What is put in behind the first words of a message does not change how it starts. -/
lemma head_append {a b : String} {c : Char} (h : a.toList.head? = some c) :
    (a ++ b).toList.head? = some c := by
  rw [String.toList_append, List.head?_append, h]
  rfl

lemma head_noMask : noMask.toList.head? = some 'x' := by decide

lemma decodeError_ne_noMask (e : DecodeError) : e.message ≠ noMask := by
  intro h
  have hhead := (congrArg (·.toList.head?) h).trans head_noMask
  cases e with
  | base85Character position =>
    exact absurd ((head_append (c := 'b') (by decide)).symm.trans hhead) (by decide)
  | base85Overflow position =>
    exact absurd ((head_append (c := 'b') (by decide)).symm.trans hhead) (by decide)
  | utf8 fault =>
    exact absurd ((head_append (c := 'p') (by decide)).symm.trans hhead) (by decide)
  | _ => exact absurd hhead (by decide)

lemma syntaxError_ne_noMask (e : SyntaxError) : e.message ≠ noMask := by
  intro h
  have hhead := (congrArg (·.toList.head?) h).trans head_noMask
  cases e with
  | invalidSyntax line =>
    exact absurd ((head_append (c := 'i') (by decide)).symm.trans hhead) (by decide)
  | notAnExpression found =>
    exact absurd ((head_append (c := 'e') (by decide)).symm.trans hhead) (by decide)

/-- What is wrong with the payload under a mask is told in other words. -/
lemma runOn_ne_noMask {masked : Bytes} {f : Failure} (h : runOn masked = .error f) :
    f.message ≠ noMask := by
  rw [runOn] at h
  cases hinflated : witnessed .ofDecodeError "xor_payload" (.bytes masked)
      (Zlib.decompress masked) with
  | error f' =>
    rw [hinflated] at h
    obtain rfl : f' = f := Except.error.inj h
    obtain ⟨e, -, rfl⟩ := failure_of_witnessed hinflated
    exact decodeError_ne_noMask e
  | ok inflated =>
    rw [hinflated] at h
    obtain ⟨e, rfl⟩ | ⟨e, text, rfl⟩ := failure_of_readOctets h
    · exact decodeError_ne_noMask e
    · exact syntaxError_ne_noMask e

lemma run_of_stopsAt (h : l.StopsAt i) : l.run = runOn (l.masked (UInt8.ofNat i)) := by
  obtain ⟨hi, hhits⟩ := stopsAt_iff.mp h
  rw [run, pad?_of_hits hi hhits]
  rfl

lemma run_of_runsOut (h : l.RunsOut) : l.run = .error (Failure.payload noMask) := by
  rw [run]
  cases hpad : l.pad? with
  | none => rfl
  | some pad =>
    obtain ⟨i, hi, hhits⟩ := hits_of_pad? hpad
    exact absurd hhits (runsOut_iff.mp h i hi)

/-- A loop breaks off at a number, or it comes behind its last one. -/
lemma stopsAt_or_runsOut (l : XorLoop) : (∃ i, l.StopsAt i) ∨ l.RunsOut := by
  by_cases h : ∃ i < 256, l.Hits i
  · obtain ⟨i, hi, hhits⟩ := h
    exact .inl ⟨i, stopsAt_iff.mpr ⟨hi, hhits⟩⟩
  · exact .inr (runsOut_iff.mpr fun i hi hhits => h ⟨i, hi, hhits⟩)

end XorLoop

open XorLoop in
/-- Peeling a layer does what its loop does. The loop breaks off at the only number whose exclusive
or with `left` is `right`, and the payload is run under that mask; the failure that tells of no
mask comes up if and only if no number passes the test. -/
theorem peelXor_searches {m : Module} {l : XorLoop} (h : XorLoop.of? (foldConstants m) = some l) :
    (∀ i, l.StopsAt i ↔ i < 256 ∧ l.Hits i) ∧ (∀ i j, l.Hits i → l.Hits j → i = j) ∧
    (∀ i, l.StopsAt i → ∃ masked, Masked i l.payload masked ∧
      peelXor m = (runOn masked).map some) ∧
    (l.RunsOut ↔ ∀ i < 256, ¬l.Hits i) ∧
    (l.RunsOut → peelXor m = .error (Failure.payload noMask)) ∧
    ∀ f, peelXor m = .error f → f.message = noMask → l.RunsOut := by
  have hpeel : peelXor m = l.run.map some := by rw [peelXor, h]
  refine ⟨fun i => stopsAt_iff, fun i j => hits_unique, fun i hstops => ?_, runsOut_iff,
    fun hout => ?_, fun f hf hmessage => ?_⟩
  · exact ⟨_, masked_ofNat (stopsAt_iff.mp hstops).1, by rw [hpeel, run_of_stopsAt hstops]⟩
  · rw [hpeel, run_of_runsOut hout]
    rfl
  · obtain ⟨i, hstops⟩ | hout := stopsAt_or_runsOut l
    · rw [hpeel, run_of_stopsAt hstops] at hf
      cases hrun : runOn (l.masked (UInt8.ofNat i)) with
      | ok program => rw [hrun] at hf; cases hf
      | error f' =>
        rw [hrun] at hf
        obtain rfl : f' = f := Except.error.inj hf
        exact absurd hmessage (runOn_ne_noMask hrun)
    · exact hout

open XorLoop in
/-- Between -1 and -91 the loop breaks off at 90; between a number beyond all octets and -3 it runs
out. -/
theorem peelXor_searches_far :
    let near := xorLayer "key" "i" "o" (.unary .minus (.int 1)) (.unary .minus (.int 91)) [34, 91]
    let far := xorLayer "key" "i" "o" (.int (2 ^ 70)) (.unary .minus (.int 3)) [34, 91]
    (∃ l, XorLoop.of? (foldConstants near) = some l ∧ l.StopsAt 90 ∧ (∀ j, l.Hits j → j = 90) ∧
      ∃ masked, Masked 90 [34, 91] masked ∧ peelXor near = (runOn masked).map some) ∧
    ∃ l, XorLoop.of? (foldConstants far) = some l ∧ l.RunsOut ∧
      peelXor far = .error (Failure.payload noMask) := by
  intro near far
  have hnames : Fresh ["key", "i", "o"] := ⟨by decide, by decide⟩
  have hnear : XorLoop.of? (foldConstants near) = some ⟨-1, -91, [34, 91]⟩ :=
    xorLoop_of_layer hnames (.negated 1) (.negated 91) [34, 91]
  have hfar : XorLoop.of? (foldConstants far) = some ⟨2 ^ 70, -3, [34, 91]⟩ :=
    xorLoop_of_layer hnames (.literal _) (.negated 3) [34, 91]
  have hhits : XorLoop.Hits ⟨-1, -91, [34, 91]⟩ 90 := hits_iff.mpr (by decide)
  have hmiss : ∀ i < 256, ¬XorLoop.Hits ⟨2 ^ 70, -3, [34, 91]⟩ i := by
    intro i hi hhits
    have hfound : bitXor (2 ^ 70) (-3) = i := hits_iff.mp hhits
    have hvalue : bitXor (2 ^ 70) (-3) < 0 := by decide
    omega
  obtain ⟨hstops, hunique, hruns, -⟩ := peelXor_searches hnear
  obtain ⟨-, -, -, hends, hfails, -⟩ := peelXor_searches hfar
  have hstop := (hstops 90).mpr ⟨by decide, hhits⟩
  exact ⟨⟨_, hnear, hstop, fun j hj => hunique j 90 hj hhits, hruns 90 hstop⟩,
    _, hfar, hends.mpr hmiss, hfails (hends.mpr hmiss)⟩

end Unmask.BlankObf
