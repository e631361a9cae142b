import Mathlib.Data.List.Basic
import Unmask.Text.Basic

/-!
# Lower case is final

The lower case of a character may be several characters, and each of them is its own lower case. In
the table that is a matter of its runs: the partners of one run, which are in step with each other,
lie between the runs or are out of step with them.
-/
namespace Unmask.Text

open Property

/-- A code point is one of a run. -/
def inRun (r : CaseRun) (n : Nat) : Bool :=
  r.first ≤ n && n ≤ r.last && (n - r.first) % r.stride == 0

/-- The lower-case partner of a code point of a run. -/
def partner (r : CaseRun) (n : Nat) : Nat := (n + r.shift).toNat

/-- The steps in which a run goes: none if it is a single code point. -/
def step (r : CaseRun) : Nat := if r.first = r.last then 0 else r.stride

/-- The code points from `low` to `high` in such steps lie before a run or behind it, or they are
out of step with it. -/
def misses (low high step : Nat) (s : CaseRun) : Bool :=
  !Nat.ble s.first high || !Nat.ble low s.last ||
    (step % s.stride == 0 && (low - s.first) % s.stride != 0)

/-- The partners of a run are characters, and none of them is a capital or a blank of ASCII or the
dotted capital I. -/
def isProper (r : CaseRun) : Bool :=
  let low := partner r r.first
  let high := partner r r.last
  decide (0 ≤ r.first + r.shift) && (high < 0xD800 || 0xE000 ≤ low && high < 0x110000) &&
    (0x61 ≤ low && high ≤ 0x7A || 0x80 ≤ low && (high < 0x130 || 0x130 < low))

lemma runs_proper : lowerCaseRuns.toList.all isProper = true := by decide +kernel

lemma runs_miss : (lowerCaseRuns.toList.all fun r => lowerCaseRuns.toList.all fun s =>
    misses (partner r r.first) (partner r r.last) (step r) s) = true := by
  decide +kernel

variable {r s : CaseRun} {n : Nat}

lemma partner_bounds (hproper : isProper r = true) (h : inRun r n = true) :
    partner r r.first ≤ partner r n ∧ partner r n ≤ partner r r.last ∧
      partner r n = partner r r.first + (n - r.first) := by
  simp only [inRun, Bool.and_eq_true, decide_eq_true_eq] at h
  simp only [isProper, Bool.and_eq_true, decide_eq_true_eq] at hproper
  obtain ⟨⟨hpositive, -⟩, -⟩ := hproper
  unfold partner
  omega

/-- A code point of a run is a number of its steps behind the first one. -/
lemma step_dvd (h : inRun r n = true) : step r ∣ n - r.first := by
  simp only [inRun, Bool.and_eq_true, decide_eq_true_eq, beq_iff_eq] at h
  obtain ⟨⟨hfirst, hlast⟩, hstep⟩ := h
  unfold step
  split
  · next hsingle =>
    have hzero : n - r.first = 0 := by omega
    exact Nat.zero_dvd.mpr hzero
  · exact Nat.dvd_of_mod_eq_zero hstep

lemma not_inRun_partner (hproper : isProper r = true) (h : inRun r n = true)
    (hmisses : misses (partner r r.first) (partner r r.last) (step r) s = true) :
    inRun s (partner r n) = false := by
  obtain ⟨hlow, hhigh, hn⟩ := partner_bounds hproper h
  rw [Bool.eq_false_iff]
  intro hin
  simp only [inRun, Bool.and_eq_true, decide_eq_true_eq, beq_iff_eq] at hin
  obtain ⟨⟨hfirst, hlast⟩, hmod⟩ := hin
  simp only [misses, Bool.or_eq_true, Bool.not_eq_true', Bool.eq_false_iff, ne_eq, Nat.ble_eq,
    Bool.and_eq_true, beq_iff_eq, bne_iff_ne] at hmisses
  obtain (hbefore | hbehind) | ⟨hstep, hout⟩ := hmisses
  · omega
  · omega
  · -- a number of steps of the other run is added to the first partner, which is out of step
    have hdvd : s.stride ∣ n - r.first :=
      Nat.dvd_trans (Nat.dvd_of_mod_eq_zero hstep) (step_dvd h)
    have hbehind : s.first ≤ partner r r.first := by
      by_contra hlt
      rw [Nat.sub_eq_zero_of_le (Nat.le_of_not_le hlt), Nat.zero_mod] at hout
      contradiction
    have hsum : partner r n - s.first = (partner r r.first - s.first) + (n - r.first) := by omega
    rw [hsum, Nat.add_mod, Nat.mod_eq_zero_of_dvd hdvd, Nat.add_zero, Nat.mod_mod] at hmod
    exact hout hmod

variable {c d : Char}

/-- Above ASCII, and the dotted capital I apart, the runs decide. -/
lemma lowerCase_eq (hwide : ¬ c.toNat < 0x80) (hdotted : ¬ c.toNat = 0x130) :
    lowerCase c =
      match lowerCaseRuns.toList.find? fun r => inRun r c.toNat with
      | some r => [Char.ofNat (partner r c.toNat)]
      | none => [c] := by
  rw [Array.find?_toList]
  unfold lowerCase
  simp only [beq_iff_eq]
  rw [if_neg hwide, if_neg hdotted]
  simp only [inRun]
  cases lowerCaseRuns.find? fun r =>
      decide (r.first ≤ c.toNat) && decide (c.toNat ≤ r.last) &&
        (c.toNat - r.first) % r.stride == 0 with
  | none => rfl
  | some r => rfl

lemma lowerCase_of_not_inRun (hwide : ¬ c.toNat < 0x80) (hdotted : ¬ c.toNat = 0x130)
    (h : ∀ r ∈ lowerCaseRuns.toList, inRun r c.toNat = false) : lowerCase c = [c] := by
  have hnone : (lowerCaseRuns.toList.find? fun r => inRun r c.toNat) = none :=
    List.find?_eq_none.mpr (by simpa using h)
  rw [lowerCase_eq hwide hdotted, hnone]

/-- The lower case of ASCII. -/
lemma lowerCase_ascii : ∀ n : Fin 0x80, ∀ d ∈ lowerCase (Char.ofNat n),
    lowerCase d = [d] ∧ (d = ' ' → Char.ofNat n = ' ') := by
  decide +kernel

lemma toNat_partner (hproper : isProper r = true) (h : inRun r n = true) :
    (Char.ofNat (partner r n)).toNat = partner r n := by
  obtain ⟨hlow, hhigh, -⟩ := partner_bounds hproper h
  have hvalid : (partner r n).isValidChar := by
    simp only [isProper, Bool.and_eq_true, Bool.or_eq_true, decide_eq_true_eq] at hproper
    obtain ⟨⟨-, hrange⟩, -⟩ := hproper
    unfold Nat.isValidChar
    omega
  rw [Char.ofNat, dif_pos hvalid]
  rfl

/-- The partner of a character in a run is its own lower case. -/
lemma lowerCase_partner (hr : r ∈ lowerCaseRuns.toList) (h : inRun r n = true) :
    lowerCase (Char.ofNat (partner r n)) = [Char.ofNat (partner r n)] ∧
      Char.ofNat (partner r n) ≠ ' ' := by
  have hproper := List.all_eq_true.mp runs_proper r hr
  have hmisses := List.all_eq_true.mp (List.all_eq_true.mp runs_miss r hr)
  obtain ⟨hlow, hhigh, -⟩ := partner_bounds hproper h
  have hcode := toNat_partner hproper h
  have hplace : 0x61 ≤ partner r n ∧ partner r n ≤ 0x7A ∨
      0x80 ≤ partner r n ∧ partner r n ≠ 0x130 := by
    simp only [isProper, Bool.and_eq_true, Bool.or_eq_true, decide_eq_true_eq] at hproper
    omega
  have hblank : Char.ofNat (partner r n) ≠ ' ' := by
    intro heq
    have hspace : (' ' : Char).toNat = 0x20 := rfl
    rw [heq, hspace] at hcode
    omega
  refine ⟨?_, hblank⟩
  obtain ⟨hsmall, hletter⟩ | ⟨hwide, hdotted⟩ := hplace
  · have hlower : ∀ n < 0x7B, 0x61 ≤ n → lowerCase (Char.ofNat n) = [Char.ofNat n] := by decide
    exact hlower _ (by omega) hsmall
  · refine lowerCase_of_not_inRun (by omega) (by omega) fun s hs => ?_
    rw [hcode]
    exact not_inRun_partner hproper h (hmisses s hs)

/-- Lower case is final: it stays as it is, and a blank comes only of a blank. -/
theorem lowerCase_final (h : d ∈ lowerCase c) : lowerCase d = [d] ∧ (d = ' ' → c = ' ') := by
  by_cases hwide : c.toNat < 0x80
  · have hascii := lowerCase_ascii ⟨c.toNat, hwide⟩
    rw [Char.ofNat_toNat] at hascii
    exact hascii d h
  by_cases hdotted : c.toNat = 0x130
  · have hc : c = Char.ofNat 0x130 := by rw [← hdotted, Char.ofNat_toNat]
    have hfinal : ∀ d ∈ lowerCase (Char.ofNat 0x130), lowerCase d = [d] ∧ d ≠ ' ' := by
      decide +kernel
    rw [hc] at h
    obtain ⟨hlower, hblank⟩ := hfinal d h
    exact ⟨hlower, fun hd => absurd hd hblank⟩
  have hc := lowerCase_eq hwide hdotted
  cases hfind : lowerCaseRuns.toList.find? fun r => inRun r c.toNat with
  | none =>
    rw [hfind] at hc
    rw [hc, List.mem_singleton] at h
    rw [h]
    exact ⟨hc, id⟩
  | some r =>
    rw [hfind] at hc
    rw [hc, List.mem_singleton] at h
    have hin : inRun r c.toNat = true := List.find?_some (p := fun r => inRun r c.toNat) hfind
    obtain ⟨hlower, hblank⟩ := lowerCase_partner (List.mem_of_find?_eq_some hfind) hin
    rw [h]
    exact ⟨hlower, fun hd => absurd hd hblank⟩

end Unmask.Text
