import Mathlib.Tactic.Lemma
import Unmask.Disguise.Vare
import Unmask.Layers
import Unmask.Proofs.StoredStreams
import Unmask.Proofs.TextOctets

/-!
# Piles of scrambled texts

A text is marshalled as a mark, the number of its octets and the octets. A layer holds the stream of
a marshalled text in a row of writings, reversed in the middle; the outermost writing is read past
whatever is foreign to it.

The texts of the disguise lie below one another: each one that looks like a layer hides the next.
Peeling halts at the first text that does not look like one, at the first layer that cannot be
opened, or at the greatest number of layers. The texts are a pile as well, with one kind of layer
that is on every one of them, and peeling that pile comes to the same end.
-/
namespace Unmask

open Text Radix

namespace Marshal

/-- A text as a marshalled string. -/
def ofText (t : String) : Bytes :=
  0x73 :: (octetsOf 4 (Utf8.encode t).length ++ Utf8.encode t)

/-- What is read as a marshalled string are just the marshalled texts whose length has room. -/
theorem text?_eq_some_iff {b : Bytes} {t : String} :
    text? b = some t ↔ (Utf8.encode t).length < 2 ^ 32 ∧ b = ofText t := by
  constructor
  · intro h
    unfold text? at h
    split at h
    · next x y z w payload =>
      obtain ⟨hlength, hdecode⟩ := Option.ite_none_right_eq_some.mp h
      obtain ⟨hoctets, hlt⟩ := octetsOf_littleEndian [x, y, z, w]
      have htext : Utf8.encode t = payload := by
        cases hpayload : Utf8.decode payload with
        | error fault =>
          rw [hpayload] at hdecode
          contradiction
        | ok s =>
          rw [hpayload] at hdecode
          obtain rfl : s = t := Option.some.inj hdecode
          exact Utf8.decode_eq_ok_iff.mp hpayload
      rw [beq_iff_eq.mp hlength, ← htext] at hoctets hlt
      have hfour : octetsOf 4 (Utf8.encode t).length = [x, y, z, w] := hoctets
      exact ⟨by simpa using hlt, by rw [ofText, hfour, htext]; rfl⟩
    · contradiction
  · rintro ⟨hlength, rfl⟩
    obtain ⟨x, y, z, w, hfour⟩ : ∃ x y z w, octetsOf 4 (Utf8.encode t).length = [x, y, z, w] :=
      ⟨_, _, _, _, rfl⟩
    have hvalue : Lzma.littleEndian [x, y, z, w] = (Utf8.encode t).length := by
      rw [← hfour, littleEndian_octetsOf (by omega)]
    rw [ofText, hfour]
    simp only [List.cons_append, List.nil_append, text?, hvalue, beq_self_eq_true, if_true,
      Utf8.decode_eq_ok_iff.mpr rfl, Except.toOption]

end Marshal

/-- Octets with others in between that are neither symbols of base 64 nor padding. -/
inductive Interspersed : Bytes → Bytes → Prop where
  | nil : Interspersed [] []
  | keep (b : UInt8) {text data : Bytes} (h : Interspersed text data) :
      Interspersed (b :: text) (b :: data)
  | foreign {b : UInt8} (hsymbol : b ∉ symbols64) (hpadding : b ≠ padding) {text data : Bytes}
      (h : Interspersed text data) : Interspersed text (b :: data)

lemma Interspersed.refl (text : Bytes) : Interspersed text text := by
  induction text with
  | nil => exact .nil
  | cons b text ih => exact .keep b ih

/-- What is foreign to base 64 is left out. -/
lemma Interspersed.filter_eq {text data : Bytes} (h : Interspersed text data) :
    data.filter isBase64Symbol = text.filter isBase64Symbol := by
  induction h with
  | nil => rfl
  | keep b _ ih => rw [List.filter_cons, List.filter_cons, ih]
  | foreign hsymbol hpadding _ ih =>
    have hforeign := mt (isBase64Symbol_iff _).mp (not_or.mpr ⟨hsymbol, hpadding⟩)
    rw [List.filter_cons_of_neg hforeign, ih]

lemma Interspersed.decodeBase64_eq {text data : Bytes} (h : Interspersed text data) :
    decodeBase64 data = decodeBase64 text := by
  rw [decodeBase64, decodeBase64, h.filter_eq]

-- Padding is not foreign: it is kept, and shifts the groups behind it.
example : decodeBase64 (padding :: writing64.encode [0x41]) = .error .base64 := by decide +kernel

namespace Vare

/-- Octets in the row of writings of a layer. -/
def scramble (z : Bytes) : Bytes :=
  let inner := writing64.encode (writing32.encode z)
  let outer := writing64.encode (writing64.encode inner.reverse)
  writing64.encode (writing32.encode outer)

/-- The row of writings is undone, past what is foreign to the outermost one. -/
theorem unscramble_of_interspersed {z data : Bytes} (h : Interspersed (scramble z) data) :
    unscramble data = Zlib.decompress z := by
  rw [unscramble, h.decodeBase64_eq, scramble]
  simp only [decodeBase64_encode, decodeBase32_encode, List.reverse_reverse, bind, Except.bind]

/-- A scrambled text comes back, past what is foreign to the outermost writing, and nothing but
marshalled texts is read as a text. -/
theorem unscramble_text {t : String} {z data : Bytes} (hlength : (Utf8.encode t).length < 2 ^ 32)
    (hz : Zlib.decompress z = .ok (Marshal.ofText t)) (hdata : Interspersed (scramble z) data) :
    unscramble (scramble z) = .ok (Marshal.ofText t) ∧
      unscramble data = .ok (Marshal.ofText t) ∧
      Marshal.text? (Marshal.ofText t) = some t ∧
      textOf (Marshal.ofText t) = t ∧
      ∀ b s, Marshal.text? b = some s → b = Marshal.ofText s := by
  have htext := Marshal.text?_eq_some_iff.mpr ⟨hlength, rfl⟩
  refine ⟨?_, ?_, htext, ?_, fun b s hs => (Marshal.text?_eq_some_iff.mp hs).2⟩
  · rw [unscramble_of_interspersed (.refl _), hz]
  · rw [unscramble_of_interspersed hdata, hz]
  · rw [textOf, htext, Option.getD_some]

/-- A text that is stored, with a line feed in front of its outermost writing. -/
theorem unscramble_stored_text :
    let marshalled := Marshal.ofText "naïve"
    let scrambled := scramble (Zlib.store [] marshalled)
    (Utf8.encode "naïve").length < 2 ^ 32 ∧
      Zlib.decompress (Zlib.store [] marshalled) = .ok marshalled ∧
      Interspersed scrambled (0x0A :: scrambled) ∧
      unscramble (0x0A :: scrambled) = .ok marshalled := by
  have hlength : (Utf8.encode "naïve").length < 2 ^ 32 := by decide +kernel
  have hz : Zlib.decompress (Zlib.store [] (Marshal.ofText "naïve")) =
      .ok (Marshal.ofText "naïve") :=
    Zlib.decompress_store (by simp) (by decide +kernel)
  have hdata (text : Bytes) : Interspersed text (0x0A :: text) :=
    .foreign (by decide +kernel) (by decide) (.refl text)
  exact ⟨hlength, hz, hdata _, (unscramble_text hlength hz (hdata _)).2.1⟩

/-- The text so many layers below a text. -/
def below? (source : String) : Nat → Option String
  | 0 => some source
  | n + 1 => (below? source n).bind fun code => (peel code).toOption

/-- The text so many layers below, if all those above it look like layers. -/
structure Reaches (source : String) (n : Nat) (code : String) : Prop where
  below : below? source n = some code
  passed : ∀ i < n, ∀ above, below? source i = some above → scan above = true

/-- The failure of a text that may not be peeled any further. -/
def tooDeep : Failure :=
  .new .iterationLimitExceeded s!"vare did not finish within {maxLayers} layers"

/-- Peeling comes to a text so many layers below and ends there. -/
inductive Halts (source : String) : Nat → Except Failure String → Prop where
  | last {n : Nat} {code : String} (hn : n ≤ maxLayers) (h : Reaches source n code)
      (hscan : scan code = false) : Halts source n (.ok code)
  | refused {n : Nat} {code : String} {f : Failure} (hn : n < maxLayers) (h : Reaches source n code)
      (hscan : scan code = true) (hpeel : peel code = .error f) :
      Halts source n (.error (stop f n code))
  | limit {code : String} (h : Reaches source maxLayers code) (hscan : scan code = true) :
      Halts source maxLayers (.error (stop tooDeep maxLayers code))

variable {source code : String} {n steps : Nat}

lemma Reaches.next {inner : String} (h : Reaches source n code) (hscan : scan code = true)
    (hpeel : peel code = .ok inner) : Reaches source (n + 1) inner where
  below := by rw [below?, h.below, Option.bind_some, hpeel]; rfl
  passed i hi above habove := by
    obtain hlt | rfl := Nat.lt_succ_iff_lt_or_eq.mp hi
    · exact h.passed i hlt above habove
    · cases habove.symm.trans h.below
      exact hscan

/-- A text that is not the first lies below one that looks like a layer. -/
lemma Reaches.above {inner : String} (h : Reaches source (n + 1) inner) :
    ∃ code, Reaches source n code ∧ scan code = true ∧ peel code = .ok inner := by
  obtain ⟨code, hcode, hinner⟩ := Option.bind_eq_some_iff.mp h.below
  refine ⟨code, ⟨hcode, fun i hi => h.passed i (by omega)⟩, h.passed n (by omega) code hcode, ?_⟩
  cases hpeel : peel code with
  | ok next =>
    rw [hpeel] at hinner
    exact congrArg Except.ok (Option.some.inj hinner)
  | error f =>
    rw [hpeel] at hinner
    contradiction

lemma peelUpTo_last {limit : Nat} (n : Nat) (hscan : scan code = false) :
    peelUpTo limit n steps code = .ok code := by
  cases n <;> simp [peelUpTo, hscan]

lemma peelUpTo_limit (hscan : scan code = true) :
    peelUpTo maxLayers 0 steps code = .error (stop tooDeep steps code) := by
  simp [peelUpTo, hscan, tooDeep]

lemma peelUpTo_refused {limit : Nat} {f : Failure} (hscan : scan code = true)
    (hpeel : peel code = .error f) :
    peelUpTo limit (n + 1) steps code = .error (stop f steps code) := by
  simp [peelUpTo, hscan, hpeel]

lemma peelUpTo_next {limit : Nat} {inner : String} (hscan : scan code = true)
    (hpeel : peel code = .ok inner) :
    peelUpTo limit (n + 1) steps code = peelUpTo limit n (steps + 1) inner := by
  simp [peelUpTo, hscan, hpeel]

/-- What is left of a run halts where the whole run does. -/
lemma halts_peelUpTo (n : Nat) (h : Reaches source steps code) (hn : steps + n = maxLayers) :
    ∃ k, Halts source k (peelUpTo maxLayers n steps code) := by
  induction n generalizing steps code with
  | zero =>
    cases hscan : scan code with
    | false =>
      rw [peelUpTo_last 0 hscan]
      exact ⟨steps, .last (by omega) h hscan⟩
    | true =>
      obtain rfl : steps = maxLayers := hn
      rw [peelUpTo_limit hscan]
      exact ⟨maxLayers, .limit h hscan⟩
  | succ n ih =>
    cases hscan : scan code with
    | false =>
      rw [peelUpTo_last (n + 1) hscan]
      exact ⟨steps, .last (by omega) h hscan⟩
    | true =>
      cases hpeel : peel code with
      | error f =>
        rw [peelUpTo_refused hscan hpeel]
        exact ⟨steps, .refused (by omega) h hscan hpeel⟩
      | ok inner =>
        rw [peelUpTo_next hscan hpeel]
        exact ih (h.next hscan hpeel) (by omega)

/-- A whole run is what is left of it at each text that is reached. -/
lemma unmask_reaches (h : Reaches source n code) (hn : n ≤ maxLayers) :
    unmask source = peelUpTo maxLayers (maxLayers - n) n code := by
  induction n generalizing code with
  | zero =>
    cases h.below
    rfl
  | succ n ih =>
    obtain ⟨above, habove, hscan, hpeel⟩ := h.above
    have hleft : maxLayers - n = maxLayers - (n + 1) + 1 := by omega
    rw [ih habove (by omega), hleft, peelUpTo_next hscan hpeel]

lemma unmask_eq_iff {r : Except Failure String} :
    unmask source = r ↔ ∃ n, Halts source n r := by
  constructor
  · rintro rfl
    exact halts_peelUpTo maxLayers ⟨rfl, fun _ hi => absurd hi (Nat.not_lt_zero _)⟩ (Nat.zero_add _)
  · rintro ⟨n, h⟩
    cases h with
    | last hn h hscan => rw [unmask_reaches h hn, peelUpTo_last _ hscan]
    | limit h hscan =>
      rw [unmask_reaches h (Nat.le_refl maxLayers), Nat.sub_self, peelUpTo_limit hscan]
    | refused hn h hscan hpeel =>
      obtain ⟨k, hk⟩ := Nat.exists_eq_add_one.mpr (Nat.sub_pos_of_lt hn)
      rw [unmask_reaches h (Nat.le_of_lt hn), hk, peelUpTo_refused hscan hpeel]

/-- The pile of the texts: its one kind of layer is on every text. -/
def pile (name : String) : Pile String where
  title := "vare"
  layers := [⟨name, fun _ => true, fun code => (peel code).map some⟩]
  maxLayers := maxLayers

/-- A text that does not look like a layer is the last one. -/
def isLast (code : String) (_ : List String) : Bool := !scan code

/-- Two failures are one but for the evidence of the kinds of layers that were met. -/
structure SameFailure (f g : Failure) : Prop where
  kind : f.kind = g.kind
  message : f.message = g.message
  evidence : ∀ name, name ≠ "layer" → name ≠ "trail" →
    f.diagnostics.lookup name = g.diagnostics.lookup name

/-- A run on texts and one on the pile come to the same end: at the same text, or with the same
failure after as many layers at the same text. -/
inductive Agree : Except Failure String → Except (LayerFailure String) (Peeled String) → Prop where
  | ok {code : String} {trail : List String} : Agree (.ok code) (.ok ⟨code, trail⟩)
  | error {f : Failure} {g : LayerFailure String} (h : SameFailure f (g.toFailure id)) :
    Agree (.error f) (.error g)

variable {name : String}

/-- A note on the kinds of layers makes no difference. -/
lemma stop_note (f : Failure) {key : String} (hkey : key = "layer" ∨ key = "trail")
    (d : Diagnostic) :
    SameFailure (stop f steps code) (LayerFailure.toFailure id ⟨f.note key d, code, steps⟩) where
  kind := rfl
  message := rfl
  evidence name hlayer htrail := by
    have hne : name ≠ key := by
      rintro rfl
      exact hkey.elim hlayer htrail
    simp only [stop, LayerFailure.toFailure, Failure.lookup_note, if_neg hne, id]

lemma pile_peelOne (name code : String) (trail : List String) :
    (pile name).peelOne code trail =
      match peel code with
      | .ok inner => .ok (inner, name)
      | .error f => .error ⟨f.note "layer" (.text name), code, trail.length⟩ := by
  cases hpeel : peel code <;> simp [pile, Pile.peelOne, hpeel, Except.map]

/-- What is left of both runs comes to the same end. -/
lemma agree_peelUpTo (name : String) (n : Nat) (code : String) (trail : List String) :
    Agree (peelUpTo maxLayers n trail.length code) ((pile name).peelUpTo isLast n code trail) := by
  induction n generalizing code trail with
  | zero =>
    cases hscan : scan code with
    | false =>
      rw [peelUpTo_last 0 hscan, Pile.peelUpTo, isLast, hscan]
      exact .ok
    | true =>
      rw [peelUpTo_limit hscan, Pile.peelUpTo, isLast, hscan]
      exact .error (stop_note tooDeep (.inr rfl) _)
  | succ n ih =>
    cases hscan : scan code with
    | false =>
      rw [peelUpTo_last (n + 1) hscan, Pile.peelUpTo, isLast, hscan]
      exact .ok
    | true =>
      rw [Pile.peelUpTo, isLast, hscan, pile_peelOne]
      cases hpeel : peel code with
      | error f =>
        rw [peelUpTo_refused hscan hpeel]
        exact .error (stop_note f (.inl rfl) _)
      | ok inner =>
        have hrest := ih inner (trail ++ [name])
        rw [List.length_append, List.length_singleton] at hrest
        rw [peelUpTo_next hscan hpeel]
        exact hrest

/-- Peeling the texts and peeling their pile come to the same end. Peeling gives the first text that
does not look like a layer, if it lies within the limit; it fails with the failure of the first
layer that cannot be opened, if all texts down to there look like layers and it lies above the
limit; and it fails at the limit if all texts down to there look like layers. A failure that is
reported has the kind and the message of the one that was met, and tells the text at which peeling
stopped and how many layers lay above. -/
theorem unmask_exact (source : String) :
    (∀ name, Agree (unmask source) ((pile name).run source isLast)) ∧
    (∀ r, unmask source = r ↔ ∃ n, Halts source n r) ∧
    ∀ (f : Failure) (n : Nat) (code : String),
      (stop f n code).kind = f.kind ∧ (stop f n code).message = f.message ∧
      ∀ key, (stop f n code).diagnostics.lookup key =
        if key = "partial" then some (.text code)
        else if key = "steps" then some (.text (toString n))
        else f.diagnostics.lookup key := by
  refine ⟨fun name => agree_peelUpTo name maxLayers source [], fun r => unmask_eq_iff,
    fun f n code => ⟨rfl, rfl, fun key => ?_⟩⟩
  rw [stop, Failure.lookup_note, Failure.lookup_note]

end Vare

end Unmask
