import Mathlib.Algebra.Group.Nat.Defs
import Mathlib.Data.List.Infix
import Unmask.Disguise.Basic

/-!
# Payloads of marshalled code

A constant of marshalled code is a mark, the length of the payload in four octets, the payload and
the trailer. If no other mark stands around a constant, its payload is found with two exceptions:
what stands at the usual place may look like another constant, and the search, which goes on behind
a payload only with headers that end behind the trailer, takes the last octets of the payload for
one if they hold the mark.
-/
namespace Unmask.Marshal

/-- The octets of a number, the lowest one first. -/
def octetsOf : Nat → Nat → Bytes
  | 0, _ => []
  | count + 1, n => UInt8.ofNat n :: octetsOf count (n / 256)

/-- A string constant as it stands in marshalled code. -/
def constant (payload : Bytes) : Bytes :=
  mark ++ octetsOf 4 payload.length ++ payload ++ trailer

/-- A constant stands at a place. -/
def Stands (data : Bytes) (place : Nat) (payload : Bytes) : Prop :=
  ∃ before behind, data = before ++ constant payload ++ behind ∧ before.length = place ∧
    payload.length < 2 ^ 32

lemma length_octetsOf (count n : Nat) : (octetsOf count n).length = count := by
  induction count generalizing n with
  | zero => rfl
  | succ count ih => rw [octetsOf, List.length_cons, ih]

lemma littleEndian_octetsOf {count n : Nat} (h : n < 256 ^ count) :
    Lzma.littleEndian (octetsOf count n) = n := by
  induction count generalizing n with
  | zero =>
    rw [Nat.pow_zero, Nat.lt_one_iff] at h
    rw [h]
    rfl
  | succ count ih =>
    have hrest : Lzma.littleEndian (octetsOf count (n / 256)) = n / 256 :=
      ih (Nat.div_lt_of_lt_mul (by rwa [Nat.pow_succ'] at h))
    rw [octetsOf, Lzma.littleEndian, List.foldr_cons]
    rw [Lzma.littleEndian] at hrest
    rw [hrest, UInt8.toNat_ofNat']
    omega

/-- Octets are those of the number that they make up. -/
lemma octetsOf_littleEndian (octets : Bytes) :
    octetsOf octets.length (Lzma.littleEndian octets) = octets ∧
      Lzma.littleEndian octets < 256 ^ octets.length := by
  induction octets with
  | nil => exact ⟨rfl, by decide⟩
  | cons o rest ih =>
    obtain ⟨hrest, hlt⟩ := ih
    have ho : o.toNat < 256 := o.toNat_lt
    have hvalue : Lzma.littleEndian (o :: rest) = Lzma.littleEndian rest * 256 + o.toNat := rfl
    refine ⟨?_, ?_⟩
    · rw [List.length_cons, octetsOf, hvalue]
      congr 1
      · rw [← UInt8.toNat_inj, UInt8.toNat_ofNat']
        omega
      · rw [show (Lzma.littleEndian rest * 256 + o.toNat) / 256 = Lzma.littleEndian rest by omega,
          hrest]
    · rw [List.length_cons, Nat.pow_succ, hvalue]
      omega

lemma payloadAtFront?_iff {length : Nat} {rest payload : Bytes} :
    payloadAtFront? length rest = some payload ↔
      payload.length = length ∧ ∃ behind, rest = payload ++ trailer ++ behind := by
  unfold payloadAtFront?
  constructor
  · intro h
    simp only [Option.ite_none_right_eq_some, Bool.and_eq_true, beq_iff_eq, Option.some.injEq] at h
    obtain ⟨⟨hlength, htrailer⟩, rfl⟩ := h
    have hbehind := List.take_append_drop trailer.length (rest.drop length)
    rw [htrailer] at hbehind
    refine ⟨hlength, (rest.drop length).drop trailer.length, ?_⟩
    rw [List.append_assoc, hbehind, List.take_append_drop]
  · rintro ⟨rfl, behind, rfl⟩
    simp [List.append_assoc]

/-- The octets begin with a header. -/
def Headed (data : Bytes) : Prop := mark <+: data ∧ 6 ≤ data.length

/-- What begins with a header is the mark, four octets and the rest. -/
lemma Headed.eq {data : Bytes} (h : Headed data) :
    ∃ a b c d rest, data = 0x02 :: 0x73 :: a :: b :: c :: d :: rest := by
  obtain ⟨⟨behind, rfl⟩, hlength⟩ := h
  simp only [List.length_append] at hlength
  match behind, hlength with
  | a :: b :: c :: d :: rest, _ => exact ⟨a, b, c, d, rest, rfl⟩

lemma constant_eq {payload : Bytes} (hlength : payload.length < 2 ^ 32) :
    ∃ a b c d, Lzma.littleEndian [a, b, c, d] = payload.length ∧ ∀ behind,
      constant payload ++ behind =
        0x02 :: 0x73 :: a :: b :: c :: d :: (payload ++ trailer ++ behind) := by
  obtain ⟨a, b, c, d, hfour⟩ : ∃ a b c d, octetsOf 4 payload.length = [a, b, c, d] :=
    ⟨_, _, _, _, rfl⟩
  refine ⟨a, b, c, d, ?_, fun behind => ?_⟩
  · rw [← hfour, littleEndian_octetsOf (by omega)]
  · rw [constant, hfour, mark]
    simp only [List.cons_append, List.nil_append, List.append_assoc]

/-- A payload is read where a constant stands. -/
lemma payloadOfHeader?_iff {data payload : Bytes} :
    payloadOfHeader? data = some payload ↔
      payload.length < 2 ^ 32 ∧ ∃ behind, data = constant payload ++ behind := by
  constructor
  · intro h
    unfold payloadOfHeader? at h
    split at h
    · next a b c d rest =>
      obtain ⟨hlength, behind, rfl⟩ := payloadAtFront?_iff.mp h
      obtain ⟨hoctets, hlt⟩ := octetsOf_littleEndian [a, b, c, d]
      rw [← hlength] at hoctets hlt
      have hfour : octetsOf 4 payload.length = [a, b, c, d] := hoctets
      refine ⟨by simpa using hlt, behind, ?_⟩
      simp [constant, hfour, mark]
    · contradiction
  · rintro ⟨hlength, behind, rfl⟩
    obtain ⟨a, b, c, d, hvalue, heq⟩ := constant_eq hlength
    rw [heq, payloadOfHeader?, hvalue, payloadAtFront?_iff]
    exact ⟨rfl, behind, rfl⟩

lemma stands_iff {data payload : Bytes} {place : Nat} :
    Stands data place payload ↔ payloadOfHeader? (data.drop place) = some payload := by
  rw [payloadOfHeader?_iff]
  constructor
  · rintro ⟨before, behind, rfl, rfl, hlength⟩
    refine ⟨hlength, behind, ?_⟩
    rw [List.append_assoc, List.drop_left]
  · rintro ⟨hlength, behind, hdrop⟩
    have hplace : place ≤ data.length := by
      by_contra hlt
      rw [List.drop_eq_nil_of_le (by omega)] at hdrop
      exact absurd hdrop.symm (by simp [constant, mark])
    refine ⟨data.take place, behind, ?_, List.length_take_of_le hplace, hlength⟩
    rw [List.append_assoc, ← hdrop, List.take_append_drop]

/-- A header stands at a place. -/
def HeaderAt (data : Bytes) (place : Nat) : Prop := Headed (data.drop place)

instance (data : Bytes) : DecidablePred (HeaderAt data) :=
  fun place => inferInstanceAs (Decidable (mark <+: data.drop place ∧ 6 ≤ (data.drop place).length))

/-- The first header from a place on. -/
def FirstHeader (data : Bytes) (start place : Nat) : Prop :=
  start ≤ place ∧ HeaderAt data place ∧ ∀ p, start ≤ p → p < place → ¬HeaderAt data p

/-- The headers that a search meets that goes on behind each of them. -/
inductive Met (data : Bytes) : Nat → Nat → Prop where
  | first {start place : Nat} (h : FirstHeader data start place) : Met data start place
  | later {start first place : Nat} (h : FirstHeader data start first)
    (hlater : Met data (first + 6) place) : Met data start place

/-- A search through the payload between two places meets a header that begins in it and does not
end before the trailer does. -/
def Straddled (data : Bytes) (start stop : Nat) : Prop :=
  ∃ place, Met data start place ∧ place < stop ∧ stop + trailer.length ≤ place + 6

section Met

variable {data : Bytes} {start first place : Nat}

lemma HeaderAt.length_le (h : HeaderAt data place) : place + 6 ≤ data.length := by
  have hlength := h.2
  rw [List.length_drop] at hlength
  omega

lemma FirstHeader.unique (h : FirstHeader data start place) (h' : FirstHeader data start first) :
    place = first := by
  obtain hlt | heq | hlt := Nat.lt_trichotomy place first
  · exact absurd h.2.1 (h'.2.2 place h.1 hlt)
  · exact heq
  · exact absurd h'.2.1 (h.2.2 first h'.1 hlt)

lemma firstHeader_self (h : HeaderAt data start) : FirstHeader data start start :=
  ⟨Nat.le_refl start, h, fun _ hp hlt => absurd hlt (Nat.not_lt.mpr hp)⟩

/-- Where there is no header the first one stands further on. -/
lemma firstHeader_succ (h : ¬HeaderAt data start) :
    FirstHeader data start place ↔ FirstHeader data (start + 1) place := by
  constructor
  · rintro ⟨hle, hplace, hfirst⟩
    have hne : start ≠ place := fun heq => h (heq ▸ hplace)
    exact ⟨by omega, hplace, fun p hp hlt => hfirst p (by omega) hlt⟩
  · rintro ⟨hle, hplace, hfirst⟩
    refine ⟨by omega, hplace, fun p hp hlt => ?_⟩
    obtain rfl | hne := eq_or_ne p start
    · exact h
    · exact hfirst p (by omega) hlt

lemma met_of_header (h : HeaderAt data start) :
    Met data start place ↔ place = start ∨ Met data (start + 6) place := by
  constructor
  · intro hmet
    cases hmet with
    | first hfirst => exact .inl (hfirst.unique (firstHeader_self h))
    | later hfirst hlater =>
      rw [hfirst.unique (firstHeader_self h)] at hlater
      exact .inr hlater
  · rintro (rfl | hlater)
    · exact .first (firstHeader_self h)
    · exact .later (firstHeader_self h) hlater

lemma met_succ (h : ¬HeaderAt data start) :
    Met data start place ↔ Met data (start + 1) place := by
  constructor
  · intro hmet
    cases hmet with
    | first hfirst => exact .first ((firstHeader_succ h).mp hfirst)
    | later hfirst hlater => exact .later ((firstHeader_succ h).mp hfirst) hlater
  · intro hmet
    cases hmet with
    | first hfirst => exact .first ((firstHeader_succ h).mpr hfirst)
    | later hfirst hlater => exact .later ((firstHeader_succ h).mpr hfirst) hlater

lemma Met.headerAt (h : Met data start place) : HeaderAt data place := by
  induction h with
  | first h => exact h.2.1
  | later _ _ ih => exact ih

lemma Met.le (h : Met data start place) : start ≤ place := by
  induction h with
  | first h => exact h.1
  | later h _ ih => exact h.1.trans ((Nat.le_add_right _ 6).trans ih)

end Met

lemma Stands.headerAt {data payload : Bytes} {place : Nat} (h : Stands data place payload) :
    HeaderAt data place := by
  obtain ⟨before, behind, rfl, rfl, hlength⟩ := h
  obtain ⟨a, b, c, d, -, heq⟩ := constant_eq hlength
  rw [HeaderAt, List.append_assoc, List.drop_left, heq]
  exact ⟨List.prefix_append mark _, by simp only [List.length_cons]; omega⟩

/-- Octets that are covered are left out. -/
lemma headersFrom_covered (covered position : Nat) (data : Bytes) :
    headersFrom covered position data = headersFrom 0 (position + covered) (data.drop covered) := by
  induction covered generalizing position data with
  | zero => rfl
  | succ covered ih =>
    cases data with
    | nil => rw [List.drop_nil, headersFrom, headersFrom]
    | cons o rest =>
      rw [headersFrom, ih, List.drop_succ_cons]
      congr 1
      omega

lemma headersFrom_header (position : Nat) (a b c d : UInt8) (rest : Bytes) :
    headersFrom 0 position (0x02 :: 0x73 :: a :: b :: c :: d :: rest) =
      ⟨position + 6, Lzma.littleEndian [a, b, c, d], rest⟩ ::
        headersFrom 0 (position + 6) rest := by
  rw [headersFrom, headersFrom_covered]
  rfl

lemma headersFrom_skip {position : Nat} {o : UInt8} {rest : Bytes} (h : ¬Headed (o :: rest)) :
    headersFrom 0 position (o :: rest) = headersFrom 0 (position + 1) rest := by
  rw [headersFrom]
  split
  · next a b c d behind heq =>
    refine absurd ⟨?_, ?_⟩ h
    · rw [heq]
      exact List.prefix_append mark _
    · rw [heq]
      simp only [List.length_cons]
      omega
  · rfl

/-- Octets in front of the first header are left out. -/
lemma headersFrom_skips {data : Bytes} {place : Nat} (hnone : ∀ p < place, ¬HeaderAt data p)
    (hplace : place ≤ data.length) :
    headersFrom 0 0 data = headersFrom 0 place (data.drop place) := by
  induction place with
  | zero => rfl
  | succ place ih =>
    have hhere := hnone place (Nat.lt_add_one place)
    rw [HeaderAt, List.drop_eq_getElem_cons hplace] at hhere
    rw [ih (fun p hp => hnone p (Nat.lt_add_right 1 hp)) (Nat.le_of_succ_le hplace),
      List.drop_eq_getElem_cons hplace, headersFrom_skip hhere]

/-- The search meets the headers that it should. -/
lemma mem_stops_iff {data : Bytes} {start stop : Nat} :
    stop ∈ (headersFrom 0 start (data.drop start)).map Header.stop ↔
      ∃ place, Met data start place ∧ place + 6 = stop := by
  induction hleft : data.length - start using Nat.strongRecOn generalizing start with
  | ind left ih =>
    by_cases hheader : HeaderAt data start
    · obtain ⟨a, b, c, d, rest, hdrop⟩ := hheader.eq
      have hrest : rest = data.drop (start + 6) := by
        rw [← List.drop_drop, hdrop]
        rfl
      have hlength := hheader.length_le
      rw [hdrop, headersFrom_header, hrest, List.map_cons, List.mem_cons, ih _ (by omega) rfl]
      simp only [met_of_header hheader, or_and_right, exists_or, exists_eq_left]
      rw [eq_comm]
    · by_cases hend : start < data.length
      · have hskip : headersFrom 0 start (data.drop start) =
            headersFrom 0 (start + 1) (data.drop (start + 1)) := by
          rw [HeaderAt, List.drop_eq_getElem_cons hend] at hheader
          rw [List.drop_eq_getElem_cons hend, headersFrom_skip hheader]
        rw [hskip, ih _ (by omega) rfl]
        simp only [met_succ hheader]
      · rw [List.drop_eq_nil_of_le (by omega), headersFrom, List.map_nil]
        refine ⟨fun h => absurd h List.not_mem_nil, ?_⟩
        rintro ⟨place, hmet, -⟩
        have hlength := hmet.headerAt.length_le
        have hle := hmet.le
        omega

lemma payloads?_eq_nil_iff {resume : Nat} {hs : List Header} :
    payloads? resume hs = some [] ↔ ∀ h ∈ hs, h.stop < resume := by
  induction hs with
  | nil => simp [payloads?]
  | cons h rest ih =>
    rw [payloads?, List.forall_mem_cons]
    split
    · next hlt => rw [ih, and_iff_right hlt]
    · next hle =>
      refine ⟨fun heq => ?_, fun hall => absurd hall.1 hle⟩
      obtain ⟨payload, -, hmap⟩ := Option.bind_eq_some_iff.mp heq
      obtain ⟨found, -, hcons⟩ := Option.map_eq_some_iff.mp hmap
      exact absurd hcons (List.cons_ne_nil payload found)

lemma searchPayload_of_cons {data payload : Bytes} {stop resume : Nat} {rest : List Header}
    {behind : Bytes} (hheaders : headers data = ⟨stop, payload.length, behind⟩ :: rest)
    (hfront : payloadAtFront? payload.length behind = some payload)
    (hresume : resume = stop + payload.length + trailer.length) :
    searchPayload data = .ok payload ↔ ∀ h ∈ rest, h.stop < resume := by
  rw [← payloads?_eq_nil_iff, searchPayload, hheaders, payloads?, if_neg (Nat.not_lt_zero stop),
    hfront, Option.bind_some, ← hresume]
  cases payloads? resume rest with
  | none => simp
  | some found =>
    cases found with
    | nil => simp
    | cons other found => simp

lemma mark_prefix_iff {data : Bytes} {place : Nat} :
    mark <+: data.drop place ↔ data[place]? = some 0x02 ∧ data[place + 1]? = some 0x73 := by
  have hzero : (data.drop place)[0]? = data[place]? := List.getElem?_drop
  have hone : (data.drop place)[1]? = data[place + 1]? := List.getElem?_drop
  rw [← hzero, ← hone]
  match data.drop place with
  | [] => simp [mark]
  | [a] => simp [mark]
  | a :: b :: rest => simp [mark, eq_comm]

lemma infix_of_mark {data : Bytes} {place : Nat} (hfirst : data[place]? = some 0x02)
    (hsecond : data[place + 1]? = some 0x73) : mark <:+: data :=
  (mark_prefix_iff.mpr ⟨hfirst, hsecond⟩).isInfix.trans (List.drop_suffix place data).isInfix

section Constant

variable {before behind payload : Bytes} {place : Nat}

/-- A mark in octets that begin with one stands at the front or behind it. -/
lemma mark_behind_front (front : Bytes) (hbefore : ¬mark <:+: before)
    (h : HeaderAt (before ++ (mark ++ front)) place) :
    place = before.length ∨ before.length + 2 ≤ place := by
  obtain ⟨hfirst, hsecond⟩ := mark_prefix_iff.mp h.1
  obtain hlt | heq | hlt := Nat.lt_trichotomy place before.length
  · obtain hinside | hedge : place + 1 < before.length ∨ place + 1 = before.length := by omega
    · rw [List.getElem?_append_left hlt] at hfirst
      rw [List.getElem?_append_left hinside] at hsecond
      exact absurd (infix_of_mark hfirst hsecond) hbefore
    · rw [hedge, List.getElem?_append_right (Nat.le_refl _), Nat.sub_self] at hsecond
      simp [mark] at hsecond
  · exact .inl heq
  · obtain heq | hle : place = before.length + 1 ∨ before.length + 2 ≤ place := by omega
    · rw [heq, List.getElem?_append_right (Nat.le_add_right _ 1),
        Nat.add_sub_cancel_left] at hfirst
      simp [mark] at hfirst
    · exact .inr hle

/-- There is no mark from the trailer on. -/
lemma mark_before_trailer (front : Bytes) (hbehind : ¬mark <:+: behind)
    (h : HeaderAt (front ++ (trailer ++ behind)) place) : place < front.length := by
  obtain ⟨hfirst, hsecond⟩ := mark_prefix_iff.mp h.1
  by_contra hle
  rw [Nat.not_lt] at hle
  obtain ⟨n, rfl⟩ := Nat.exists_eq_add_of_le hle
  rw [List.getElem?_append_right hle, Nat.add_sub_cancel_left] at hfirst
  rw [Nat.add_assoc, List.getElem?_append_right (Nat.le_add_right _ _),
    Nat.add_sub_cancel_left] at hsecond
  match n with
  | 0 => simp [trailer] at hfirst
  | 1 => simp [trailer] at hfirst
  | n + 2 => exact hbehind (infix_of_mark (by simpa [trailer] using hfirst)
      (by simpa [trailer] using hsecond))

/-- Without other marks around it a constant has the only one that is not within its length and
payload. -/
lemma mark_place (hbefore : ¬mark <:+: before) (hbehind : ¬mark <:+: behind)
    (h : HeaderAt (before ++ constant payload ++ behind) place) :
    place = before.length ∨
      before.length + 2 ≤ place ∧ place < before.length + 6 + payload.length := by
  have hlast := mark_before_trailer (before ++ mark ++ octetsOf 4 payload.length ++ payload) hbehind
    (by simpa only [constant, List.append_assoc] using h)
  have hfirst := mark_behind_front (octetsOf 4 payload.length ++ payload ++ trailer ++ behind)
    hbefore (by simpa only [constant, List.append_assoc] using h)
  simp only [List.length_append, length_octetsOf, mark, List.length_cons, List.length_nil] at hlast
  omega

/-- The search leaves out the octets in front of the constant. -/
lemma headers_constant (hlength : payload.length < 2 ^ 32) (hbefore : ¬mark <:+: before) :
    headers (before ++ constant payload ++ behind) =
      ⟨before.length + 6, payload.length, payload ++ trailer ++ behind⟩ ::
        headersFrom 0 (before.length + 6)
          ((before ++ constant payload ++ behind).drop (before.length + 6)) := by
  have hnone : ∀ p < before.length, ¬HeaderAt (before ++ constant payload ++ behind) p := by
    intro p hlt hheader
    have hplace := mark_behind_front (octetsOf 4 payload.length ++ payload ++ trailer ++ behind)
      hbefore (by simpa only [constant, List.append_assoc] using hheader)
    omega
  have hskip := headersFrom_skips hnone (by simp only [List.length_append]; omega)
  obtain ⟨a, b, c, d, hvalue, heq⟩ := constant_eq hlength
  rw [headers, hskip, ← List.drop_drop, List.append_assoc, List.drop_left, heq, headersFrom_header,
    hvalue]
  rfl

/-- What the search finds is the constant that the octets hold, unless it takes part of its payload
for a header. -/
lemma searchPayload_constant (hlength : payload.length < 2 ^ 32) (hbefore : ¬mark <:+: before)
    (hbehind : ¬mark <:+: behind) :
    searchPayload (before ++ constant payload ++ behind) = .ok payload ↔
      ¬Straddled (before ++ constant payload ++ behind) (before.length + 6)
        (before.length + 6 + payload.length) := by
  rw [searchPayload_of_cons (headers_constant hlength hbefore)
    (payloadAtFront?_iff.mpr ⟨rfl, behind, rfl⟩) rfl]
  rw [← List.forall_mem_map (P := (· < _))]
  constructor
  · rintro hall ⟨place, hmet, -, hstop⟩
    exact absurd (hall (place + 6) (mem_stops_iff.mpr ⟨place, hmet, rfl⟩)) (Nat.not_lt.mpr hstop)
  · intro hnone stop hmem
    obtain ⟨place, hmet, rfl⟩ := mem_stops_iff.mp hmem
    have hplace := mark_place hbefore hbehind hmet.headerAt
    have hstart := hmet.le
    by_contra hle
    exact hnone ⟨place, hmet, by omega, Nat.not_lt.mp hle⟩

/-- The payload is found if the usual place has a header for it, or for none and the search does not
take part of the payload for a header. What the usual place has a header for is the constant or
begins within its length and payload. -/
theorem findPayload_eq_ok_iff {data : Bytes} (hdata : data = before ++ constant payload ++ behind)
    (hlength : payload.length < 2 ^ 32) (hbefore : ¬mark <:+: before)
    (hbehind : ¬mark <:+: behind) :
    (findPayload data = .ok payload ↔
      Stands data usualPlace payload ∨
        (∀ other, ¬Stands data usualPlace other) ∧
          ¬Straddled data (before.length + 6) (before.length + 6 + payload.length)) ∧
    ((∃ other, Stands data usualPlace other) → usualPlace = before.length ∨
      before.length + 2 ≤ usualPlace ∧ usualPlace < before.length + 6 + payload.length) := by
  subst hdata
  refine ⟨?_, ?_⟩
  · unfold findPayload
    cases husual : payloadOfHeader? (List.drop usualPlace _) with
    | some found =>
      have hfound := stands_iff.mpr husual
      rw [or_iff_left (fun h => h.1 found hfound), stands_iff, husual, Except.ok.injEq,
        Option.some.injEq]
    | none =>
      have hnone : ∀ other, ¬Stands (before ++ constant payload ++ behind) usualPlace other := by
        intro other hother
        rw [stands_iff, husual] at hother
        contradiction
      rw [or_iff_right (hnone payload), and_iff_right hnone]
      exact searchPayload_constant hlength hbefore hbehind
  · rintro ⟨other, hother⟩
    exact mark_place hbefore hbehind hother.headerAt

end Constant

/-- A payload that begins with marks is found behind other octets. -/
theorem findPayload_marks_in_payload :
    (mark ++ mark ++ mark ++ [0, 0, 0, 0, 0]).length < 2 ^ 32 ∧ ¬mark <:+: [0x02] ∧
      ¬mark <:+: trailer ∧
      findPayload ([0x02] ++ constant (mark ++ mark ++ mark ++ [0, 0, 0, 0, 0]) ++ trailer) =
        .ok (mark ++ mark ++ mark ++ [0, 0, 0, 0, 0]) := by
  generalize hdata : [0x02] ++ constant (mark ++ mark ++ mark ++ [0, 0, 0, 0, 0]) ++ trailer = data
  have hlast : ∀ place < 18, 20 ≤ place + 6 → ¬HeaderAt data place := by
    rw [← hdata]
    decide
  have husual : ¬HeaderAt data usualPlace := by
    rw [← hdata]
    decide
  refine ⟨by decide, by decide, by decide, ?_⟩
  have hfound := findPayload_eq_ok_iff hdata.symm (by decide) (by decide) (by decide)
  refine hfound.1.mpr (.inr ⟨?_, ?_⟩)
  · exact fun other hother => husual hother.headerAt
  · rintro ⟨place, hmet, hplace, hstop⟩
    exact hlast place hplace hstop hmet.headerAt

/-- The last octets of a payload are taken for a header. -/
theorem findPayload_mark_near_trailer :
    ¬∀ before payload behind : Bytes, payload.length < 2 ^ 32 → ¬mark <:+: before →
      before.getLast? ≠ some 0x02 → ¬mark <:+: behind →
      ¬(before.length + 6 < usualPlace ∧ usualPlace < before.length + 6 + payload.length) →
        findPayload (before ++ constant payload ++ behind) = .ok payload := by
  intro hall
  have hfound := hall [] [0x02, 0x73, 0x61, 0x62] [] (by decide) (by decide) (by decide) (by decide)
    (by decide)
  have herror : findPayload ([] ++ constant [0x02, 0x73, 0x61, 0x62] ++ []) = .error
      ((Failure.payload "marshal length does not match its trailer").note "marshalled_bytes"
        (Diagnostic.bytes (constant [0x02, 0x73, 0x61, 0x62]))) := rfl
  rw [herror] at hfound
  contradiction

end Unmask.Marshal
