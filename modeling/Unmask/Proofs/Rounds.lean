import Mathlib.Data.List.TakeWhile
import Unmask.Disguise.Fct

/-!
# Chains of rounds

What a round gives hands on the octets of a further round, in a call or in marshalled code, or the
rounds end there. Along a chain of rounds the unwinding opens one after the other: it comes to the
end of the chain if that many rounds are allowed, and else it stops at what the last allowed round
gave.
-/
namespace Unmask.Fct

/-- What a round gave hands on the octets of a further one: they stand in a call, behind which there
may be blanks, or else they are the payload of marshalled code, and not empty. -/
inductive HandsOn (opened hidden : Bytes) : Prop where
  | called {blanks : Bytes} (hblanks : ∀ b ∈ blanks, isAsciiBlank b = true)
      (h : opened = callFront ++ hidden ++ callBack ++ blanks) : HandsOn opened hidden
  | marshalled (hfront : ¬ callFront <+: opened) (h : Marshal.findPayload opened = .ok hidden)
      (hne : hidden ≠ []) : HandsOn opened hidden

/-- What a round gave is no call, and there is no payload in it, or an empty one. -/
structure Ends (opened : Bytes) : Prop where
  front : ¬ callFront <+: opened
  bare : (∃ failure, Marshal.findPayload opened = .error failure) ∨
    Marshal.findPayload opened = .ok []

variable {opened hidden : Bytes}

lemma afterFront?_eq_none {front cs : Bytes} (h : ¬ front <+: cs) :
    Text.afterFront? front cs = none := by
  rw [Option.eq_none_iff_forall_ne_some]
  intro rest hrest
  exact h ⟨rest, (Text.afterFront?_eq_some_iff.mp hrest).symm⟩

/-- The octets in a call are found again: its back ends in no blank. -/
lemma calledOn?_append (hidden : Bytes) {blanks : Bytes}
    (hblanks : ∀ b ∈ blanks, isAsciiBlank b = true) :
    calledOn? (hidden ++ callBack ++ blanks) = some hidden := by
  have hdrop : blanks.reverse.dropWhile isAsciiBlank = [] :=
    List.dropWhile_eq_nil_iff.mpr fun b hb => hblanks b (List.mem_reverse.mp hb)
  have hback : (callBack.reverse ++ hidden.reverse).dropWhile isAsciiBlank =
      callBack.reverse ++ hidden.reverse := by
    have hlast : callBack.reverse = 0x29 :: [0x29, 0x27] := by decide
    rw [hlast, List.cons_append, List.dropWhile_cons_of_neg (by decide)]
  have hrest : (hidden ++ callBack ++ blanks).reverse.dropWhile isAsciiBlank =
      callBack.reverse ++ hidden.reverse := by
    simp only [List.reverse_append]
    rw [List.dropWhile_append, hdrop]
    simpa using hback
  rw [calledOn?, hrest, Text.afterFront?_eq_some_iff.mpr rfl, Option.map_some,
    List.reverse_reverse]

lemma next?_handsOn (h : HandsOn opened hidden) : next? opened = .ok (some hidden) := by
  cases h with
  | @called blanks hblanks h =>
    have hfront : Text.afterFront? callFront opened = some (hidden ++ callBack ++ blanks) :=
      Text.afterFront?_eq_some_iff.mpr (by simp [h])
    rw [next?, hfront]
    dsimp only
    rw [calledOn?_append hidden hblanks]
  | marshalled hfront h hne =>
    rw [next?, afterFront?_eq_none hfront]
    simp [h, hne]

lemma next?_ends (h : Ends opened) : next? opened = .ok none := by
  rw [next?, afterFront?_eq_none h.front]
  obtain ⟨failure, hbare⟩ | hbare := h.bare <;> simp [hbare]

/-- A chain of `n` rounds: each opens the octets that what the one before gave hands on, and the
rounds end at what the last one gives. -/
structure Chain (n : Nat) (hidden opened : Nat → Bytes) : Prop where
  positive : 1 ≤ n
  opens : ∀ i < n, openRound (hidden i) = .ok (opened (i + 1))
  handsOn : ∀ i, 1 ≤ i → i < n → HandsOn (opened i) (hidden i)
  ends : Ends (opened n)

/-- What there is before a round. -/
def before (opened : Nat → Bytes) (i : Nat) : Bytes := if i = 0 then [] else opened i

/-- The failure when no further round is allowed. -/
def tooMany (limit : Nat) (opened : Bytes) : Failure :=
  (Failure.new .iterationLimitExceeded s!"payload still wrapped after {limit} rounds").note
    "marshalled_bytes" (.bytes opened)

section Chain

variable {n : Nat} {hidden opened : Nat → Bytes}

/-- From a place in a chain on, the unwinding comes to its end or to its last allowed round. -/
lemma unwindUpTo_chain (h : Chain n hidden opened) (limit : Nat) {k i : Nat} (hi : i < n) :
    unwindUpTo limit k (hidden i) (before opened i) =
      if n ≤ i + k then .ok (opened n) else .error (tooMany limit (before opened (i + k))) := by
  induction k generalizing i with
  | zero =>
    rw [unwindUpTo, if_neg (by omega)]
    rfl
  | succ k ih =>
    have hopen := h.opens i hi
    have hbefore : before opened (i + 1) = opened (i + 1) := rfl
    by_cases hlast : i + 1 = n
    · have hnext := next?_ends h.ends
      rw [← hlast] at hnext ⊢
      rw [if_pos (by omega)]
      simp only [unwindUpTo, bind, Except.bind, hopen, hnext]
      rfl
    · have hnext := next?_handsOn (h.handsOn (i + 1) (by omega) (by omega))
      have hplace : i + 1 + k = i + (k + 1) := by omega
      have hrest := ih (i := i + 1) (by omega)
      rw [hplace] at hrest
      simp only [unwindUpTo, bind, Except.bind, hopen, hnext]
      exact hrest

/-- Along a chain of rounds the unwinding gives what the last round gives if that many rounds are
allowed; else it fails with what the last allowed round gave, which is nothing if there was none. -/
theorem unwind_chain (h : Chain n hidden opened) (limit : Nat) :
    (n ≤ limit → unwind limit (hidden 0) = .ok (opened n)) ∧
    (limit < n → unwind limit (hidden 0) = .error (tooMany limit (before opened limit))) := by
  have hrun := unwindUpTo_chain h limit (k := limit) h.positive
  rw [Nat.zero_add] at hrun
  constructor
  · intro hlimit
    rwa [if_pos hlimit] at hrun
  · intro hlimit
    rwa [if_neg (Nat.not_le.mpr hlimit)] at hrun

end Chain

/-- What is opened in three rounds. -/
def hiddenSample (i : Nat) : Bytes :=
  Text.Utf8.encode <| match i with
    | 0 => "eRBsXrQKpcSZBVkQIFERq9ydKpnRBFUQBREM5oleCJ0YxIlQjd0Z5xkesVkWwY0QSVlRsRVasllM3JWbnIGKp8FKoM" ++
      "WZ4V2/8CwQBEAe"
    | 1 => "mbw2YliTlFURCF0ZElzLygGcBR1cBBzZ90DAAAAFzJw/jDAHBEAe"
    | _ => "==g0AsTAph2/9DgABEAe"

/-- What the three rounds give: a call, marshalled code, and a text. -/
def openedSample (i : Nat) : Bytes :=
  Text.Utf8.encode <| match i with
    | 1 => "exec((_)(b'mbw2YliTlFURCF0ZElzLygGcBR1cBBzZ90DAAAAFzJw/jDAHBEAe'))\n"
    | 2 => "\x02s\x14\x00\x00\x00==g0AsTAph2/9DgABEAeN)"
    | _ => "hi"

lemma ok_of_toOption {ε α : Type} {x : Except ε α} {a : α} (h : x.toOption = some a) :
    x = .ok a := by
  cases x with
  | ok b => exact congrArg Except.ok (Option.some.inj h)
  | error => exact nomatch h

lemma error_of_toOption {ε α : Type} {x : Except ε α} (h : x.toOption = none) :
    ∃ e, x = .error e := by
  cases x with
  | ok b => exact nomatch h
  | error e => exact ⟨e, rfl⟩

lemma chain_sample : Chain 3 hiddenSample openedSample where
  positive := by decide
  opens i hi := by
    have hopen : ∀ i < 3, (openRound (hiddenSample i)).toOption = some (openedSample (i + 1)) := by
      decide +kernel
    exact ok_of_toOption (hopen i hi)
  handsOn i hpositive hi := by
    obtain rfl | rfl : i = 1 ∨ i = 2 := by omega
    · have hblank : ∀ b ∈ [0x0A], isAsciiBlank b = true := List.forall_mem_singleton.mpr (by decide)
      exact .called hblank (by decide +kernel)
    · exact .marshalled (by decide +kernel) (ok_of_toOption (by decide +kernel)) (by decide +kernel)
  ends := ⟨by decide +kernel, .inl (error_of_toOption (by decide +kernel))⟩

/-- Three rounds are opened if three are allowed; if two are, the marshalled code is left over. -/
theorem unwind_three_rounds :
    Chain 3 hiddenSample openedSample ∧
    unwind 3 (hiddenSample 0) = .ok (Text.Utf8.encode "hi") ∧
    unwind 2 (hiddenSample 0) = .error (tooMany 2 (openedSample 2)) ∧
    unwind 0 (hiddenSample 0) = .error (tooMany 0 []) :=
  ⟨chain_sample, (unwind_chain chain_sample 3).1 (by decide),
    (unwind_chain chain_sample 2).2 (by decide), (unwind_chain chain_sample 0).2 (by decide)⟩

end Unmask.Fct
