import Mathlib.Data.Char
import Mathlib.Data.List.Forall2
import Mathlib.Data.List.Nodup
import Unmask.Disguise.LzmaSpam
import Unmask.Proofs.TextMatches

/-!
# Pieces of a webhook

A program declares pieces of text under names of underscores, one behind the other, and names some
of them in what follows its last semicolon. Whatever the pieces hold between their quotes, the
declarations are read back as they were written, and the names are the runs of underscores that are
long enough.
-/
namespace Unmask.LzmaSpam

open Text

/-- The maximal runs of three or more underscores in a text. -/
def longRuns (cs : List Char) : List (List Char) :=
  (cs.splitOnP (· != '_')).filter (3 ≤ ·.length)

section Names

variable {rest : List Char}

lemma takeWhile_run (k : Nat) (h : rest.head? ≠ some '_') :
    (List.replicate k '_' ++ rest).takeWhile (· == '_') = List.replicate k '_' := by
  rw [List.takeWhile_append_of_pos fun c hc => beq_iff_eq.mpr (List.eq_of_mem_replicate hc)]
  cases rest with
  | nil => rw [List.takeWhile_nil, List.append_nil]
  | cons c rest =>
    have hc : (c == '_') = false := beq_eq_false_iff_ne.mpr fun heq => h (congrArg some heq)
    rw [List.takeWhile_cons, hc, if_neg Bool.false_ne_true, List.append_nil]

/-- A run is a name if it is long enough. -/
lemma name?_run (k : Nat) (h : rest.head? ≠ some '_') :
    name? (List.replicate k '_' ++ rest) =
      if k < 3 then none else some (List.replicate k '_', rest) := by
  rw [name?, takeWhile_run k h]
  simp only [List.length_replicate, List.drop_left' List.length_replicate]

lemma namesIn_short {k : Nat} (hk : k < 3) (h : rest.head? ≠ some '_') :
    namesIn (List.replicate k '_' ++ rest) = namesIn rest := by
  induction k with
  | zero => rfl
  | succ k ih =>
    have hnone := name?_run (k + 1) h
    rw [if_pos hk] at hnone
    rw [namesIn, List.replicate_succ, List.cons_append] at *
    rw [allMatches_of_none hnone]
    exact ih (by omega)

lemma namesIn_long {k : Nat} (hk : 3 ≤ k) (h : rest.head? ≠ some '_') :
    namesIn (List.replicate k '_' ++ rest) = List.replicate k '_' :: namesIn rest := by
  obtain ⟨k, rfl⟩ : ∃ j, k = j + 1 := ⟨k - 1, by omega⟩
  have hsome := name?_run (k + 1) h
  rw [if_neg (by omega)] at hsome
  exact allMatches_of_some hsome

/-- The names in a text are its long runs. -/
theorem namesIn_eq (cs : List Char) : namesIn cs = longRuns cs := by
  -- the run that reaches up to here grows until another character ends it
  suffices h : ∀ k,
      namesIn (List.replicate k '_' ++ cs) = longRuns (List.replicate k '_' ++ cs) from h 0
  have hmark (k : Nat) : ∀ c ∈ List.replicate k '_', (c != '_') = false := by
    intro c hc
    rw [List.eq_of_mem_replicate hc]
    rfl
  induction cs with
  | nil =>
    intro k
    have hnil : ([] : List Char).head? ≠ some '_' := by simp
    rw [longRuns, List.append_nil, List.splitOnP_eq_singleton (hmark k)]
    by_cases hk : 3 ≤ k
    · have := namesIn_long hk hnil
      rw [List.append_nil] at this
      rw [this, List.filter_cons_of_pos (by simpa using hk)]
      rfl
    · have := namesIn_short (by omega : k < 3) hnil
      rw [List.append_nil] at this
      rw [this, List.filter_cons_of_neg (by simpa using hk)]
      rfl
  | cons c cs ih =>
    intro k
    by_cases hc : c = '_'
    · have hgrow : List.replicate k '_' ++ c :: cs = List.replicate (k + 1) '_' ++ cs := by
        rw [hc, List.replicate_succ', List.append_assoc, List.singleton_append]
      rw [hgrow, ih (k + 1)]
    · have hhead : (c :: cs).head? ≠ some '_' := fun heq => hc (Option.some.inj heq)
      have hpass : namesIn (c :: cs) = longRuns cs := by
        have hnone := name?_run 0 hhead
        rw [if_pos (by omega)] at hnone
        exact (allMatches_of_none hnone).trans (ih 0)
      rw [longRuns, List.splitOnP_append_cons_of_forall_mem (hmark k) c (by simpa using hc)]
      by_cases hk : 3 ≤ k
      · rw [namesIn_long hk hhead, hpass, List.filter_cons_of_pos (by simpa using hk), longRuns]
      · rw [namesIn_short (by omega) hhead, hpass, List.filter_cons_of_neg (by simpa using hk),
          longRuns]

end Names

/-- A name of underscores and a piece of one line without quotes. -/
structure IsDeclaration (d : List Char × List Char) : Prop where
  name : ∃ k, 3 ≤ k ∧ d.1 = List.replicate k '_'
  nonempty : d.2 ≠ []
  unquoted : '"' ∉ d.2
  line : '\n' ∉ d.2

/-- A piece declared under its name. -/
def declare (d : List Char × List Char) : List Char := d.1 ++ '=' :: '"' :: (d.2 ++ ['"'])

/-- The declarations of pieces, and what follows them. -/
def program (ds : List (List Char × List Char)) (tail : List Char) : List Char :=
  [';'].intercalate (ds.map declare) ++ ';' :: tail

section Declarations

variable {d : List Char × List Char} {ds : List (List Char × List Char)} {after rest : List Char}

/-- No place before the closing quote ends a piece. -/
lemma IsDeclaration.shortestRow (h : IsDeclaration d)
    (hclose : closing? ('"' :: after) = some rest) :
    ShortestRow closing? d.2 ('"' :: after) rest where
  nonempty := h.nonempty
  line := h.line
  succeeds := hclose
  fails front back hcut _ hback := by
    obtain ⟨c, back, rfl⟩ := List.exists_cons_of_ne_nil hback
    have hc : c ≠ '"' := by
      rintro rfl
      exact h.unquoted (hcut ▸ List.mem_append_right front List.mem_cons_self)
    unfold closing?
    split <;> simp_all

/-- A declaration is read back where a semicolon or the end follows it. -/
lemma IsDeclaration.declaration?_eq (h : IsDeclaration d)
    (hclose : closing? ('"' :: after) = some rest) :
    declaration? (d.1 ++ '=' :: '"' :: (d.2 ++ '"' :: after)) = some (d, rest) := by
  obtain ⟨k, hk, hname⟩ := h.name
  have hfront : name? (d.1 ++ '=' :: '"' :: (d.2 ++ '"' :: after)) =
      some (d.1, '=' :: '"' :: (d.2 ++ '"' :: after)) := by
    rw [hname, name?_run k (by simp), if_neg (by omega)]
  have hrow : shortestRow? closing? (d.2 ++ '"' :: after) = some (d.2, rest) :=
    shortestRow?_eq_some_iff.mpr ⟨_, rfl, h.shortestRow hclose⟩
  rw [declaration?, hfront]
  simp only [Option.bind_eq_bind, Option.bind_some, afterFront?, beq_self_eq_true, if_true, hrow]
  rfl

/-- Behind a declaration the next one is looked for. -/
lemma IsDeclaration.allMatches_eq (h : IsDeclaration d) (covered : List Char)
    (hclose : closing? ('"' :: (covered ++ rest)) = some rest) :
    allMatches declaration? (d.1 ++ '=' :: '"' :: (d.2 ++ '"' :: (covered ++ rest))) =
      d :: allMatches declaration? rest := by
  obtain ⟨k, hk, hname⟩ := h.name
  obtain ⟨c, name, hcons⟩ : ∃ c name, d.1 = c :: name :=
    List.exists_cons_of_length_pos (by rw [hname, List.length_replicate]; omega)
  have hread := h.declaration?_eq hclose
  have hsplit : d.1 ++ '=' :: '"' :: (d.2 ++ '"' :: (covered ++ rest)) =
      c :: ((name ++ '=' :: '"' :: (d.2 ++ '"' :: covered)) ++ rest) := by
    rw [hcons]
    simp only [List.cons_append, List.append_assoc]
  rw [hsplit] at hread ⊢
  exact allMatches_of_some hread

/-- Declarations with semicolons between them are read back in their order. -/
lemma allMatches_declare (h : ∀ d ∈ ds, IsDeclaration d) :
    allMatches declaration? ([';'].intercalate (ds.map declare)) = ds := by
  induction ds with
  | nil => rfl
  | cons d ds ih =>
    have hd := h d List.mem_cons_self
    have hds := ih fun e he => h e (List.mem_cons_of_mem d he)
    cases ds with
    | nil =>
      rw [List.map_singleton, List.intercalate_singleton, declare]
      exact hd.allMatches_eq [] rfl
    | cons e ds =>
      have hsplit : [';'].intercalate ((d :: e :: ds).map declare) =
          d.1 ++ '=' :: '"' ::
            (d.2 ++ '"' :: ([';'] ++ [';'].intercalate ((e :: ds).map declare))) := by
        rw [List.map_cons, List.map_cons, List.intercalate_cons_cons, declare]
        simp only [List.cons_append, List.append_assoc, List.nil_append]
      rw [hsplit, hd.allMatches_eq [';'] rfl, hds]

lemma cut?_of_not_mem {c : Char} {before : List Char} (h : c ∉ before) (after : List Char) :
    cut? [c] (before ++ c :: after) = some (before, after) := by
  induction before with
  | nil => simp [cut?, afterFront?]
  | cons d before ih =>
    have hd : (c == d) = false := beq_eq_false_iff_ne.mpr fun heq => h (heq ▸ List.mem_cons_self)
    rw [List.cons_append, cut?, afterFront?, hd, if_neg Bool.false_ne_true,
      ih fun hmem => h (List.mem_cons_of_mem d hmem)]
    rfl

/-- The last semicolon of a program is the one in front of its tail. -/
lemma splitLast?_program (ds : List (List Char × List Char)) {tail : List Char} (h : ';' ∉ tail) :
    splitLast? (program ds tail) = some ([';'].intercalate (ds.map declare), tail) := by
  have hreverse : (program ds tail).reverse =
      tail.reverse ++ ';' :: ([';'].intercalate (ds.map declare)).reverse := by
    rw [program, List.reverse_append, List.reverse_cons, List.append_assoc, List.singleton_append]
  rw [splitLast?, hreverse, cut?_of_not_mem (by simpa using h)]
  simp only [Option.map_some, List.reverse_reverse]

end Declarations

section Joining

variable {ds : List (List Char × List Char)} {tail : List Char}

/-- Each name is declared with the piece at its place. -/
def Declares (ds : List (List Char × List Char)) (names pieces : List (List Char)) : Prop :=
  List.Forall₂ (fun name piece => (name, piece) ∈ ds) names pieces

/-- Of distinct names each has the one piece that it is declared with. -/
lemma lookup_reverse (h : (ds.map Prod.fst).Nodup) {name piece : List Char}
    (hmem : (name, piece) ∈ ds) : ds.reverse.lookup name = some piece := by
  obtain ⟨before, after, hsplit⟩ := List.append_of_mem (List.mem_reverse.mpr hmem)
  refine List.lookup_eq_some_iff.mpr ⟨before, after, hsplit, fun e he => ?_⟩
  have hdistinct : (ds.reverse.map Prod.fst).Nodup := by
    rw [List.map_reverse]
    exact List.nodup_reverse.mpr h
  rw [hsplit, List.map_append, List.map_cons] at hdistinct
  have hne : e.1 ≠ name :=
    (List.nodup_append.mp hdistinct).2.2 e.1 (List.mem_map_of_mem he) name List.mem_cons_self
  exact bne_iff_ne.mpr hne.symm

lemma lookup_eq_none (name : List Char) :
    ds.reverse.lookup name = none ↔ name ∉ ds.map Prod.fst := by
  rw [List.lookup_eq_none_iff]
  constructor
  · intro h hmem
    obtain ⟨d, hd, rfl⟩ := List.mem_map.mp hmem
    exact bne_iff_ne.mp (h d (List.mem_reverse.mpr hd)) rfl
  · intro h d hd
    refine bne_iff_ne.mpr ?_
    rintro rfl
    exact h (List.mem_map_of_mem (List.mem_reverse.mp hd))

lemma mapM_lookup {names pieces : List (List Char)} (h : (ds.map Prod.fst).Nodup)
    (hdeclared : Declares ds names pieces) :
    (names.mapM fun name => ds.reverse.lookup name) = some pieces := by
  induction hdeclared with
  | nil => rfl
  | cons hmem _ ih => rw [List.mapM_cons, lookup_reverse h hmem, ih]; rfl

lemma mapM_lookup_eq_none {names : List (List Char)} {name : List Char} (hmem : name ∈ names)
    (hfree : name ∉ ds.map Prod.fst) : (names.mapM fun name => ds.reverse.lookup name) = none := by
  induction names with
  | nil => contradiction
  | cons first names ih =>
    rw [List.mapM_cons]
    rcases List.mem_cons.mp hmem with rfl | hmem
    · rw [(lookup_eq_none name).mpr hfree]
      rfl
    · rw [ih hmem]
      cases ds.reverse.lookup first <;> rfl

/-- The pieces of names that are all declared. -/
lemma exists_declares {names : List (List Char)} (h : ∀ name ∈ names, name ∈ ds.map Prod.fst) :
    ∃ pieces, Declares ds names pieces := by
  induction names with
  | nil => exact ⟨[], .nil⟩
  | cons name names ih =>
    obtain ⟨d, hd, rfl⟩ := List.mem_map.mp (h name List.mem_cons_self)
    obtain ⟨pieces, hpieces⟩ := ih fun other hother => h other (List.mem_cons_of_mem d.1 hother)
    exact ⟨d.2 :: pieces, .cons hd hpieces⟩

lemma join_of_length {pieces : List (List Char)} (h : pieces.length ≠ 4) :
    join pieces =
      .error (Failure.payload s!"expected four webhook pieces, found {pieces.length}") := by
  unfold join
  split
  · contradiction
  · rfl

/-- A program whose names all have a piece gives what the pieces make up. -/
lemma assembleWebhook_of_pieces (hds : ∀ d ∈ ds, IsDeclaration d) (hne : tail ≠ [])
    (htail : ';' ∉ tail) {pieces : List (List Char)}
    (hpieces : ((longRuns tail).mapM fun name => ds.reverse.lookup name) = some pieces) :
    assembleWebhook (program ds tail) = join pieces := by
  have hfull : tail.isEmpty = false := List.isEmpty_eq_false_iff.mpr hne
  simp only [assembleWebhook, splitLast?_program ds htail, hfull, Bool.false_eq_true, if_false,
    namesIn_eq, declarations, allMatches_declare hds, hpieces]

lemma assembleWebhook_of_none (hds : ∀ d ∈ ds, IsDeclaration d) (hne : tail ≠ [])
    (htail : ';' ∉ tail)
    (hpieces : ((longRuns tail).mapM fun name => ds.reverse.lookup name) = none) :
    assembleWebhook (program ds tail) =
      .error (Failure.missingMarker "webhook piece is not declared") := by
  have hfull : tail.isEmpty = false := List.isEmpty_eq_false_iff.mpr hne
  simp only [assembleWebhook, splitLast?_program ds htail, hfull, Bool.false_eq_true, if_false,
    namesIn_eq, declarations, allMatches_declare hds, hpieces]

end Joining

lemma rot13_of_lt {c : Char} (h : 'z' < c) : rot13 c = c := by
  have hupper : ¬ c ≤ 'Z' := fun hle => absurd (lt_of_lt_of_le h hle) (by decide)
  have hm : ¬ c ≤ 'm' := fun hle => absurd (lt_of_lt_of_le h hle) (by decide)
  have hM : ¬ c ≤ 'M' := fun hle => absurd (lt_of_lt_of_le h hle) (by decide)
  simp [rot13, not_le_of_gt h, hupper, hm, hM]

/-- Rotating by half the alphabet twice changes nothing. -/
lemma rot13_involutive : Function.Involutive rot13 := by
  intro c
  rcases lt_or_ge 'z' c with h | h
  · rw [rot13_of_lt h, rot13_of_lt h]
  · have hall : ∀ n : Fin 0x7B, rot13 (rot13 (Char.ofNat n)) = Char.ofNat n := by
      decide +kernel
    have hlt : c.toNat < 0x7B := Nat.lt_succ_of_le (UInt32.le_iff_toNat_le.mp (Char.le_def.mp h))
    have hc := hall ⟨c.toNat, hlt⟩
    rwa [Char.ofNat_toNat] at hc

/-- The pieces of a text cut in four make up the text again. -/
lemma join_cut (a b c d : List Char) :
    join [a.map rot13, b, c.reverse, d] = .ok (a ++ b ++ c ++ d) := by
  rw [join, List.map_map, rot13_involutive.comp_self, List.map_id, List.reverse_reverse]

variable {ds : List (List Char × List Char)} {tail : List Char}

/-- A program whose tail names four declared pieces gives what they make up, in the order in which
they are named; a name without a declaration and another number of names are refused. What a text
cut in four is declared as gives the text. -/
theorem assembleWebhook_program (hds : ∀ d ∈ ds, IsDeclaration d)
    (hnames : (ds.map Prod.fst).Nodup) (hne : tail ≠ []) (htail : ';' ∉ tail) :
    (∀ a b c d, Declares ds (longRuns tail) [a, b, c, d] →
      assembleWebhook (program ds tail) = .ok (a.map rot13 ++ b ++ c.reverse ++ d)) ∧
    ((∃ name ∈ longRuns tail, name ∉ ds.map Prod.fst) →
      assembleWebhook (program ds tail) =
        .error (Failure.missingMarker "webhook piece is not declared")) ∧
    ((∀ name ∈ longRuns tail, name ∈ ds.map Prod.fst) → (longRuns tail).length ≠ 4 →
      assembleWebhook (program ds tail) =
        .error (Failure.payload
          s!"expected four webhook pieces, found {(longRuns tail).length}")) ∧
    Function.Involutive rot13 ∧
    (∀ a b c d, join [a.map rot13, b, c.reverse, d] = .ok (a ++ b ++ c ++ d)) ∧
    (∀ a b c d, Declares ds (longRuns tail) [a.map rot13, b, c.reverse, d] →
      assembleWebhook (program ds tail) = .ok (a ++ b ++ c ++ d)) := by
  refine ⟨fun a b c d h => ?_, fun ⟨name, hmem, hfree⟩ => ?_, fun hall hlength => ?_,
    rot13_involutive, join_cut, fun a b c d h => ?_⟩
  · exact assembleWebhook_of_pieces hds hne htail (mapM_lookup hnames h)
  · exact assembleWebhook_of_none hds hne htail (mapM_lookup_eq_none hmem hfree)
  · obtain ⟨pieces, hpieces⟩ := exists_declares hall
    have hcount : (longRuns tail).length = pieces.length := List.Forall₂.length_eq hpieces
    rw [assembleWebhook_of_pieces hds hne htail (mapM_lookup hnames hpieces), hcount]
    exact join_of_length (hcount ▸ hlength)
  · rw [assembleWebhook_of_pieces hds hne htail (mapM_lookup hnames h)]
    exact join_cut a b c d

/-- Names of which one begins with another, and pieces with semicolons and names in them. -/
theorem assembleWebhook_mixed :
    let ds : List (List Char × List Char) :=
      [("___".toList, "a;___".toList), ("____".toList, "=_;b".toList), ("_____".toList, [';'])]
    let tail := "f(____+___*_, __, _____,___)\n".toList
    ((∀ d ∈ ds, IsDeclaration d) ∧ (ds.map Prod.fst).Nodup ∧ tail ≠ [] ∧ ';' ∉ tail) ∧
    assembleWebhook (program ds tail) = .ok "=_;oa;___;a;___".toList := by
  intro ds tail
  have hds : ∀ d ∈ ds, IsDeclaration d := by
    refine List.forall_mem_cons.mpr ⟨?_, List.forall_mem_cons.mpr ⟨?_, ?_⟩⟩
    · exact ⟨⟨3, by decide, rfl⟩, by decide, by decide, by decide⟩
    · exact ⟨⟨4, by decide, rfl⟩, by decide, by decide, by decide⟩
    · exact List.forall_mem_singleton.mpr ⟨⟨5, by decide, rfl⟩, by decide, by decide, by decide⟩
  have hnames : (ds.map Prod.fst).Nodup := by decide
  have hne : tail ≠ [] := by decide
  have htail : ';' ∉ tail := by decide
  refine ⟨⟨hds, hnames, hne, htail⟩, ?_⟩
  refine (assembleWebhook_program hds hnames hne htail).1
    "=_;b".toList "a;___".toList [';'] "a;___".toList ?_
  exact .cons (by decide) (.cons (by decide) (.cons (by decide) (.cons (by decide) .nil)))

end Unmask.LzmaSpam
