import Unmask.Disguise.LzmaSpam
import Unmask.Proofs.TextMatches

/-!
# The first literal in a text

The first literal of octets is looked for in the text and not in the tree: it begins with `b` and a
quote, goes on in the same line for one character, whatever it is, and then up to the next quote.
-/
namespace Unmask.LzmaSpam

open Text

/-- What can stand between the quotes: a character and a row without quotes, all in one line. -/
structure IsRow (row : List Char) : Prop where
  nonempty : row ≠ []
  line : '\n' ∉ row
  unquoted : '\'' ∉ row.tail

/-- A row between quotes, behind the mark of octets. -/
def quoted (row : List Char) : List Char := 'b' :: '\'' :: (row ++ ['\''])

/-- Whether a literal is seen at the front of a text. -/
def Shown (cs : List Char) : Prop := ∃ row after, IsRow row ∧ cs = quoted row ++ after

variable {cs row literal : List Char} {source : String}

/-- The quote that ends a literal is the first one behind its first character. -/
lemma shortestRow_quote_iff {rest : List Char} :
    ShortestRow (fun rest => (afterFront? ['\''] rest).bind fun _ => some ()) row rest () ↔
      IsRow row ∧ ∃ after, rest = '\'' :: after := by
  have hrule (rest : List Char) :
      (afterFront? ['\''] rest).bind (fun _ => some ()) = some () ↔
        ∃ after, rest = '\'' :: after := by
    simp [Option.bind_eq_some_iff, afterFront?_eq_some_iff]
  have hnone (c : Char) (rest : List Char) :
      (afterFront? ['\''] (c :: rest)).bind (fun _ => some ()) = none ↔ '\'' ≠ c := by
    by_cases hc : '\'' = c <;> simp [afterFront?, hc]
  constructor
  · intro h
    refine ⟨⟨h.nonempty, h.line, fun hmem => ?_⟩, (hrule rest).mp h.succeeds⟩
    obtain ⟨c, tail, rfl⟩ := List.exists_cons_of_ne_nil h.nonempty
    obtain ⟨front, back, htail⟩ := List.append_of_mem hmem
    have hfail := h.fails (c :: front) ('\'' :: back) (congrArg (c :: ·) htail)
      (List.cons_ne_nil c front) (List.cons_ne_nil _ back)
    exact (hnone '\'' (back ++ rest)).mp hfail rfl
  · rintro ⟨h, hquote⟩
    refine ⟨h.nonempty, h.line, (hrule rest).mpr hquote, fun front back hcut hfront hback => ?_⟩
    obtain ⟨c, front, rfl⟩ := List.exists_cons_of_ne_nil hfront
    obtain ⟨d, back, rfl⟩ := List.exists_cons_of_ne_nil hback
    refine (hnone d (back ++ rest)).mpr ?_
    rintro rfl
    exact h.unquoted (hcut ▸ List.mem_append_right front List.mem_cons_self)

lemma literalAt?_eq_some_iff :
    literalAt? (fun _ => some ()) cs = some literal ↔
      ∃ row after, IsRow row ∧ literal = quoted row ∧ cs = quoted row ++ after := by
  simp only [literalAt?, Option.bind_eq_bind, Option.bind_eq_some_iff, afterFront?_eq_some_iff,
    Prod.exists]
  constructor
  · rintro ⟨rest, rfl, row, ⟨⟩, hrow, heq⟩
    obtain rfl := Option.some.inj heq
    obtain ⟨behind, rfl, hshort⟩ := shortestRow?_eq_some_iff.mp hrow
    obtain ⟨hline, after, rfl⟩ := shortestRow_quote_iff.mp hshort
    exact ⟨row, after, hline, rfl, by simp [quoted]⟩
  · rintro ⟨row, after, hrow, rfl, rfl⟩
    refine ⟨row ++ '\'' :: after, by simp [quoted], row, (), ?_, by simp [quoted]⟩
    exact shortestRow?_eq_some_iff.mpr ⟨_, rfl, shortestRow_quote_iff.mpr ⟨hrow, after, rfl⟩⟩

lemma literalAt?_eq_none_iff : literalAt? (fun _ => some ()) cs = none ↔ ¬Shown cs := by
  rw [← Option.not_isSome_iff_eq_none, Option.isSome_iff_exists]
  simp only [literalAt?_eq_some_iff, Shown]
  exact not_congr ⟨fun ⟨_, row, after, hrow, _, heq⟩ => ⟨row, after, hrow, heq⟩,
    fun ⟨row, after, hrow, heq⟩ => ⟨_, row, after, hrow, rfl, heq⟩⟩

/-- Whether no literal is seen in a text in front of what follows it. -/
def Hidden (before cs : List Char) : Prop :=
  ∀ front back, before = front ++ back → back ≠ [] → ¬Shown (back ++ cs)

/-- What is found first is what is seen behind a text in which no literal is seen. -/
theorem firstShown_eq_some_iff :
    firstMatch? (literalAt? fun _ => some ()) cs = some literal ↔
      ∃ before row after, cs = before ++ (quoted row ++ after) ∧ literal = quoted row ∧
        IsRow row ∧ Hidden before (quoted row ++ after) := by
  rw [firstMatch?_eq_some_iff]
  constructor
  · rintro ⟨before, rest, hcs, hplace⟩
    obtain ⟨row, after, hrow, rfl, rfl⟩ := literalAt?_eq_some_iff.mp hplace.succeeds
    exact ⟨before, row, after, hcs, rfl, hrow, fun front back hcut hne =>
      literalAt?_eq_none_iff.mp (hplace.fails front back hcut hne)⟩
  · rintro ⟨before, row, after, hcs, rfl, hrow, hhidden⟩
    exact ⟨before, _, hcs, literalAt?_eq_some_iff.mpr ⟨row, after, hrow, rfl, rfl⟩,
      fun front back hcut hne => literalAt?_eq_none_iff.mpr (hhidden front back hcut hne)⟩

/-- Nothing is seen at the end of a text. -/
lemma not_shown_nil : ¬Shown [] := by
  rintro ⟨row, after, -, heq⟩
  exact List.cons_ne_nil _ _ heq.symm

theorem firstShown_eq_none_iff :
    firstMatch? (literalAt? fun _ => some ()) cs = none ↔ Hidden cs [] := by
  rw [firstMatch?_eq_none_iff]
  constructor
  · intro h front back hcut _
    rw [List.append_nil]
    exact literalAt?_eq_none_iff.mp (h front back hcut)
  · intro h front back hcut
    refine literalAt?_eq_none_iff.mpr ?_
    by_cases hback : back = []
    · exact hback ▸ not_shown_nil
    · have := h front back hcut hback
      rwa [List.append_nil] at this

/-- The front of a text is read as it is, unless a line ends in it or next to it. -/
lemma isPrefix_unifyLineEnds {front : List Char} (hline : '\n' ∉ front)
    (hlast : front.getLast? ≠ some '\r') : front <+: unifyLineEnds cs ↔ front <+: cs := by
  fun_induction unifyLineEnds cs generalizing front with
  | case1 rest ih =>
    cases front with
    | nil => simp
    | cons d front =>
      have hd : d ≠ '\n' := fun heq => hline (heq ▸ List.mem_cons_self)
      cases front with
      | nil =>
        have hd' : d ≠ '\r' := fun heq => hlast (congrArg some heq)
        simp [hd, hd']
      | cons e front =>
        have he : e ≠ '\n' := fun heq => hline (heq ▸ by simp)
        simp [hd, he]
  | case2 c rest _ ih =>
    cases front with
    | nil => simp
    | cons d front =>
      rw [List.cons_prefix_cons, List.cons_prefix_cons]
      refine and_congr_right fun _ => ?_
      by_cases hfront : front = []
      · simp [hfront]
      · refine ih (fun hmem => hline (List.mem_cons_of_mem d hmem)) fun h => hlast ?_
        rw [List.getLast?_cons_of_ne_nil hfront, h]
  | case3 => rfl

lemma literalAt?_unifyLineEnds (cs : List Char) :
    literalAt? (fun _ => some ()) (unifyLineEnds cs) = literalAt? (fun _ => some ()) cs := by
  refine Option.ext fun literal => ?_
  rw [literalAt?_eq_some_iff, literalAt?_eq_some_iff]
  refine exists_congr fun row => ?_
  have hend : (quoted row).getLast? ≠ some '\r' := by
    show (('b' :: '\'' :: row) ++ ['\'']).getLast? ≠ some '\r'
    rw [List.getLast?_concat]
    decide
  have hfront (h : IsRow row) : quoted row <+: unifyLineEnds cs ↔ quoted row <+: cs :=
    isPrefix_unifyLineEnds (by simp [quoted, h.line]) hend
  constructor
  · rintro ⟨after, hrow, rfl, heq⟩
    obtain ⟨behind, heq⟩ := (hfront hrow).mp ⟨after, heq.symm⟩
    exact ⟨behind, hrow, rfl, heq.symm⟩
  · rintro ⟨after, hrow, rfl, heq⟩
    obtain ⟨behind, heq⟩ := (hfront hrow).mpr ⟨after, heq.symm⟩
    exact ⟨behind, hrow, rfl, heq.symm⟩

/-- How the lines of a source end does not matter to its first literal. -/
theorem firstLiteral?_unifyLineEnds (source : String) :
    firstLiteral? source =
      firstMatch? (literalAt? fun _ => some ()) (unifyLineEnds source.toList) := by
  have hline (c : Char) (rest : List Char) (hc : c ≠ 'b') :
      literalAt? (fun _ => some ()) (c :: rest) = none := by
    simp [literalAt?, afterFront?, hc.symm]
  rw [firstLiteral?]
  fun_induction unifyLineEnds source.toList with
  | case1 rest ih =>
    rw [firstMatch?, hline _ _ (by decide), firstMatch?, hline _ _ (by decide), firstMatch?,
      hline _ _ (by decide)]
    exact ih
  | case2 c rest hne ih =>
    have hunify : unifyLineEnds (c :: rest) = c :: unifyLineEnds rest := by
      rw [unifyLineEnds]
      exact hne
    rw [firstMatch?, firstMatch?, ← hunify, literalAt?_unifyLineEnds, ih]
  | case3 => rfl

end Unmask.LzmaSpam
