import Mathlib.Data.List.TakeWhile
import Unmask.Text.Basic

/-!
# Parts of texts

The pieces of a text between the occurrences of a character are just the pieces without that
character that it stands between. The core of a text is what it is without the blanks at its ends.
-/
namespace Unmask.Text

/-- The pieces between separators are found from the front. -/
lemma splitChars_eq (sep : Char) (cs : List Char) : splitChars sep cs = cs.splitOn sep := by
  have hsame (rows : List (List Char)) : rows.modifyHead (fun row => row) = rows := by
    cases rows <;> rfl
  have hfold (cs piece : List Char) (done : List (List Char)) :
      let found := cs.foldl (fun p c =>
        if c == sep then ([], p.1.reverse :: p.2) else (c :: p.1, p.2)) (piece, done)
      (found.1.reverse :: found.2).reverse =
        done.reverse ++ (cs.splitOn sep).modifyHead (piece.reverse ++ ·) := by
    induction cs generalizing piece done with
    | nil => simp
    | cons c cs ih =>
      rw [List.splitOn, List.splitOnP_cons_eq_if_modifyHead, ← List.splitOn]
      by_cases hc : c = sep
      · simpa [hc, hsame] using ih [] (piece.reverse :: done)
      · simpa [hc, List.modifyHead_modifyHead, Function.comp_def] using ih (c :: piece) done
  exact (hfold cs [] []).trans (hsame _)

lemma splitChars_cons (sep c : Char) (cs : List Char) :
    splitChars sep (c :: cs) =
      if c = sep then [] :: splitChars sep cs else (splitChars sep cs).modifyHead (c :: ·) := by
  simp only [splitChars_eq, List.splitOn, List.splitOnP_cons_eq_if_modifyHead, beq_iff_eq]

lemma exists_cons_of_splitChars (sep : Char) (cs : List Char) :
    ∃ first rest, splitChars sep cs = first :: rest := by
  rw [splitChars_eq]
  exact List.exists_cons_of_ne_nil (List.splitOnP_ne_nil _ cs)

/-- The last piece of a text and the first piece of the one behind it are one piece. -/
lemma splitChars_append {sep : Char} {as bs : List Char} {rows rows' : List (List Char)}
    {last first : List Char} (ha : splitChars sep as = rows ++ [last])
    (hb : splitChars sep bs = first :: rows') :
    splitChars sep (as ++ bs) = rows ++ (last ++ first) :: rows' := by
  induction as generalizing rows last with
  | nil =>
    obtain ⟨rfl, rfl⟩ : rows = [] ∧ last = [] := by
      rw [show splitChars sep [] = [] ++ [[]] from rfl] at ha
      exact (List.append_inj' ha rfl).imp Eq.symm fun h => (List.singleton_inj.mp h).symm
    exact hb
  | cons c as ih =>
    obtain ⟨x, xs, hrows⟩ := exists_cons_of_splitChars sep as
    rw [List.cons_append, splitChars_cons]
    rw [splitChars_cons, hrows] at ha
    split
    · next hc =>
      rw [if_pos hc] at ha
      cases rows with
      | nil => simp at ha
      | cons row rows =>
        obtain ⟨rfl, htail⟩ := List.cons.inj ha
        rw [ih (hrows.trans htail)]
        rfl
    · next hc =>
      rw [if_neg hc] at ha
      cases rows with
      | nil =>
        obtain ⟨rfl, rfl⟩ := List.cons.inj ha
        have hall : splitChars sep as = [] ++ [x] := hrows
        rw [ih hall]
        rfl
      | cons row rows =>
        obtain ⟨rfl, htail⟩ := List.cons.inj ha
        have hall : splitChars sep as = (x :: rows) ++ [last] :=
          hrows.trans (congrArg (x :: ·) htail)
        rw [ih hall]
        rfl

lemma not_mem_of_splitChars {sep : Char} {cs row : List Char} (h : row ∈ splitChars sep cs) :
    sep ∉ row := by
  induction cs generalizing row with
  | nil =>
    rw [List.mem_singleton.mp h]
    exact List.not_mem_nil
  | cons c cs ih =>
    obtain ⟨x, xs, hrows⟩ := exists_cons_of_splitChars sep cs
    rw [splitChars_cons] at h
    rw [hrows] at h ih
    split at h
    · rcases List.mem_cons.mp h with rfl | h
      · exact List.not_mem_nil
      · exact ih h
    · next hc =>
      rcases List.mem_cons.mp h with rfl | h
      · exact List.not_mem_cons_of_ne_of_not_mem (Ne.symm hc) (ih List.mem_cons_self)
      · exact ih (List.mem_cons_of_mem x h)

lemma splitChars_self {sep : Char} {row : List Char} (h : sep ∉ row) :
    splitChars sep row = [row] := by
  induction row with
  | nil => rfl
  | cons c row ih =>
    have hc : c ≠ sep := fun hc => h (hc ▸ List.mem_cons_self)
    rw [splitChars_cons, if_neg hc, ih fun hmem => h (List.mem_cons_of_mem c hmem)]
    rfl

lemma exists_concat_of_splitChars (sep : Char) (cs : List Char) :
    ∃ rows last, splitChars sep cs = rows ++ [last] := by
  obtain ⟨first, rest, h⟩ := exists_cons_of_splitChars sep cs
  exact ⟨_, _, h.trans (List.dropLast_concat_getLast (List.cons_ne_nil first rest)).symm⟩

/-- The pieces of a text are those without the separator that make up the text with it between
them. -/
lemma splitChars_eq_iff {sep : Char} {cs : List Char} {rows : List (List Char)} :
    splitChars sep cs = rows ↔
      rows ≠ [] ∧ (∀ row ∈ rows, sep ∉ row) ∧ [sep].intercalate rows = cs := by
  constructor
  · rintro rfl
    obtain ⟨first, rest, h⟩ := exists_cons_of_splitChars sep cs
    refine ⟨h ▸ List.cons_ne_nil first rest, fun row hrow => not_mem_of_splitChars hrow, ?_⟩
    rw [splitChars_eq, List.intercalate_splitOn]
  · rintro ⟨hne, hfree, rfl⟩
    rw [splitChars_eq, List.splitOn_intercalate sep hfree hne]

section Blanks

variable {text core row : List Char}

/-- What is left of a text without the blanks at both of its ends. -/
structure IsCore (text core : List Char) : Prop where
  around : ∃ left right, (∀ c ∈ left, isBlank c) ∧ (∀ c ∈ right, isBlank c) ∧
    text = left ++ (core ++ right)
  first : ∀ c ∈ core.head?, isBlank c = false
  last : ∀ c ∈ core.getLast?, isBlank c = false

lemma dropWhile_isBlank_self (h : ∀ c ∈ row.head?, isBlank c = false) :
    row.dropWhile isBlank = row := by
  cases row with
  | nil => rfl
  | cons c row => exact List.dropWhile_cons_of_neg (by simp [h c rfl])

lemma head?_dropWhile_isBlank : ∀ c ∈ (row.dropWhile isBlank).head?, isBlank c = false := by
  intro c hc
  have := List.head?_dropWhile_not isBlank row
  rw [Option.mem_def.mp hc] at this
  simpa using this

lemma IsCore.trimChars_eq (h : IsCore text core) : trimChars text = core := by
  obtain ⟨left, right, hleft, hright, rfl⟩ := h.around
  rw [trimChars, trimLeft, List.dropWhile_append_of_pos hleft]
  by_cases hcore : core = []
  · rw [hcore, List.nil_append, List.dropWhile_eq_nil_iff.mpr hright]
    rfl
  · obtain ⟨c, rest, rfl⟩ := List.exists_cons_of_ne_nil hcore
    have hfirst : (c :: rest ++ right).dropWhile isBlank = c :: rest ++ right :=
      dropWhile_isBlank_self h.first
    have hback : ∀ c ∈ right.reverse, isBlank c := fun c hc => hright c (List.mem_reverse.mp hc)
    have hlast : (c :: rest).reverse.dropWhile isBlank = (c :: rest).reverse :=
      dropWhile_isBlank_self (by rw [List.head?_reverse]; exact h.last)
    rw [hfirst, trimRight, List.reverse_append, List.dropWhile_append_of_pos hback, hlast,
      List.reverse_reverse]

lemma isCore_trimChars (text : List Char) : IsCore text (trimChars text) := by
  have hfront := List.takeWhile_append_dropWhile (p := isBlank) (l := text)
  have hback := List.takeWhile_append_dropWhile (p := isBlank) (l := (trimLeft text).reverse)
  have hsplit : trimLeft text =
      trimChars text ++ ((trimLeft text).reverse.takeWhile isBlank).reverse := by
    rw [trimChars, trimRight, ← List.reverse_append, hback, List.reverse_reverse]
  refine ⟨⟨text.takeWhile isBlank, ((trimLeft text).reverse.takeWhile isBlank).reverse,
    fun c hc => List.mem_takeWhile_imp hc, fun c hc => ?_, ?_⟩, fun c hc => ?_, fun c hc => ?_⟩
  · exact List.mem_takeWhile_imp (List.mem_reverse.mp hc)
  · rw [← hsplit]
    exact hfront.symm
  · have hhead : (text.dropWhile isBlank).head? = some c := by
      rw [← trimLeft, hsplit, List.head?_append, Option.mem_def.mp hc]
      rfl
    exact head?_dropWhile_isBlank c hhead
  · rw [trimChars, trimRight, List.getLast?_reverse] at hc
    exact head?_dropWhile_isBlank c hc

/-- Trimming leaves the core of a text. -/
lemma trimChars_eq_iff : trimChars text = core ↔ IsCore text core :=
  ⟨fun h => h ▸ isCore_trimChars text, IsCore.trimChars_eq⟩

lemma trimChars_eq_self (hfirst : ∀ c ∈ text.head?, isBlank c = false)
    (hlast : ∀ c ∈ text.getLast?, isBlank c = false) : trimChars text = text :=
  IsCore.trimChars_eq ⟨⟨[], [], by simp, by simp, by simp⟩, hfirst, hlast⟩

/-- Nothing is left of blanks. -/
lemma trimChars_isEmpty_iff : (trimChars row).isEmpty ↔ ∀ c ∈ row, isBlank c := by
  rw [List.isEmpty_iff, trimChars_eq_iff]
  constructor
  · rintro ⟨⟨left, right, hleft, hright, rfl⟩, -, -⟩ c hc
    exact (List.mem_append.mp hc).elim (hleft c) (hright c)
  · intro h
    exact ⟨⟨row, [], h, by simp, by simp⟩, by simp, by simp⟩

end Blanks

end Unmask.Text
