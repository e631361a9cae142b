import Unmask.Proofs.FirstLiterals
import Unmask.Proofs.Places.Statements

/-!
# The literal of a scanned program

What a scan sees in the tree is looked for again in the text. A program whose only literal of octets
is the one that the scan saw has it written somewhere in its source, but the search finds what is
written there only if it is one piece, begins with a small `b` and a single quote, has no such quote
among its further characters, and if nothing in front of it looks like a literal.
-/
namespace Unmask.LzmaSpam

open Disguise Grammar Literal Text

section Rows

variable {parts : List (List Char)} {v : Bytes}

/-- Literals of which none is text are octets. -/
lemma exists_octets {values : List StringLiteral}
    (h : ∀ lit ∈ values, ∀ s, lit ≠ .text s) :
    ∃ octets : List Bytes, values = octets.map .bytes := by
  induction values with
  | nil => exact ⟨[], rfl⟩
  | cons lit values ih =>
    obtain ⟨octets, rfl⟩ := ih fun lit hlit => h lit (List.mem_cons_of_mem _ hlit)
    cases lit with
    | text s => exact absurd rfl (h (.text s) List.mem_cons_self s)
    | bytes b => exact ⟨b :: octets, rfl⟩

/-- Literals in a row are octets if each of them is. -/
lemma joinStrings?_eq_bytes_iff :
    joinStrings? parts = some (.bytes v) ↔ ∃ values : List Bytes, values ≠ [] ∧
      parts.mapM StringLiteral.decode? = some (values.map .bytes) ∧ values.flatten = v := by
  constructor
  · intro h
    obtain ⟨values, hvalues, h⟩ := Option.bind_eq_some_iff.mp h
    dsimp only at h
    split at h
    · injection h with h
      contradiction
    split at h
    · next hsome hnone =>
      obtain ⟨octets, rfl⟩ : ∃ octets : List Bytes, values = octets.map .bytes := by
        refine exists_octets fun lit hlit s heq => ?_
        have := List.filterMap_eq_nil_iff.mp (List.isEmpty_iff.mp hnone) lit hlit
        simp [heq] at this
      refine ⟨octets, ?_, hvalues, ?_⟩
      · rintro rfl
        exact hsome rfl
      · simpa [List.filterMap_map, Function.comp_def] using h
    · contradiction
  · rintro ⟨values, hne, hvalues, rfl⟩
    simpa [joinStrings?, hvalues, List.filterMap_map, Function.comp_def] using
      List.exists_mem_of_ne_nil values hne

end Rows

/-- The literals of octets in a tree. -/
def literals (m : Module) : List Bytes := (Node.exprs m.nodes).filterMap Expr.bytes?

/-- Whether an expression is a call with an argument. -/
def CallsWith (e arg : Expr) : Prop := ∃ func args ks, e = .call func args ks ∧ arg ∈ args

section Scanned

variable {e arg part : Expr} {v : Bytes} {m : Module} {source : String}

lemma mem_allOf {es : List Expr} (h : e ∈ es) (hpart : part ∈ e.all) : part ∈ Expr.allOf es := by
  induction es with
  | nil => contradiction
  | cons first es ih =>
    rcases List.mem_cons.mp h with rfl | h
    · exact List.mem_append_left _ hpart
    · exact List.mem_append_right _ (ih h)

/-- The parts of an argument are parts of the call. -/
lemma CallsWith.mem_all (h : CallsWith e arg) (hpart : part ∈ arg.all) : part ∈ e.all := by
  obtain ⟨func, args, ks, rfl, harg⟩ := h
  refine List.mem_cons_of_mem _ (List.mem_append_left _ (List.mem_append_right _ ?_))
  exact mem_allOf harg hpart

lemma callsWith_of_soleArgument? {id : String} (h : e.soleArgument? id = some arg) :
    CallsWith e arg := by
  unfold Expr.soleArgument? at h
  split at h
  · next f only ks =>
    obtain ⟨-, heq⟩ := Option.ite_none_right_eq_some.mp h
    exact ⟨.name f, [only], ks, rfl, List.mem_singleton.mpr (Option.some.inj heq).symm⟩
  · contradiction

lemma callsWith_of_dottedArgument? {object function : String}
    (h : e.dottedArgument? object function = some arg) : CallsWith e arg := by
  unfold Expr.dottedArgument? at h
  split at h
  · next only ks =>
    obtain ⟨-, heq⟩ := Option.ite_none_right_eq_some.mp h
    exact ⟨_, [only], ks, rfl, List.mem_singleton.mpr (Option.some.inj heq).symm⟩
  · contradiction

lemma callsWith_of_compiled? (h : compiled? e = some arg) : CallsWith e arg := by
  unfold compiled? at h
  split at h
  · obtain rfl := Option.some.inj h
    exact ⟨_, _, _, rfl, List.mem_cons_self⟩
  · contradiction

lemma callsWith_of_ran? (h : ran? e = some arg) : CallsWith e arg := by
  rcases Option.or_eq_some_iff.mp h with h | ⟨-, h⟩
  · exact callsWith_of_soleArgument? h
  · exact callsWith_of_soleArgument? h

/-- The literal of a payload is in it. -/
lemma mem_all_of_payload (h : ((ran? e).bind compiled?).bind packed? = some v) :
    .constant (.bytes v) ∈ e.all := by
  obtain ⟨code, h, hpacked⟩ := Option.bind_eq_some_iff.mp h
  obtain ⟨compiled, hran, hcompiled⟩ := Option.bind_eq_some_iff.mp h
  obtain ⟨encoded, h, hliteral⟩ := Option.bind_eq_some_iff.mp hpacked
  obtain ⟨decompressed, hdecompress, hdecode⟩ := Option.bind_eq_some_iff.mp h
  obtain rfl : encoded = .constant (.bytes v) := by
    unfold Expr.bytes? at hliteral
    split at hliteral <;> simp_all
  refine (callsWith_of_ran? hran).mem_all ((callsWith_of_compiled? hcompiled).mem_all ?_)
  refine (callsWith_of_dottedArgument? hdecompress).mem_all ?_
  exact (callsWith_of_dottedArgument? hdecode).mem_all (Expr.mem_all _)

/-- What a scan asks of a tree. -/
def accepts (m : Module) : Bool :=
  let stmts := Node.stmts m.nodes
  stmts.any (importsOnly "base64") && stmts.any (importsOnly "lzma") && stmts.any runsPayload

lemma scan_eq_accepts (hparse : Module.parse source = .ok m) : scan source = accepts m := by
  rw [scan, hparse]
  rfl

/-- A scan that succeeds has seen a payload. -/
lemma exists_payload (hscan : scan source = true) (hparse : Module.parse source = .ok m) :
    ∃ e v, .expr e ∈ Node.stmts m.nodes ∧ ((ran? e).bind compiled?).bind packed? = some v := by
  rw [scan_eq_accepts hparse] at hscan
  simp only [accepts, Bool.and_eq_true, List.any_eq_true] at hscan
  obtain ⟨-, s, hs, hruns⟩ := hscan
  unfold runsPayload at hruns
  split at hruns
  · next e =>
    obtain ⟨v, hv⟩ := Option.isSome_iff_exists.mp hruns
    exact ⟨e, v, hs, hv⟩
  · contradiction

lemma mem_literals_iff : v ∈ literals m ↔ .constant (.bytes v) ∈ Node.exprs m.nodes := by
  rw [literals, List.mem_filterMap]
  constructor
  · rintro ⟨e, he, hbytes⟩
    unfold Expr.bytes? at hbytes
    split at hbytes <;> simp_all
  · exact fun h => ⟨_, h, rfl⟩

/-- A literal of a program is written in its source, as a row of literals. -/
lemma exists_row (hparse : Module.parse source = .ok m) (hv : v ∈ literals m) :
    ∃ before cs parts, unifyLineEnds source.toList = before ++ cs ∧ InRow cs parts ∧
      ∃ values : List Bytes, values ≠ [] ∧
        parts.mapM StringLiteral.decode? = some (values.map .bytes) ∧ values.flatten = v := by
  obtain ⟨p, hwritten⟩ := Module.constants_written hparse (mem_literals_iff.mp hv)
  generalize hcs : (unifyLineEnds source.toList).drop p = cs at hwritten
  have hsource : unifyLineEnds source.toList = (unifyLineEnds source.toList).take p ++ cs := by
    rw [← hcs, List.take_append_drop]
  cases hwritten with
  | word hword => simp at hword
  | @strings parts _ _ hrow hvalue =>
    exact ⟨_, cs, parts, hsource, hrow, joinStrings?_eq_bytes_iff.mp hvalue⟩

end Scanned

section Taken

variable {source : String} {text : List Char} {v : Bytes}

lemma octets_eq_ok_iff :
    octets (firstLiteral? source) = .ok v ↔
      ∃ text, firstLiteral? source = some text ∧ StringLiteral.decode? text = some (.bytes v) := by
  unfold octets
  split
  · next h => simp [h]
  · next cs h =>
    split
    · next b hb => simp [h, hb]
    · next hb =>
      constructor
      · nofun
      · rintro ⟨text, heq, hdecode⟩
        obtain rfl : cs = text := Option.some.inj (h.symm.trans heq)
        exact absurd hdecode (hb v)

/-- A literal is missed just where none is seen. -/
lemma octets_missing_iff :
    octets (firstLiteral? source) = .error (Failure.missingMarker "bytes literal not found") ↔
      Hidden source.toList [] := by
  rw [← firstShown_eq_none_iff, ← firstLiteral?]
  unfold octets
  split
  · next h => simp [h]
  · next cs h =>
    rw [h]
    refine iff_of_false (fun heq => ?_) (Option.some_ne_none cs)
    split at heq
    · contradiction
    · have hkind : FailureKind.payload = .missingMarker :=
        congrArg Failure.kind (Except.error.inj heq)
      contradiction

/-- The octets that are taken are those of the first literal that is seen. -/
lemma octets_eq_ok_iff_shown :
    octets (firstLiteral? source) = .ok v ↔
      ∃ before row after, source.toList = before ++ (quoted row ++ after) ∧
        IsRow row ∧ Hidden before (quoted row ++ after) ∧
        StringLiteral.decode? (quoted row) = some (.bytes v) := by
  rw [octets_eq_ok_iff]
  constructor
  · rintro ⟨text, htext, hdecode⟩
    obtain ⟨before, row, after, hsource, rfl, hrow, hhidden⟩ := firstShown_eq_some_iff.mp htext
    exact ⟨before, row, after, hsource, hrow, hhidden, hdecode⟩
  · rintro ⟨before, row, after, hsource, hrow, hhidden, hdecode⟩
    have htext : firstLiteral? source = some (quoted row) :=
      firstShown_eq_some_iff.mpr ⟨before, row, after, hsource, rfl, hrow, hhidden⟩
    exact ⟨quoted row, htext, hdecode⟩

/-- What stands behind a text in which no literal is seen is taken if it looks like one. -/
lemma firstLiteral?_eq_some_iff_quoted {before behind : List Char}
    (hsource : unifyLineEnds source.toList = before ++ (text ++ behind))
    (hhidden : Hidden before (text ++ behind)) :
    firstLiteral? source = some text ↔ ∃ row, IsRow row ∧ text = quoted row := by
  rw [firstLiteral?_unifyLineEnds]
  constructor
  · intro h
    obtain ⟨_, row, _, _, rfl, hrow, _⟩ := firstShown_eq_some_iff.mp h
    exact ⟨row, hrow, rfl⟩
  · rintro ⟨row, hrow, rfl⟩
    exact firstShown_eq_some_iff.mpr ⟨before, row, behind, hsource, rfl, hrow, hhidden⟩

end Taken

/-- A program that runs what a literal holds. -/
def running (literal : String) : String :=
  "import base64\nimport lzma\nexec(compile(lzma.decompress(base64.b64decode(" ++ literal ++
    ")),'<string>','exec'))"

/-- What is scanned and read of a program with one literal. -/
lemma exists_scanned {source : String} {value : Bytes}
    (h : (Module.parse source).toOption.map (fun m => (accepts m, literals m)) =
      some (true, [value])) :
    scan source = true ∧ ∃ m, Module.parse source = .ok m ∧ literals m = [value] := by
  cases hparse : Module.parse source with
  | error e => simp [hparse, Except.toOption] at h
  | ok m =>
    rw [hparse] at h
    obtain ⟨haccepts, hvalue⟩ := Prod.mk.inj (Option.some.inj h)
    exact ⟨(scan_eq_accepts hparse).trans haccepts, m, rfl, hvalue⟩

/-- What is taken from the text of a scanned program with one literal, and what that literal is.
The scan has seen it, and it is written in the source as a row of literals. If it is written in one
piece and nothing in front of that looks like a literal, then this is what is taken just when it is
`b'`, a row in one line with no quote behind its first character, and a quote; its octets are taken
then. In all cases the first piece of the text that is written so is taken, whatever it is, and if
there is none the literal is missed. -/
theorem scanned_literal {source : String} {m : Module} {v : Bytes} (hscan : scan source = true)
    (hparse : Module.parse source = .ok m) (honly : literals m = [v]) :
    (∃ e, .expr e ∈ Node.stmts m.nodes ∧ ((ran? e).bind compiled?).bind packed? = some v) ∧
    (∃ before cs parts, unifyLineEnds source.toList = before ++ cs ∧ InRow cs parts ∧
      ∃ values : List Bytes, values ≠ [] ∧
        parts.mapM StringLiteral.decode? = some (values.map .bytes) ∧ values.flatten = v) ∧
    (∀ before text behind, unifyLineEnds source.toList = before ++ (text ++ behind) →
      StringLiteral.decode? text = some (.bytes v) → Hidden before (text ++ behind) →
      (firstLiteral? source = some text ↔ ∃ row, IsRow row ∧ text = quoted row) ∧
      (firstLiteral? source = some text →
        octets (firstLiteral? source) = .ok v ∧
        secondStage source = decoded (do unpackText (← Radix.decodeBase64 v)))) ∧
    (octets (firstLiteral? source) = .ok v ↔
      ∃ before row after, source.toList = before ++ (quoted row ++ after) ∧
        IsRow row ∧ Hidden before (quoted row ++ after) ∧
        StringLiteral.decode? (quoted row) = some (.bytes v)) ∧
    (octets (firstLiteral? source) = .error (Failure.missingMarker "bytes literal not found") ↔
      Hidden source.toList []) ∧
    (∀ f, octets (firstLiteral? source) = .error f → unmask source = .error f) := by
  refine ⟨?_, ?_, fun before text behind hsource hdecode hhidden => ⟨?_, fun htext => ?_⟩, ?_,
    octets_missing_iff, fun f hf => ?_⟩
  · obtain ⟨e, w, he, hw⟩ := exists_payload hscan hparse
    have hmem : w ∈ literals m := mem_literals_iff.mpr (Module.mem_exprs he (mem_all_of_payload hw))
    obtain rfl : w = v := by simpa [honly] using hmem
    exact ⟨e, he, hw⟩
  · exact exists_row hparse (honly ▸ List.mem_singleton_self v)
  · exact firstLiteral?_eq_some_iff_quoted hsource hhidden
  · have hoctets := octets_eq_ok_iff.mpr ⟨text, htext, hdecode⟩
    exact ⟨hoctets, by rw [secondStage, hoctets]; rfl⟩
  · exact octets_eq_ok_iff_shown
  · rw [unmask, secondStage, hf]
    rfl

/-- Between single quotes the literal is taken. -/
theorem scanned_literal_single :
    let source := running "b'QQ=='"
    let value : Bytes := [0x51, 0x51, 0x3D, 0x3D]
    (scan source = true ∧ ∃ m, Module.parse source = .ok m ∧ literals m = [value]) ∧
      octets (firstLiteral? source) = .ok value ∧
      ∃ before row after, source.toList = before ++ (quoted row ++ after) ∧ IsRow row ∧
        Hidden before (quoted row ++ after) ∧
        StringLiteral.decode? (quoted row) = some (.bytes value) := by
  intro source value
  have hscanned : scan source = true ∧ ∃ m, Module.parse source = .ok m ∧ literals m = [value] :=
    exists_scanned (by decide +kernel)
  have htaken : firstLiteral? source = some "b'QQ=='".toList := by decide +kernel
  have hvalue : StringLiteral.decode? "b'QQ=='".toList = some (.bytes value) := by decide +kernel
  have hok : octets (firstLiteral? source) = .ok value :=
    octets_eq_ok_iff.mpr ⟨_, htaken, hvalue⟩
  obtain ⟨hscan, m, hparse, honly⟩ := hscanned
  obtain ⟨-, -, -, hexact, -⟩ := scanned_literal hscan hparse honly
  exact ⟨⟨hscan, m, hparse, honly⟩, hok, hexact.mp hok⟩

/-- Between double quotes it is missed, though the scan has seen it. -/
theorem scanned_literal_double :
    let source := running "b\"QQ==\""
    let value : Bytes := [0x51, 0x51, 0x3D, 0x3D]
    (scan source = true ∧ ∃ m, Module.parse source = .ok m ∧ literals m = [value]) ∧
      unmask source = .error (Failure.missingMarker "bytes literal not found") := by
  intro source value
  have hnone : firstLiteral? source = none := by decide +kernel
  refine ⟨exists_scanned (by decide +kernel), ?_⟩
  rw [unmask, secondStage, hnone]
  rfl

end Unmask.LzmaSpam
