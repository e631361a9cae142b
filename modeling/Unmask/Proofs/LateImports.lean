import Unmask.Disguise.BlankObf.Layers
import Unmask.Proofs.KeptText
import Unmask.Proofs.Peeling

/-!
# Imports behind the first statement

A scan passes over the imports that a program begins with and looks at its body, the statements
behind them. Unmasking leaves out every import, those in the body too, and peels what is left. So
the two look at the same statements if and only if there is no import in the body, and that shows in
what unmasking gives: a body with an import has no known layer on it, and its text is longer than
that of what is left of it. No body that a scan accepts has an import, and there is a known layer on
each of them.
-/
namespace Unmask.BlankObf

open Disguise Printer Text

variable {source : String} {m imports body : Module}

/-- A program begins with imports, and the body behind them does not. -/
structure Opens (imports body m : Module) : Prop where
  eq_append : m = imports ++ body
  imports : ∀ s ∈ imports, isImport s = true
  body : ∀ s ∈ body.head?, isImport s = false

/-- Every program begins with imports, no import perhaps, and a body. -/
lemma opens_dropWhile (m : Module) : Opens (m.takeWhile isImport) (m.dropWhile isImport) m where
  eq_append := (List.takeWhile_append_dropWhile).symm
  imports _ hs := List.mem_takeWhile_imp hs
  body s hs := by
    have hhead := List.head?_dropWhile_not isImport m
    rw [hs] at hhead
    exact hhead

/-- What a scan looks at is the body. -/
lemma Opens.dropWhile_eq (h : Opens imports body m) : m.dropWhile isImport = body := by
  rw [h.eq_append, List.dropWhile_append_of_pos h.imports]
  cases body with
  | nil => rfl
  | cons s rest => exact List.dropWhile_cons_of_neg (by simp [h.body s rfl])

/-- What is peeled is the body without its imports. -/
lemma Opens.withoutImports_eq (h : Opens imports body m) :
    withoutImports m = withoutImports body := by
  have himports : imports.filter (!isImport ·) = [] :=
    List.filter_eq_nil_iff.mpr fun s hs => by simp [h.imports s hs]
  rw [withoutImports, h.eq_append, List.filter_append, himports]
  rfl

lemma withoutImports_eq_self_iff :
    withoutImports body = body ↔ ∀ s ∈ body, isImport s = false := by
  simp [withoutImports, List.filter_eq_self]

lemma scan_iff (hparse : Module.parse source = .ok m) (h : Opens imports body m) :
    scan source = true ↔
      isBase64Layer body = true ∨ imports = [] ∧ isXorLoop body = true := by
  have hlength : (body.length == m.length) = imports.isEmpty := by
    rw [h.eq_append, Bool.eq_iff_iff, beq_iff_eq, List.isEmpty_iff, List.length_append,
      Nat.right_eq_add, List.length_eq_zero_iff]
  simp only [scan, hparse, h.dropWhile_eq, hlength]
  simp

/-- No layer is on a program with an import. -/
lemma isImport_of_isOn {layer : Layer Module} (hlayer : layer ∈ pile.layers)
    (hon : layer.isOn m = true) : ∀ s ∈ m, isImport s = false := by
  have hshape : isBase64Layer m = true ∨ isXorLayer m = true ∨ isCompileLayer m = true := by
    simp only [pile, List.mem_cons, List.not_mem_nil, or_false] at hlayer
    obtain rfl | rfl | rfl := hlayer
    · exact .inl hon
    · exact .inr (.inl hon)
    · exact .inr (.inr hon)
  obtain h | h | h := hshape
  · unfold isBase64Layer at h
    split at h <;> simp_all [isImport]
  · unfold isXorLayer at h
    split at h <;> simp_all [isImport]
  · unfold isCompileLayer at h
    split at h <;> simp_all [isImport]

/-- There is a layer on a body that a scan accepts. -/
lemma exists_isOn_of_scan (hparse : Module.parse source = .ok m) (h : Opens imports body m)
    (hscan : scan source = true) : ∃ layer ∈ pile.layers, layer.isOn body = true := by
  obtain hbase64 | ⟨-, hxor⟩ := (scan_iff hparse h).mp hscan
  · exact ⟨_, List.mem_cons_self, hbase64⟩
  · refine ⟨_, List.mem_cons_of_mem _ List.mem_cons_self, ?_⟩
    unfold isXorLoop at hxor
    split at hxor
    · rfl
    · contradiction

/-- A failure because of what is hidden: it is damaged, or no program. -/
def Damaged (f : Failure) : Prop := f.kind = .payload ∨ f.kind = .invalidSyntax

variable {f : Failure}

lemma Damaged.ne (h : Damaged f) : f.kind ≠ .unrecognizedLayer := by
  intro hkind
  obtain h | h := h <;>
    · rw [hkind] at h
      contradiction

lemma map_eq_error {ε α β : Type} {r : Except ε α} {g : α → β} {e : ε}
    (h : r.map g = .error e) : r = .error e := by
  cases r with
  | ok a => cases h
  | error e' => exact congrArg Except.error (Except.error.inj h)

lemma damaged_of_readOctets {name : String} {octets : Bytes}
    (h : readOctets name octets = .error f) : Damaged f := by
  obtain ⟨e, rfl⟩ | ⟨e, text, rfl⟩ := failure_of_readOctets h
  · exact .inl rfl
  · exact .inr rfl

lemma damaged_of_nextLayer {octets : Option Bytes} (h : nextLayer octets = .error f) :
    Damaged f := by
  cases octets with
  | none => cases h
  | some octets => exact damaged_of_readOctets (map_eq_error h)

lemma damaged_of_run {l : XorLoop} (h : l.run = .error f) : Damaged f := by
  unfold XorLoop.run at h
  split at h
  · cases h
    exact .inl rfl
  · next pad hpad =>
    dsimp only at h
    cases hz : witnessed .ofDecodeError "xor_payload" (.bytes (l.masked pad))
        (Zlib.decompress (l.masked pad)) with
    | error f' =>
      rw [hz] at h
      cases h
      obtain ⟨e, -, rfl⟩ := failure_of_witnessed hz
      exact .inl rfl
    | ok octets =>
      rw [hz] at h
      exact damaged_of_readOctets h

/-- A layer fails because of what it hides. -/
lemma damaged_of_peel {layer : Layer Module} (hlayer : layer ∈ pile.layers)
    (h : layer.peel m = .error f) : Damaged f := by
  simp only [pile, List.mem_cons, List.not_mem_nil, or_false] at hlayer
  obtain rfl | rfl | rfl := hlayer
  · exact damaged_of_nextLayer h
  · change peelXor m = .error f at h
    unfold peelXor at h
    split at h
    · exact damaged_of_run (map_eq_error h)
    · cases h
  · exact damaged_of_nextLayer h

/-- The lines of statements that have something above them. -/
def linesBelow (m : Module) : List (List Char) := blockLines 0 "if" true m

lemma linesBelow_cons (s : Stmt) (m : Module) :
    linesBelow (s :: m) = lines 0 "if" true s ++ linesBelow m := rfl

/-- An import has a line of its own, which is not empty. -/
lemma lines_of_isImport {s : Stmt} (h : isImport s = true) :
    ∃ c cs, lines 0 "if" true s = [c :: cs] := by
  unfold isImport at h
  split at h
  · exact ⟨_, _, rfl⟩
  · exact ⟨_, _, rfl⟩
  · contradiction

lemma below_append (rows rows' : List (List Char)) :
    below (rows ++ rows') = below rows ++ below rows' := List.flatMap_append

/-- Each import that is left out takes two characters with it at least, its line end and a
letter. -/
lemma length_linesBelow (m : Module) :
    (below (linesBelow (withoutImports m))).length + 2 * m.countP isImport ≤
      (below (linesBelow m)).length := by
  induction m with
  | nil => simp [withoutImports]
  | cons s m ih =>
    cases hs : isImport s with
    | true =>
      obtain ⟨c, cs, hlines⟩ := lines_of_isImport hs
      have hrest : withoutImports (s :: m) = withoutImports m :=
        List.filter_cons_of_neg (by simp [hs])
      have hlength : (below [c :: cs]).length = cs.length + 2 := by simp [below]
      rw [hrest, List.countP_cons_of_pos hs, linesBelow_cons, hlines, below_append,
        List.length_append, hlength]
      omega
    | false =>
      have hrest : withoutImports (s :: m) = s :: withoutImports m :=
        List.filter_cons_of_pos (by simp [hs])
      rw [hrest, List.countP_cons_of_neg (by simp [hs])]
      simp only [linesBelow_cons, below_append, List.length_append]
      omega

lemma length_join (rows : List (List Char)) :
    (join ['\n'] rows).length = (below rows).length - 1 := by
  cases rows with
  | nil => rfl
  | cons first rest =>
    rw [join_lines]
    simp [below]

lemma length_text (s : Stmt) (m : Module) :
    (Module.chars (s :: m)).length =
      (below (lines 0 "if" false s)).length + (below (linesBelow m)).length - 1 := by
  rw [← List.length_append, ← below_append, ← length_join]
  rfl

/-- A program that begins with another statement begins with it without its imports too. -/
lemma withoutImports_cons {s : Stmt} {rest : Module} (h : isImport s = false) :
    withoutImports (s :: rest) = s :: withoutImports rest :=
  List.filter_cons_of_pos (by simp [h])

/-- The text of a body tells whether imports were left out. -/
lemma text_withoutImports_ne (hhead : ∀ s ∈ body.head?, isImport s = false)
    (hlate : ∃ s ∈ body, isImport s = true) : (withoutImports body).text ≠ body.text := by
  intro heq
  have hchars : (withoutImports body).chars = body.chars := String.ofList_inj.mp heq
  cases body with
  | nil => simp at hlate
  | cons s rest =>
    have hs := hhead s rfl
    have hcount : 0 < (s :: rest).countP isImport := List.countP_pos_iff.mpr hlate
    have hlength := congrArg List.length hchars
    rw [withoutImports_cons hs, length_text, length_text] at hlength
    rw [List.countP_cons_of_neg (by simp [hs])] at hcount
    have := length_linesBelow rest
    omega

/-- What peeling a body gives: the text of the innermost program, or why it is not reached. -/
def peeled (body : Module) : Except Failure String :=
  match pile.run body fun m _ => hasBanner m with
  | .ok p => .ok p.program.text
  | .error f => .error (f.toFailure Module.text)

lemma unmask_eq_peeled (hparse : Module.parse source = .ok m) :
    unmask source = peeled (withoutImports m) := by
  rw [unmask, hparse, peeled]
  cases hrun : pile.run (withoutImports m) fun m _ => hasBanner m <;>
    simp [Except.mapError, bind, Except.bind, hrun, pure, Except.pure]

lemma peeled_of_banner (h : hasBanner body = true) : peeled body = .ok body.text := by
  rw [peeled, Pile.run_of_last h]

/-- A body that is neither the innermost program nor has a layer on it is reported as it is. -/
lemma peeled_of_unrecognized (hopen : hasBanner body = false)
    (hnone : ∀ layer ∈ pile.layers, layer.isOn body = false) :
    ∃ f, peeled body = .error (LayerFailure.toFailure Module.text ⟨f, body, 0⟩) := by
  rw [peeled, Pile.run_of_bare hopen (by decide) (.unrecognized hnone)]
  exact ⟨_, rfl⟩

lemma hasBanner_withoutImports (hhead : ∀ s ∈ body.head?, isImport s = false) :
    hasBanner (withoutImports body) = hasBanner body := by
  cases body with
  | nil => rfl
  | cons s rest =>
    rw [withoutImports_cons (hhead s rfl)]
    unfold hasBanner
    split <;> simp_all

/-- A failure at the top tells by its evidence which program that is. -/
lemma text_eq_of_peeled {m : Module} {f : Failure}
    (h : peeled m = .error (LayerFailure.toFailure Module.text ⟨f, body, 0⟩)) :
    m.text = body.text := by
  unfold peeled at h
  split at h
  · contradiction
  · next g hrun =>
    have hevidence := congrArg Failure.diagnostics (Except.error.inj h)
    have hsteps := congrArg (List.lookup "steps") hevidence
    have hpartial := congrArg (List.lookup "partial") hevidence
    simp only [Pile.lookup_toFailure, if_true, show "steps" ≠ "partial" by decide, if_false]
      at hsteps hpartial
    -- The counted steps are written in decimal, and only zero is written as zero.
    have hdigits : Nat.toDigits 10 g.steps = Nat.toDigits 10 0 :=
      String.ofList_inj.mp (Diagnostic.text.inj (Option.some.inj hsteps))
    have htop : g.steps = 0 := by
      rw [← Nat.ofDigitChars_ten_toDigits (n := g.steps), hdigits, Nat.ofDigitChars_ten_toDigits]
    obtain ⟨trail, hfails⟩ := Pile.run_eq_error_iff.mp hrun
    rw [(hfails.reached_top htop).1] at hpartial
    exact Diagnostic.text.inj (Option.some.inj hpartial)

/-- What peeling gives tells whether imports were left out. -/
lemma peeled_withoutImports_ne (hhead : ∀ s ∈ body.head?, isImport s = false)
    (hlate : ∃ s ∈ body, isImport s = true) : peeled (withoutImports body) ≠ peeled body := by
  have htext := text_withoutImports_ne hhead hlate
  have hbanner := hasBanner_withoutImports hhead
  intro heq
  cases hlast : hasBanner body with
  | true =>
    rw [peeled_of_banner (hbanner.trans hlast), peeled_of_banner hlast] at heq
    exact htext (Except.ok.inj heq)
  | false =>
    -- A late import keeps every layer off the body, whose text is then the evidence.
    have hnone : ∀ layer ∈ pile.layers, layer.isOn body = false := by
      intro layer hlayer
      by_contra hon
      obtain ⟨s, hs, himport⟩ := hlate
      rw [isImport_of_isOn hlayer (Bool.not_eq_false _ ▸ hon) s hs] at himport
      contradiction
    obtain ⟨f, hbody⟩ := peeled_of_unrecognized hlast hnone
    exact htext (text_eq_of_peeled (heq.trans hbody))

/-- What a scan looks at and what is unmasked. The scan looks at the shape of the body; what is
peeled is the body without its imports, so that it is the body, and that the outcome is the one of
peeling the body, if and only if there is no import in it. If the scan accepts then there is none,
and there is a layer to be peeled. -/
theorem unmask_eq_peeled_iff (hparse : Module.parse source = .ok m) (h : Opens imports body m) :
    (scan source = true ↔
      isBase64Layer body = true ∨ imports = [] ∧ isXorLoop body = true) ∧
    unmask source = peeled (body.filter fun s => !isImport s) ∧
    (withoutImports m = body ↔ ∀ s ∈ body, isImport s = false) ∧
    (unmask source = peeled body ↔ ∀ s ∈ body, isImport s = false) ∧
    (scan source = true → unmask source = peeled body ∧
      ∀ f, (pile.run body fun m _ => hasBanner m) = .error f →
        ¬ (f.failure.kind = .unrecognizedLayer ∧ f.steps = 0)) := by
  have hpeeled : unmask source = peeled (withoutImports body) := by
    rw [unmask_eq_peeled hparse, h.withoutImports_eq]
  have hiff : unmask source = peeled body ↔ ∀ s ∈ body, isImport s = false := by
    constructor
    · intro heq
      by_contra hlate
      push Not at hlate
      simp only [Bool.not_eq_false] at hlate
      exact peeled_withoutImports_ne h.body hlate (hpeeled.symm.trans heq)
    · intro hall
      rw [hpeeled, withoutImports_eq_self_iff.mpr hall]
  refine ⟨scan_iff hparse h, hpeeled, ?_, hiff, fun hscan => ?_⟩
  · rw [h.withoutImports_eq]
    exact withoutImports_eq_self_iff
  · obtain ⟨layer, hlayer, hon⟩ := exists_isOn_of_scan hparse h hscan
    refine ⟨hiff.mpr (isImport_of_isOn hlayer hon), fun f hrun ⟨hkind, hsteps⟩ => ?_⟩
    have hpeel (other : Layer Module) (hother : other ∈ pile.layers) (f : Failure)
        (hf : other.peel body = .error f) : f.kind ≠ .unrecognizedLayer :=
      (damaged_of_peel hother hf).ne
    obtain ⟨-, hnone⟩ :=
      (Pile.unrecognized_top_iff (by decide) hpeel).mp ⟨f, hrun, hkind, hsteps⟩
    rw [hnone layer hlayer] at hon
    contradiction

/-- A program of four texts that are joined and decoded, behind an import. -/
theorem unmask_scanned_body :
    let source := "import base64\na = 'Zi'\nb = 'g'\nc = 'p'\nd = ''\nexec(a + b + c + d)"
    ∃ m imports body, Module.parse source = .ok m ∧ Opens imports body m ∧
      imports.length = 1 ∧ scan source = true ∧ unmask source = peeled body ∧
      ∀ f, (pile.run body fun m _ => hasBanner m) = .error f →
        ¬ (f.failure.kind = .unrecognizedLayer ∧ f.steps = 0) := by
  intro source
  have hread : (Module.parse source).toOption.map (fun m =>
      ((m.takeWhile isImport).length, isBase64Layer (m.dropWhile isImport))) =
      some (1, true) := by decide +kernel
  cases hparse : Module.parse source with
  | error e => simp [hparse, Except.toOption] at hread
  | ok m =>
    rw [hparse] at hread
    obtain ⟨hlength, hbase64⟩ := Prod.mk.inj (Option.some.inj hread)
    have hopens := opens_dropWhile m
    obtain ⟨hscan, -, -, -, hscanned⟩ := unmask_eq_peeled_iff hparse hopens
    have haccepted := hscan.mpr (.inl hbase64)
    exact ⟨m, _, _, rfl, hopens, hlength, haccepted, hscanned haccepted⟩

/-- An import in the body of the innermost program is lost, though no scan passes over it. -/
theorem unmask_drops_import :
    let source := "'BlankOBF v2'\nimport os\nf()"
    ∃ body, Module.parse source = .ok body ∧ Opens [] body body ∧
      peeled body = .ok source ∧ unmask source = .ok "'BlankOBF v2'\nf()" := by
  intro source
  have hread : (Module.parse source).toOption.map (fun m =>
      ((m.takeWhile isImport).length, hasBanner m, m.text, hasBanner (withoutImports m),
        (withoutImports m).text)) =
      some (0, true, source, true, "'BlankOBF v2'\nf()") := by decide +kernel
  cases hparse : Module.parse source with
  | error e => simp [hparse, Except.toOption] at hread
  | ok body =>
    rw [hparse] at hread
    simp only [Except.toOption, Option.map_some, Option.some.injEq, Prod.mk.injEq] at hread
    obtain ⟨hlength, hbanner, htext, hbanner', htext'⟩ := hread
    have hopens := opens_dropWhile body
    rw [List.length_eq_zero_iff.mp hlength] at hopens
    have hbody : body.dropWhile isImport = body := hopens.eq_append.symm
    rw [hbody] at hopens
    refine ⟨body, rfl, hopens, ?_, ?_⟩
    · rw [peeled_of_banner hbanner, htext]
    · rw [unmask_eq_peeled hparse, peeled_of_banner hbanner', htext']

end Unmask.BlankObf
