import Unmask.Proofs.LiteralElements

/-!
# Tokens that are string literals

A string literal is a prefix, a delimiter, a body in which the delimiter comes up only behind a
backslash, and the delimiter again. A token that has a value is read as that value, unless a
carriage return is in its body; but texts are read as well whose front is no prefix, or whose
delimiter comes up before the end.
-/
namespace Unmask.Literal
open Text

/-- The prefixes, in lower case. -/
def prefixes : List (List Char) := [[], ['r'], ['u'], ['b'], ['b', 'r'], ['r', 'b']]

def delimiters : List (List Char) := [['\'', '\'', '\''], ['"', '"', '"'], ['\''], ['"']]

/-- Whether a delimiter does not come up in a body before its end. A backslash takes the next
character with it, so no backslash is left over for the delimiter behind the body. -/
inductive Body (delim : List Char) : List Char → Prop
  | nil : Body delim []
  | escaped {c : Char} {rest : List Char} : Body delim rest → Body delim ('\\' :: c :: rest)
  | plain {c : Char} {rest : List Char} : c ≠ '\\' → ¬delim <+: c :: rest ++ delim →
      Body delim rest → Body delim (c :: rest)

/-- Whether a text is one string literal with these parts. -/
structure IsToken (text flags delim body : List Char) : Prop where
  written : text = flags ++ (delim ++ body ++ delim)
  flagged : flags.map asciiLower ∈ prefixes
  delimited : delim ∈ delimiters
  /-- Three quotes open it if they can. -/
  opened : ∀ q, [q, q, q] <+: delim ++ body ++ delim → [q, q, q] ∈ delimiters →
    delim = [q, q, q]
  closed : Body delim body

/-- The value of a literal with a prefix (in lower case) and a body. -/
inductive Denotes (flags body : List Char) : StringLiteral → Prop
  | text {chars : List Char} : 'b' ∉ flags → Spells (flags.contains 'r') true body chars →
      Denotes flags body (.text (String.ofList chars))
  | octets {chars : List Char} {value : Bytes} : 'b' ∈ flags → (∀ c ∈ body, c.toNat < 0x80) →
      Spells (flags.contains 'r') false body chars →
      value.map UInt8.toNat = chars.map Char.toNat → Denotes flags body (.bytes value)

variable {text flags delim body quoted front suffix cs : List Char} {value lit : StringLiteral}

lemma stripBack?_eq_some_iff : stripBack? suffix cs = some front ↔ cs = front ++ suffix := by
  simp only [stripBack?, Option.map_eq_some_iff, afterFront?_eq_some_iff]
  constructor
  · rintro ⟨rest, hcs, rfl⟩
    rw [← cs.reverse_reverse, hcs]
    simp
  · rintro rfl
    exact ⟨front.reverse, by simp, by simp⟩

/-- A text that has a body stands between two delimiters. -/
lemma exists_of_body? (h : body? quoted = some body) :
    ∃ delim ∈ delimiters, quoted = delim ++ body ++ delim := by
  obtain ⟨delim, hfound, h⟩ := Option.bind_eq_some_iff.mp h
  obtain ⟨rest, hrest, h⟩ := Option.bind_eq_some_iff.mp h
  rw [afterFront?_eq_some_iff] at hrest
  rw [stripBack?_eq_some_iff] at h
  exact ⟨delim, List.mem_of_find?_eq_some hfound, by rw [hrest, h, List.append_assoc]⟩

lemma Body.paired (h : Body delim body) : Paired body := by
  induction h with
  | nil => exact .nil
  | escaped _ ih => exact .escaped ih
  | plain hne _ _ ih => exact .plain hne ih

/-- Three quotes do not open a body in which one of them does not come up. -/
lemma Body.opened (h : Body delim body) (hdelim : delim ∈ delimiters) {q : Char}
    (hmem : [q, q, q] ∈ delimiters) (hq : [q, q, q] <+: delim ++ body ++ delim) :
    delim = [q, q, q] := by
  have hslash : q ≠ '\\' := by
    rintro rfl
    exact absurd hmem (by decide)
  have hsingle (quote : Char) (hsolid : quote ≠ '\\') (h : Body [quote] body)
      (hq : [q, q, q] <+: [quote] ++ body ++ [quote]) : False := by
    obtain ⟨rfl, hq⟩ := List.cons_prefix_cons.mp hq
    cases h with
    | nil => simpa using hq.length_le
    | escaped => exact hslash (List.cons_prefix_cons.mp hq).1
    | plain _ hnot =>
      obtain ⟨rfl, -⟩ := List.cons_prefix_cons.mp hq
      exact hnot (List.prefix_append _ _)
  simp only [delimiters, List.mem_cons, List.not_mem_nil, or_false] at hdelim
  rcases hdelim with rfl | rfl | rfl | rfl
  · obtain ⟨rfl, -⟩ := List.cons_prefix_cons.mp hq
    rfl
  · obtain ⟨rfl, -⟩ := List.cons_prefix_cons.mp hq
    rfl
  · exact (hsingle _ (by decide) h hq).elim
  · exact (hsingle _ (by decide) h hq).elim

lemma exists_quote (h : delim ∈ delimiters) : ∃ q tail, delim = q :: tail ∧ isQuote q := by
  simp only [delimiters, List.mem_cons, List.not_mem_nil, or_false] at h
  rcases h with rfl | rfl | rfl | rfl <;> exact ⟨_, _, rfl, rfl⟩

/-- A delimiter is the first that fits if none of three quotes fits and none of the other quote. -/
lemma find?_delimiters (hdelim : delim ∈ delimiters) {fits : List Char → Bool} (hfits : fits delim)
    (hthree : ∀ q, [q, q, q] ∈ delimiters → delim ≠ [q, q, q] → fits [q, q, q] = false)
    (hquote : ∀ d ∈ delimiters, d.head? ≠ delim.head? → fits d = false) :
    delimiters.find? fits = some delim := by
  simp only [delimiters, List.mem_cons, List.not_mem_nil, or_false] at hdelim
  rcases hdelim with rfl | rfl | rfl | rfl
  · simp [delimiters, hfits]
  · simp [delimiters, hfits, hthree '\'' (by decide) (by decide)]
  · simp [delimiters, hfits, hthree '\'' (by decide) (by decide),
      hthree '"' (by decide) (by decide)]
  · simp [delimiters, hfits, hthree '\'' (by decide) (by decide),
      hthree '"' (by decide) (by decide), hquote ['\''] (by decide) (by decide)]

/-- The body of a token is what stands between its delimiters. -/
lemma body?_token (h : Body delim body) (hdelim : delim ∈ delimiters) :
    body? (delim ++ body ++ delim) = some body := by
  have hroom : 2 * delim.length ≤ octetCount (delim ++ body ++ delim) := by
    have hle := length_le_octetCount (delim ++ body ++ delim)
    simp only [List.length_append] at hle
    omega
  have hafter : afterFront? delim (delim ++ body ++ delim) = some (body ++ delim) :=
    afterFront?_eq_some_iff.mpr (List.append_assoc ..)
  have hopened : ∀ q, [q, q, q] ∈ delimiters → delim ≠ [q, q, q] →
      afterFront? [q, q, q] (delim ++ body ++ delim) = none := by
    refine fun q hmem hne => Option.eq_none_iff_forall_ne_some.mpr fun rest hrest => hne ?_
    exact h.opened hdelim hmem ⟨rest, (afterFront?_eq_some_iff.mp hrest).symm⟩
  have hquote : ∀ d ∈ delimiters, d.head? ≠ delim.head? →
      afterFront? d (delim ++ body ++ delim) = none := by
    refine fun d hd hne => Option.eq_none_iff_forall_ne_some.mpr fun rest hrest => hne ?_
    obtain ⟨q, tail, rfl, -⟩ := exists_quote hd
    obtain ⟨q', tail', rfl, -⟩ := exists_quote hdelim
    exact congrArg some (List.cons.inj (afterFront?_eq_some_iff.mp hrest)).1.symm
  generalize delim ++ body ++ delim = quoted at hroom hafter hopened hquote
  have hfound : delimiters.find? (fun d =>
      2 * d.length ≤ octetCount quoted && (afterFront? d quoted).isSome) = some delim := by
    refine find?_delimiters hdelim (by simp [hroom, hafter]) (fun q hmem hne => ?_)
      (fun d hd hne => ?_)
    · simp [hopened q hmem hne]
    · simp [hquote d hd hne]
  have hback : stripBack? delim (body ++ delim) = some body := stripBack?_eq_some_iff.mpr rfl
  unfold body?
  rw [delimiters] at hfound
  simp only [hfound, hafter, hback, Option.bind_some]

/-- What a literal is that is read as characters. -/
def literalOf (flags chars : List Char) : StringLiteral :=
  if flags.contains 'b' then .bytes (narrow chars) else .text (String.ofList chars)

/-- A literal is read if its front is made of the letters of prefixes and its body can be read. -/
lemma decode?_eq_some_iff : StringLiteral.decode? text = some lit ↔
    ∃ flags body chars, flags = (text.takeWhile (!isQuote ·)).map asciiLower ∧
      (∀ c ∈ flags, c ∈ ['r', 'b', 'u']) ∧ body? (text.dropWhile (!isQuote ·)) = some body ∧
      ('b' ∈ flags → ∀ c ∈ body, c.toNat < 0x80) ∧
      readBody (flags.contains 'r') (!flags.contains 'b') [] body = some chars ∧
      lit = literalOf flags chars := by
  unfold StringLiteral.decode?
  generalize (text.takeWhile (!isQuote ·)).map asciiLower = flags
  generalize text.dropWhile (!isQuote ·) = quoted
  have hletters : ¬(flags.any fun c => !(c == 'r' || c == 'b' || c == 'u')) = true ↔
      ∀ c ∈ flags, c ∈ ['r', 'b', 'u'] := by
    simp [or_iff_not_imp_left]
  have hascii (body : List Char) :
      ¬(flags.contains 'b' && body.any fun c => decide (0x80 ≤ c.toNat)) = true ↔
        ('b' ∈ flags → ∀ c ∈ body, c.toNat < 0x80) := by
    simp [List.any_eq_true]
  have hread (body : List Char) : (if flags.contains 'r' then some body
      else decodeBody (!flags.contains 'b') [] body) =
      readBody (flags.contains 'r') (!flags.contains 'b') [] body := rfl
  simp only [hread]
  constructor
  · intro h
    by_cases hflags : (flags.any fun c => !(c == 'r' || c == 'b' || c == 'u')) = true
    · rw [if_pos hflags] at h
      cases h
    rw [if_neg hflags] at h
    obtain ⟨body, hbody, h⟩ := Option.bind_eq_some_iff.mp h
    by_cases hhigh : (flags.contains 'b' && body.any fun c => decide (0x80 ≤ c.toNat)) = true
    · rw [if_pos hhigh] at h
      cases h
    rw [if_neg hhigh] at h
    obtain ⟨chars, hchars, rfl⟩ := Option.map_eq_some_iff.mp h
    exact ⟨flags, body, chars, rfl, hletters.mp hflags, hbody, (hascii body).mp hhigh, hchars, rfl⟩
  · rintro ⟨flags, body, chars, rfl, hflags, hbody, hhigh, hchars, rfl⟩
    rw [if_neg (hletters.mpr hflags), hbody, Option.bind_some, if_neg ((hascii body).mpr hhigh),
      hchars]
    rfl

/-- The front and the rest of a token are told apart by the first quote. -/
lemma IsToken.split (h : IsToken text flags delim body) :
    text.takeWhile (!isQuote ·) = flags ∧
      text.dropWhile (!isQuote ·) = delim ++ body ++ delim := by
  have hflags : ∀ c ∈ flags, (!isQuote c) = true := by
    intro c hc
    have hletters : ∀ row ∈ prefixes, ∀ c ∈ row, c ∈ ['r', 'b', 'u'] := by decide
    have hlower := hletters _ h.flagged _ (List.mem_map_of_mem hc)
    cases hquote : isQuote c with
    | false => rfl
    | true =>
      rcases (Bool.or_eq_true_iff ..).mp hquote with hc | hc <;> cases beq_iff_eq.mp hc <;>
        exact absurd hlower (by decide)
  obtain ⟨q, tail, rfl, hq⟩ := exists_quote h.delimited
  have hstop : (!isQuote q) = false := by rw [hq]; rfl
  rw [h.written]
  constructor
  · rw [List.takeWhile_append_of_pos hflags]
    simp [hstop]
  · rw [List.dropWhile_append_of_pos hflags]
    simp [hstop]

/-- Two delimiters around the same body in the same text are the same. -/
lemma delimiter_unique {delim' : List Char}
    (h : delim ++ body ++ delim = delim' ++ body ++ delim') : delim = delim' := by
  have hlength : delim.length = delim'.length := by
    have hlengths := congrArg List.length h
    simp only [List.length_append] at hlengths
    omega
  rw [List.append_assoc, List.append_assoc] at h
  exact (List.append_inj h hlength).1

/-- A text that is read is a token if its front is a prefix and its delimiter does not come up. -/
lemma isToken_iff (h : StringLiteral.decode? text = some lit) :
    ∃ flags delim body, text = flags ++ (delim ++ body ++ delim) ∧ delim ∈ delimiters ∧
      (∀ c ∈ flags, asciiLower c ∈ ['r', 'b', 'u']) ∧
      ((∃ flags delim body, IsToken text flags delim body) ↔
        flags.map asciiLower ∈ prefixes ∧ Body delim body) := by
  obtain ⟨_, body, chars, rfl, hletters, hbody, -⟩ := decode?_eq_some_iff.mp h
  obtain ⟨delim, hdelim, hquoted⟩ := exists_of_body? hbody
  have hwritten : text = text.takeWhile (!isQuote ·) ++ (delim ++ body ++ delim) := by
    rw [← hquoted, List.takeWhile_append_dropWhile]
  refine ⟨_, delim, body, hwritten, hdelim, fun c hc => hletters _ (List.mem_map_of_mem hc), ?_⟩
  constructor
  · rintro ⟨flags', delim', body', h'⟩
    obtain ⟨hflags', hquoted'⟩ := h'.split
    rw [hquoted', body?_token h'.closed h'.delimited] at hbody
    obtain rfl := Option.some.inj hbody
    rw [hquoted'] at hquoted
    rw [← delimiter_unique hquoted, hflags']
    exact ⟨h'.flagged, h'.closed⟩
  · rintro ⟨hflagged, hclosed⟩
    exact ⟨_, delim, body, hwritten, hflagged, hdelim,
      fun _ hq hmem => hclosed.opened hdelim hmem hq, hclosed⟩

/-- What a token is read as depends on its prefix and its body. -/
lemma IsToken.decode?_iff (h : IsToken text flags delim body) :
    StringLiteral.decode? text = some lit ↔
      ('b' ∈ flags.map asciiLower → ∀ c ∈ body, c.toNat < 0x80) ∧
      ∃ chars, readBody ((flags.map asciiLower).contains 'r') (!(flags.map asciiLower).contains 'b')
        [] body = some chars ∧ lit = literalOf (flags.map asciiLower) chars := by
  obtain ⟨hflags, hquoted⟩ := h.split
  have hletters : ∀ row ∈ prefixes, ∀ c ∈ row, c ∈ ['r', 'b', 'u'] := by decide
  have hbody := body?_token h.closed h.delimited
  rw [decode?_eq_some_iff, hflags, hquoted]
  constructor
  · rintro ⟨_, _, chars, rfl, -, hbody', hascii, hchars, rfl⟩
    obtain rfl := Option.some.inj (hbody.symm.trans hbody')
    exact ⟨hascii, chars, hchars, rfl⟩
  · rintro ⟨hascii, chars, hchars, rfl⟩
    exact ⟨_, body, chars, rfl, hletters _ h.flagged, hbody, hascii, hchars, rfl⟩

lemma narrow_of_codes {octets : Bytes} {chars : List Char}
    (h : octets.map UInt8.toNat = chars.map Char.toNat) : narrow chars = octets := by
  have hmap : narrow chars = (chars.map Char.toNat).map UInt8.ofNat := by
    rw [narrow, List.map_map]
    rfl
  rw [hmap, ← h, List.map_map]
  simp [Function.comp_def]

lemma codes_narrow {chars : List Char} (h : ∀ c ∈ chars, c.toNat < 0x100) :
    (narrow chars).map UInt8.toNat = chars.map Char.toNat := by
  rw [narrow, List.map_map]
  exact List.map_congr_left fun c hc => UInt8.toNat_ofNat_of_lt' (h c hc)

lemma denotes_iff : Denotes flags body value ↔ ('b' ∈ flags → ∀ c ∈ body, c.toNat < 0x80) ∧
    ∃ chars, Spells (flags.contains 'r') (!flags.contains 'b') body chars ∧
      value = literalOf flags chars := by
  constructor
  · rintro (⟨hb, hspells⟩ | ⟨hb, hascii, hspells, hvalue⟩)
    · have hcontains : flags.contains 'b' = false := by simpa using hb
      exact ⟨fun h => absurd h hb, _, by rwa [hcontains], by rw [literalOf, hcontains]; rfl⟩
    · have hcontains : flags.contains 'b' = true := by simpa using hb
      refine ⟨fun _ => hascii, _, by rwa [hcontains], ?_⟩
      rw [literalOf, if_pos hcontains, narrow_of_codes hvalue]
  · rintro ⟨hascii, chars, hspells, rfl⟩
    by_cases hb : 'b' ∈ flags
    · have hcontains : flags.contains 'b' = true := by simpa using hb
      rw [hcontains] at hspells
      rw [literalOf, if_pos hcontains]
      exact .octets hb (hascii hb) hspells (codes_narrow (hspells.toNat_lt (hascii hb)))
    · have hcontains : flags.contains 'b' = false := by simpa using hb
      rw [hcontains] at hspells
      rw [literalOf, hcontains]
      exact .text hb hspells

/-- What is read is what is meant if no carriage return is in the way. -/
lemma literalOf_eq_iff {read chars : List Char} (h : Follows body read chars) :
    literalOf flags read = literalOf flags chars ↔ '\r' ∉ body := by
  refine ⟨fun heq hmem => ?_, fun hnone => by rw [h.same hnone]⟩
  rw [literalOf, literalOf] at heq
  split at heq
  · have hmap := StringLiteral.bytes.inj heq
    rw [narrow, narrow] at hmap
    exact h.differs hmem (fun c => UInt8.ofNat c.toNat) (by decide) [] [] le_rfl
      (by simpa using hmap)
  · have hchars := String.ofList_injective (StringLiteral.text.inj heq)
    exact h.differs hmem id (by decide) [] [] le_rfl (by simpa using hchars)

/-- A token is read if and only if it has a value. -/
lemma IsToken.read_iff (h : IsToken text flags delim body) :
    (∃ lit, StringLiteral.decode? text = some lit) ↔
      ∃ value, Denotes (flags.map asciiLower) body value := by
  simp only [h.decode?_iff, denotes_iff]
  constructor
  · rintro ⟨_, hascii, chars, hchars, -⟩
    obtain ⟨chars', hspells⟩ := exists_spells (fun _ => h.closed.paired)
      ⟨[], Option.isSome_of_eq_some hchars⟩
    exact ⟨_, hascii, chars', hspells, rfl⟩
  · rintro ⟨_, hascii, chars, hspells, -⟩
    obtain ⟨read, -, hreads⟩ := hspells.reads
    exact ⟨_, hascii, _, hreads [], rfl⟩

lemma IsToken.read_as_iff (h : IsToken text flags delim body)
    (hvalue : Denotes (flags.map asciiLower) body value) :
    StringLiteral.decode? text = some value ↔ '\r' ∉ body := by
  obtain ⟨hascii, chars, hspells, rfl⟩ := denotes_iff.mp hvalue
  obtain ⟨read, hfollows, hreads⟩ := hspells.reads
  rw [h.decode?_iff, ← literalOf_eq_iff hfollows]
  constructor
  · rintro ⟨-, chars', hchars', heq⟩
    obtain rfl : read = chars' := Option.some.inj ((hreads []).symm.trans hchars')
    exact heq.symm
  · intro heq
    exact ⟨hascii, read, hreads [], heq.symm⟩

/-- Every token that has a value is read, and as that value if and only if no carriage return is in
its body; a token without a value is not read. Of the other texts only those are read that stand
between two delimiters behind letters of prefixes: they are no tokens because the letters are no
prefix or because the delimiter comes up in between. -/
theorem decode?_tokens (text : List Char) :
    (∀ lit, StringLiteral.decode? text = some lit → ∃ flags delim body,
      text = flags ++ (delim ++ body ++ delim) ∧ delim ∈ delimiters ∧
      (∀ c ∈ flags, asciiLower c ∈ ['r', 'b', 'u']) ∧
      ((∃ flags delim body, IsToken text flags delim body) ↔
        flags.map asciiLower ∈ prefixes ∧ Body delim body)) ∧
    ∀ flags delim body, IsToken text flags delim body →
      ((∃ lit, StringLiteral.decode? text = some lit) ↔
        ∃ value, Denotes (flags.map asciiLower) body value) ∧
      ∀ value, Denotes (flags.map asciiLower) body value →
        (StringLiteral.decode? text = some value ↔ '\r' ∉ body) :=
  ⟨fun _ h => isToken_iff h, fun _ _ _ h => ⟨h.read_iff, fun _ hvalue => h.read_as_iff hvalue⟩⟩

/-- A code, an escaped quote and three octal digits with a fourth one behind them, in octets. -/
theorem decode?_tokens_octets :
    StringLiteral.decode? ("B'" ++ "\\x41\\'\\1012" ++ "'").toList =
      some (.bytes [0x41, 0x27, 0x41, 0x32]) := by
  have hbody : Body ['\''] "\\x41\\'\\1012".toList :=
    .escaped (.plain (by decide) (by decide) (.plain (by decide) (by decide) (.escaped (.escaped
      (.plain (by decide) (by decide) (.plain (by decide) (by decide) (.plain (by decide)
      (by decide) .nil)))))))
  have htoken : IsToken ("B'" ++ "\\x41\\'\\1012" ++ "'").toList ['B'] ['\'']
      "\\x41\\'\\1012".toList :=
    ⟨rfl, by decide, by decide, fun q hq hmem => hbody.opened (by decide) hmem hq, hbody⟩
  have hcode : Element false false ['\\', 'x', '4', '1'] ['A'] "\\'\\1012".toList :=
    .code rfl (by decide : ('x', 2) ∈ codes false) rfl ⟨[1, 4], by decide, rfl⟩
  have hquote : Element false false ['\\', '\''] ['\''] "\\1012".toList :=
    .letter rfl (by decide)
  have hoctal : Element false false ['\\', '1', '0', '1'] ['A'] ['2'] :=
    .octal rfl (by decide) ⟨[1, 0, 1], by decide, rfl⟩ (.inl rfl) rfl
  have hdigit : Element false false ['2'] ['2'] [] := .itself (by decide) (by decide) (by decide)
  have hvalue : Denotes (['B'].map asciiLower) "\\x41\\'\\1012".toList
      (.bytes [0x41, 0x27, 0x41, 0x32]) :=
    .octets (by decide) (by decide)
      (.cons hcode (.cons hquote (.cons hoctal (.cons hdigit .nil)))) (by decide)
  exact (((decode?_tokens _).2 _ _ _ htoken).2 _ hvalue).mpr (by decide)

/-- A quote between two others is read, but that is no token. -/
theorem decode?_quote_within :
    StringLiteral.decode? "'a'b'".toList = some (.text "a'b") ∧
      ¬∃ flags delim body, IsToken "'a'b'".toList flags delim body := by
  refine ⟨by decide, ?_⟩
  rintro ⟨flags, delim, body, h⟩
  obtain ⟨-, hquoted⟩ := h.split
  have hread := body?_token h.closed h.delimited
  rw [← hquoted] at hread
  obtain rfl : ['a', '\'', 'b'] = body := Option.some.inj hread
  have hquotes : ['\''] ++ ['a', '\'', 'b'] ++ ['\''] = delim ++ ['a', '\'', 'b'] ++ delim :=
    hquoted
  obtain rfl := delimiter_unique hquotes
  rcases h.closed with _ | _ | ⟨-, -, _ | _ | ⟨-, hwithin, -⟩⟩
  exact hwithin (by decide)

end Unmask.Literal
