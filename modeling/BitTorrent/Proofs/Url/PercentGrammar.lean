import BitTorrent.Proofs.Url.PercentCodec

/-!
# The grammar of percent-encoded text

Strictly percent-encoded text is a sequence of pieces: an unreserved character (an ASCII letter
or digit, `-`, `.`, `_` or `~`) standing for its own code, or `%` and two hex digits of either
case standing for the byte they spell. `Percent.isEncoded` scans the UTF-8 bytes of a text with a
lookahead of three; this module shows that it accepts exactly the texts that split into such
pieces, so that `decode?` succeeds exactly there and gives the pieces' bytes.

The encoder writes one piece per byte: the character itself for an unreserved byte, otherwise an
escape in upper-case digits. Its text is therefore canonical, and a text of the grammar is the
encoding of what it decodes to exactly when each of its escapes is canonical: upper-case digits,
for a byte that is not the code of an unreserved character. A hex digest turned straight into
escapes decodes to the bytes the digest denotes. All of it holds for every percent-encoding
library that behaves as documented.

## Main definitions

* `Percent.unreservedChar`, `Percent.isUpperHexDigit`: the character classes of the grammar.
* `Percent.Piece`: an unreserved character or an escape, with its `text`, `byte`, `Valid` and
  `Canonical`.

## Main statements

* `Percent.isEncoded_iff`: the scanner accepts exactly the texts made of valid pieces.
* `Percent.decode?_of_pieces`: such a text decodes to the bytes of its pieces.
* `Percent.encode_eq_iff_canonical`: re-encoding gives the text back exactly when every piece is
  canonical.
* `Percent.decode?_encodeHex?`: an escaped hex digest decodes to the bytes it denotes.
* `Percent.percent_codec_grammar`: all of it together.
-/

namespace BitTorrent.Percent

open Bytes

/-! ## Section 1: Characters and their bytes -/

/-- An unreserved character of RFC 3986: an ASCII letter or digit, `-`, `.`, `_` or `~`. -/
def unreservedChar (c : Char) : Bool :=
  c.isAlphanum || c == '-' || c == '.' || c == '_' || c == '~'

/-- A hex digit written in upper case: a decimal digit or a letter from `A` to `F`. -/
def isUpperHexDigit (c : Char) : Bool := c.isHexDigit && !c.isLower

/-- The byte of an ASCII character: its code. -/
def asciiByte (c : Char) : UInt8 := c.toNat.toUInt8

theorem toNat_lt_of_unreservedChar {c : Char} (h : unreservedChar c = true) : c.toNat < 128 := by
  -- unfolded by `delta`, which leaves no equation lemmas of the character classes behind
  delta unreservedChar Char.isAlphanum Char.isAlpha Char.isUpper Char.isLower Char.isDigit at h
  simp [UInt32.le_iff_toNat_le] at h
  rcases h with (((h | h) | h) | h) | h
  · omega
  all_goals subst h; decide

theorem toNat_lt_of_isHexDigit {c : Char} (h : c.isHexDigit = true) : c.toNat < 128 := by
  simp [Char.isHexDigit, Char.isDigit, UInt32.le_iff_toNat_le] at h
  omega

/-- What holds of the 128 ASCII characters holds of every character below 128. -/
theorem of_ascii {P : Char → Prop} (h : ∀ n < 128, P (Char.ofNat n)) {c : Char}
    (hc : c.toNat < 128) : P c := by
  simpa using h c.toNat hc

theorem isUnreserved_asciiByte {c : Char} (hc : c.toNat < 128) :
    isUnreserved (asciiByte c) = unreservedChar c :=
  of_ascii (P := fun c => isUnreserved (asciiByte c) = unreservedChar c) (by decide) hc

theorem isHexDigit_asciiByte {c : Char} (hc : c.toNat < 128) :
    isHexDigit (asciiByte c) = c.isHexDigit :=
  of_ascii (P := fun c => isHexDigit (asciiByte c) = c.isHexDigit) (by decide) hc

theorem asciiByte_eq_percent_iff {c : Char} (hc : c.toNat < 128) : asciiByte c = 37 ↔ c = '%' :=
  of_ascii (P := fun c => asciiByte c = 37 ↔ c = '%') (by decide) hc

/-- An unreserved character is not the escape character. -/
theorem asciiByte_ne_percent {c : Char} (h : unreservedChar c = true) : asciiByte c ≠ 37 := by
  rw [ne_eq, asciiByte_eq_percent_iff (toNat_lt_of_unreservedChar h)]
  rintro rfl
  exact absurd h (by decide)

theorem ofNat_asciiByte {c : Char} (hc : c.toNat < 128) : Char.ofNat (asciiByte c).toNat = c :=
  of_ascii (P := fun c => Char.ofNat (asciiByte c).toNat = c) (by decide) hc

theorem hexDigitValue_asciiByte {c : Char} (h : c.isHexDigit = true) :
    hexDigitValue (asciiByte c) = (hexValue? c).getD 0 :=
  of_ascii (P := fun c => c.isHexDigit = true → hexDigitValue (asciiByte c) = (hexValue? c).getD 0)
    (by decide) (toNat_lt_of_isHexDigit h) h

theorem isSome_hexValue? {c : Char} (h : c.isHexDigit = true) : (hexValue? c).isSome = true :=
  of_ascii (P := fun c => c.isHexDigit = true → (hexValue? c).isSome = true) (by decide)
    (toNat_lt_of_isHexDigit h) h

theorem hexValue_lt {c : Char} (h : c.isHexDigit = true) : (hexValue? c).getD 0 < 16 :=
  of_ascii (P := fun c => c.isHexDigit = true → (hexValue? c).getD 0 < 16) (by decide)
    (toNat_lt_of_isHexDigit h) h

/-- Writing back the value of a hex digit in upper case gives the digit exactly when it was
written in upper case. -/
theorem upperHexDigit_hexValue {c : Char} (h : c.isHexDigit = true) :
    upperHexDigit ((hexValue? c).getD 0) = c ↔ isUpperHexDigit c = true :=
  of_ascii (P := fun c => c.isHexDigit = true →
      (upperHexDigit ((hexValue? c).getD 0) = c ↔ isUpperHexDigit c = true))
    (by decide) (toNat_lt_of_isHexDigit h) h

/-- The digits the encoder writes are upper-case hex digits of the right value. -/
theorem upperHexDigit_spec {n : Nat} (h : n < 16) :
    isUpperHexDigit (upperHexDigit n) = true ∧ (upperHexDigit n).isHexDigit = true ∧
      (hexValue? (upperHexDigit n)).getD 0 = n := by
  have key : ∀ n < 16, isUpperHexDigit (upperHexDigit n) = true ∧
      (upperHexDigit n).isHexDigit = true ∧ (hexValue? (upperHexDigit n)).getD 0 = n := by
    decide
  exact key n h

/-- The encoder's unreserved bytes are the codes of the unreserved characters. -/
theorem isUnreserved_eq_unreservedChar (b : UInt8) :
    isUnreserved b = unreservedChar (Char.ofNat b.toNat) := by
  have hb : b.toNat < 256 := UInt8.toNat_lt_size b
  by_cases hlt : b.toNat < 128
  · have key : ∀ n < 128, isUnreserved n.toUInt8 = unreservedChar (Char.ofNat n) := by decide
    simpa using key b.toNat hlt
  · -- no byte from 128 on is unreserved, nor is any character it codes
    have hhigh : ∀ k < 128, unreservedChar (Char.ofNat (128 + k)) = false := by decide
    have hchar := hhigh (b.toNat - 128) (by omega)
    rw [show 128 + (b.toNat - 128) = b.toNat by omega] at hchar
    rw [hchar]
    cases hu : isUnreserved b
    · rfl
    · exact absurd (isUnreserved_bounds hu).1 hlt

theorem utf8EncodeChar_of_ascii {c : Char} (hc : c.toNat < 128) :
    String.utf8EncodeChar c = [asciiByte c] := by
  have hc' : c.toNat ≤ 127 := by omega
  simp [String.utf8EncodeChar, asciiByte, hc']

/-- Every character from 128 on starts with a byte from 128 on. -/
theorem exists_utf8EncodeChar_of_not_ascii {c : Char} (h : 128 ≤ c.toNat) :
    ∃ b bs, String.utf8EncodeChar c = b :: bs ∧ 128 ≤ b.toNat := by
  unfold String.utf8EncodeChar
  simp only [Char.toNat_val] at *
  rw [if_neg (by omega)]
  split
  · exact ⟨_, _, rfl, by simp; omega⟩
  · split
    · exact ⟨_, _, rfl, by simp; omega⟩
    · exact ⟨_, _, rfl, by simp; omega⟩

theorem flatMap_utf8EncodeChar_of_ascii {cs : List Char} (h : ∀ c ∈ cs, c.toNat < 128) :
    cs.flatMap String.utf8EncodeChar = cs.map asciiByte := by
  induction cs with
  | nil => rfl
  | cons c cs ih =>
    rw [List.flatMap_cons, utf8EncodeChar_of_ascii (h c List.mem_cons_self),
      ih fun x hx => h x (List.mem_cons_of_mem c hx)]
    rfl

/-- A text whose bytes are all below 128 is ASCII, one byte per character. -/
theorem ascii_of_ofString {s : String} (h : ∀ b ∈ ofString s, b.toNat < 128) :
    ∀ c ∈ s.toList, c.toNat < 128 := by
  intro c hc
  refine Nat.lt_of_not_le fun hlarge => ?_
  obtain ⟨b, bs, hbs, hb⟩ := exists_utf8EncodeChar_of_not_ascii hlarge
  have hmem : b ∈ ofString s := by
    rw [← String.ofList_toList (s := s), ofString_ofList, List.mem_flatMap]
    exact ⟨c, hc, by simp [hbs]⟩
  exact absurd (h b hmem) (by omega)

theorem ofString_of_ascii {s : String} (h : ∀ c ∈ s.toList, c.toNat < 128) :
    ofString s = s.toList.map asciiByte := by
  rw [← String.ofList_toList (s := s), ofString_ofList, String.toList_ofList,
    flatMap_utf8EncodeChar_of_ascii h]

/-! ## Section 2: Pieces -/

/-- A piece of strictly percent-encoded text: a character that stands for itself, or `%` and
two characters that spell a byte in hex. -/
inductive Piece where
  | plain (c : Char)
  | escape (hi lo : Char)
deriving DecidableEq, Repr

namespace Piece

/-- The characters of a piece. -/
def text : Piece → List Char
  | plain c => [c]
  | escape hi lo => ['%', hi, lo]

/-- A piece of the grammar: an unreserved character, or an escape of two hex digits of either
case. -/
def Valid : Piece → Prop
  | plain c => unreservedChar c = true
  | escape hi lo => hi.isHexDigit = true ∧ lo.isHexDigit = true

/-- The byte a piece stands for: the character's code, or the value of the two digits. -/
def byte : Piece → UInt8
  | plain c => asciiByte c
  | escape hi lo => ((hexValue? hi).getD 0 * 16 + (hexValue? lo).getD 0).toUInt8

/-- A piece as the encoder writes it: any character, but an escape only in upper-case digits and
for a byte that is not the code of an unreserved character. -/
def Canonical : Piece → Prop
  | plain _ => True
  | escape hi lo => isUpperHexDigit hi = true ∧ isUpperHexDigit lo = true ∧
      unreservedChar (Char.ofNat (escape hi lo).byte.toNat) = false

instance : DecidablePred Valid
  | plain c => inferInstanceAs (Decidable (unreservedChar c = true))
  | escape hi lo => inferInstanceAs (Decidable (hi.isHexDigit = true ∧ lo.isHexDigit = true))

instance : DecidablePred Canonical
  | plain _ => inferInstanceAs (Decidable True)
  | escape hi lo => inferInstanceAs (Decidable (isUpperHexDigit hi = true ∧
      isUpperHexDigit lo = true ∧ unreservedChar (Char.ofNat (escape hi lo).byte.toNat) = false))

/-- The piece the encoder writes for a byte. -/
def ofByte (b : UInt8) : Piece :=
  if isUnreserved b then plain (Char.ofNat b.toNat)
  else escape (upperHexDigit (b.toNat / 16)) (upperHexDigit (b.toNat % 16))

theorem Valid.ascii {p : Piece} (hp : p.Valid) : ∀ c ∈ p.text, c.toNat < 128 := by
  cases p with
  | plain c =>
    intro x hx
    rw [text, List.mem_singleton] at hx
    exact hx ▸ toNat_lt_of_unreservedChar hp
  | escape hi lo =>
    intro x hx
    simp only [text, List.mem_cons, List.not_mem_nil, or_false] at hx
    rcases hx with rfl | rfl | rfl
    · decide
    · exact toNat_lt_of_isHexDigit hp.1
    · exact toNat_lt_of_isHexDigit hp.2

/-- The value of an escape's digits, below 256. -/
theorem toNat_byte_escape {hi lo : Char} (h : (escape hi lo).Valid) :
    (escape hi lo).byte.toNat = (hexValue? hi).getD 0 * 16 + (hexValue? lo).getD 0 := by
  have hhi := hexValue_lt h.1
  have hlo := hexValue_lt h.2
  simp only [byte, Nat.toUInt8_eq, UInt8.toNat_ofNat']
  omega

theorem text_ofByte (b : UInt8) : (ofByte b).text = escapeWith queryValue b := by
  rw [escapeWith_queryValue]
  unfold ofByte
  split <;> rfl

theorem byte_ofByte (b : UInt8) : (ofByte b).byte = b := by
  have hb : b.toNat < 256 := UInt8.toNat_lt_size b
  unfold ofByte
  split
  · next hu =>
    -- an unreserved byte is the code of its character
    have hlt := (isUnreserved_bounds hu).1
    have key : ∀ n < 128, asciiByte (Char.ofNat n) = n.toUInt8 := by decide
    rw [byte, key b.toNat hlt, Nat.toUInt8_eq, UInt8.ofNat_toNat]
  · obtain ⟨-, -, hhi⟩ := upperHexDigit_spec (show b.toNat / 16 < 16 by omega)
    obtain ⟨-, -, hlo⟩ := upperHexDigit_spec (show b.toNat % 16 < 16 by omega)
    rw [byte, hhi, hlo, Nat.div_add_mod']
    exact UInt8.ofNat_toNat

theorem valid_ofByte (b : UInt8) : (ofByte b).Valid := by
  have hb : b.toNat < 256 := UInt8.toNat_lt_size b
  unfold ofByte
  split
  · next hu =>
    show unreservedChar _ = true
    rw [← isUnreserved_eq_unreservedChar, hu]
  · exact ⟨(upperHexDigit_spec (by omega)).2.1, (upperHexDigit_spec (by omega)).2.1⟩

theorem canonical_ofByte (b : UInt8) : (ofByte b).Canonical := by
  have hb : b.toNat < 256 := UInt8.toNat_lt_size b
  have hbyte := byte_ofByte b
  unfold ofByte at hbyte ⊢
  split
  · trivial
  · next hu =>
    rw [if_neg hu] at hbyte
    refine ⟨(upperHexDigit_spec (by omega)).1, (upperHexDigit_spec (by omega)).1, ?_⟩
    rw [hbyte, ← isUnreserved_eq_unreservedChar]
    simpa using hu

end Piece

open Piece

/-! ## Section 3: The bytes of pieces -/

/-- A text made of valid pieces is ASCII: its bytes are its characters' codes. -/
theorem ofString_of_pieces {s : String} {ps : List Piece} (h : ∀ p ∈ ps, p.Valid)
    (hs : s.toList = ps.flatMap text) : ofString s = (ps.flatMap text).map asciiByte := by
  rw [← String.ofList_toList (s := s), hs, ofString_ofList, flatMap_utf8EncodeChar_of_ascii]
  intro c hc
  obtain ⟨p, hp, hc⟩ := List.mem_flatMap.1 hc
  exact (h p hp).ascii c hc

/-- The scanner reads a byte other than `%` as an unreserved byte. -/
theorem isEncodedBytes_cons {b : UInt8} (h : b ≠ 37) (rest : Bytes) :
    isEncodedBytes (b :: rest) = (isUnreserved b && isEncodedBytes rest) := by
  match rest with
  | [] => simp [isEncodedBytes]
  | [_] => simp [isEncodedBytes]
  | _ :: _ :: _ => simp [isEncodedBytes, h]

/-- The bytes of an escape are `%` and its two digits' codes. -/
theorem text_escape_bytes (hi lo : Char) (rest : Bytes) :
    (escape hi lo).text.map asciiByte ++ rest = 37 :: asciiByte hi :: asciiByte lo :: rest :=
  rfl

/-- The scanner passes over a valid piece. -/
theorem isEncodedBytes_piece {p : Piece} (hp : p.Valid) (rest : Bytes) :
    isEncodedBytes (p.text.map asciiByte ++ rest) = isEncodedBytes rest := by
  cases p with
  | plain c =>
    have hc : c.toNat < 128 := toNat_lt_of_unreservedChar hp
    simp only [text, List.map_cons, List.map_nil, List.cons_append, List.nil_append]
    rw [isEncodedBytes_cons (asciiByte_ne_percent hp), isUnreserved_asciiByte hc,
      show unreservedChar c = true from hp, Bool.true_and]
  | escape hi lo =>
    have hhi := toNat_lt_of_isHexDigit hp.1
    have hlo := toNat_lt_of_isHexDigit hp.2
    rw [text_escape_bytes, isEncodedBytes, isHexDigit_asciiByte hhi, isHexDigit_asciiByte hlo, hp.1, hp.2]
    rfl

/-- Decoding turns a valid piece into its byte. -/
theorem unescape_piece {p : Piece} (hp : p.Valid) (rest : Bytes) :
    unescape (p.text.map asciiByte ++ rest) = p.byte :: unescape rest := by
  cases p with
  | plain c => exact unescape_cons (asciiByte_ne_percent hp) rest
  | escape hi lo =>
    have hhi := toNat_lt_of_isHexDigit hp.1
    have hlo := toNat_lt_of_isHexDigit hp.2
    rw [text_escape_bytes, unescape, isHexDigit_asciiByte hhi, isHexDigit_asciiByte hlo, hp.1, hp.2, Bool.and_self,
      if_pos rfl, hexDigitValue_asciiByte hp.1, hexDigitValue_asciiByte hp.2]
    rfl

theorem isEncodedBytes_pieces {ps : List Piece} (h : ∀ p ∈ ps, p.Valid) (rest : Bytes) :
    isEncodedBytes ((ps.flatMap text).map asciiByte ++ rest) = isEncodedBytes rest := by
  induction ps with
  | nil => rfl
  | cons p ps ih =>
    rw [List.flatMap_cons, List.map_append, List.append_assoc,
      isEncodedBytes_piece (h p List.mem_cons_self),
      ih fun q hq => h q (List.mem_cons_of_mem p hq)]

theorem unescape_pieces {ps : List Piece} (h : ∀ p ∈ ps, p.Valid) (rest : Bytes) :
    unescape ((ps.flatMap text).map asciiByte ++ rest) = ps.map byte ++ unescape rest := by
  induction ps with
  | nil => rfl
  | cons p ps ih =>
    rw [List.flatMap_cons, List.map_append, List.append_assoc,
      unescape_piece (h p List.mem_cons_self), ih fun q hq => h q (List.mem_cons_of_mem p hq),
      List.map_cons, List.cons_append]

/-- A text made of valid pieces is strictly encoded. -/
theorem isEncoded_of_pieces {s : String} {ps : List Piece} (h : ∀ p ∈ ps, p.Valid)
    (hs : s.toList = ps.flatMap text) : isEncoded s = true := by
  rw [isEncoded, ofString_of_pieces h hs, ← List.append_nil ((ps.flatMap text).map asciiByte),
    isEncodedBytes_pieces h]
  rfl

/-- A text made of valid pieces decodes to the bytes of its pieces. -/
theorem decode?_of_pieces (L : Library) {s : String} {ps : List Piece} (h : ∀ p ∈ ps, p.Valid)
    (hs : s.toList = ps.flatMap text) : decode? L s = some (ps.map byte) := by
  rw [decode?_eq, if_pos (isEncoded_of_pieces h hs), ofString_of_pieces h hs,
    ← List.append_nil ((ps.flatMap text).map asciiByte), unescape_pieces h]
  simp [unescape]

/-! ## Section 4: The scanner accepts only the grammar -/

theorem toNat_lt_of_isHexDigit_byte {b : UInt8} (h : isHexDigit b = true) : b.toNat < 128 := by
  simp [isHexDigit, UInt8.le_iff_toNat_le] at h
  omega

/-- Every byte of an accepted text is ASCII. -/
theorem lt_128_of_isEncodedBytes {bs : Bytes} (h : isEncodedBytes bs = true) :
    ∀ b ∈ bs, b.toNat < 128 := by
  fun_induction isEncodedBytes bs with
  | case1 => simp
  | case2 hb lb rest ih =>
    simp only [Bool.and_eq_true] at h
    intro b hmem
    simp only [List.mem_cons] at hmem
    rcases hmem with rfl | rfl | rfl | hmem
    · decide
    · exact toNat_lt_of_isHexDigit_byte h.1.1
    · exact toNat_lt_of_isHexDigit_byte h.1.2
    · exact ih h.2 b hmem
  | case3 => simp at h
  | case4 b rest _ _ ih =>
    simp only [Bool.and_eq_true] at h
    intro x hmem
    rcases List.mem_cons.1 hmem with rfl | hmem
    · exact (isUnreserved_bounds h.1).1
    · exact ih h.2 x hmem

/-- An accepted run of ASCII bytes splits into valid pieces. -/
theorem exists_pieces_of_isEncodedBytes {bs : Bytes} (h : isEncodedBytes bs = true) :
    ∀ cs : List Char, (∀ c ∈ cs, c.toNat < 128) → cs.map asciiByte = bs →
      ∃ ps : List Piece, (∀ p ∈ ps, p.Valid) ∧ cs = ps.flatMap text := by
  fun_induction isEncodedBytes bs with
  | case1 =>
    intro cs _ hcs
    exact ⟨[], by simp, by simpa using hcs⟩
  | case2 hb lb rest ih =>
    simp only [Bool.and_eq_true] at h
    intro cs hascii hcs
    -- the characters are `%` and two hex digits, then the rest
    obtain ⟨c₁, cs₁, rfl, h₁, hcs₁⟩ := List.map_eq_cons_iff.1 hcs
    obtain ⟨c₂, cs₂, rfl, h₂, hcs₂⟩ := List.map_eq_cons_iff.1 hcs₁
    obtain ⟨c₃, cs₃, rfl, h₃, hcs₃⟩ := List.map_eq_cons_iff.1 hcs₂
    have ha : ∀ c ∈ cs₃, c.toNat < 128 := fun c hc => hascii c (by simp [hc])
    have hpct : c₁ = '%' := (asciiByte_eq_percent_iff (hascii c₁ (by simp))).1 h₁
    have hhi : c₂.isHexDigit = true := by
      rw [← isHexDigit_asciiByte (hascii c₂ (by simp)), h₂]
      exact h.1.1
    have hlo : c₃.isHexDigit = true := by
      rw [← isHexDigit_asciiByte (hascii c₃ (by simp)), h₃]
      exact h.1.2
    obtain ⟨ps, hps, rfl⟩ := ih h.2 cs₃ ha hcs₃
    exact ⟨escape c₂ c₃ :: ps, List.forall_mem_cons.2 ⟨⟨hhi, hlo⟩, hps⟩, by simp [hpct, text]⟩
  | case3 => simp at h
  | case4 b rest _ _ ih =>
    simp only [Bool.and_eq_true] at h
    intro cs hascii hcs
    obtain ⟨c, cs', rfl, hc, hcs'⟩ := List.map_eq_cons_iff.1 hcs
    have hcu : unreservedChar c = true := by
      rw [← isUnreserved_asciiByte (hascii c (by simp)), hc]
      exact h.1
    obtain ⟨ps, hps, rfl⟩ := ih h.2 cs' (fun x hx => hascii x (by simp [hx])) hcs'
    exact ⟨plain c :: ps, List.forall_mem_cons.2 ⟨hcu, hps⟩, rfl⟩

/-- The scanner accepts exactly the texts made of valid pieces. -/
theorem isEncoded_iff (s : String) :
    isEncoded s = true ↔ ∃ ps : List Piece, (∀ p ∈ ps, p.Valid) ∧ s.toList = ps.flatMap text := by
  constructor
  · intro h
    have hascii := ascii_of_ofString (lt_128_of_isEncodedBytes h)
    exact exists_pieces_of_isEncodedBytes h s.toList hascii (ofString_of_ascii hascii).symm
  · rintro ⟨ps, hps, hs⟩
    exact isEncoded_of_pieces hps hs

/-! ## Section 5: Canonical texts -/

/-- The encoder writes a valid piece's byte as that piece exactly when the piece is canonical;
otherwise its text differs within the piece. -/
theorem escapeWith_append_eq_iff {p : Piece} (hp : p.Valid) (X Y : List Char) :
    escapeWith queryValue p.byte ++ X = p.text ++ Y ↔ p.Canonical ∧ X = Y := by
  rw [escapeWith_queryValue]
  cases p with
  | plain c =>
    have hc := toNat_lt_of_unreservedChar hp
    have hu : isUnreserved (asciiByte c) = true := by
      rw [isUnreserved_asciiByte hc]
      exact hp
    simp [byte, text, Canonical, hu, ofNat_asciiByte hc]
  | escape hi lo =>
    have hhi := hexValue_lt hp.1
    have hlo := hexValue_lt hp.2
    have hval := toNat_byte_escape hp
    have hchar : unreservedChar (Char.ofNat (escape hi lo).byte.toNat) =
        isUnreserved (escape hi lo).byte := (isUnreserved_eq_unreservedChar _).symm
    split
    · -- an unreserved byte is written as a character other than `%`
      next hu =>
      have hne : Char.ofNat (escape hi lo).byte.toNat ≠ '%' := by
        have key : ∀ n < 128, isUnreserved n.toUInt8 = true → Char.ofNat n ≠ '%' := by decide
        have := key _ (isUnreserved_bounds hu).1
        rw [Nat.toUInt8_eq, UInt8.ofNat_toNat] at this
        exact this hu
      simp [text, Canonical, hchar, hu, hne]
    · next hu =>
      -- the digits written are the escape's own digits' values
      have hdiv : ((hexValue? hi).getD 0 * 16 + (hexValue? lo).getD 0) / 16 =
          (hexValue? hi).getD 0 := by
        omega
      have hmod : ((hexValue? hi).getD 0 * 16 + (hexValue? lo).getD 0) % 16 =
          (hexValue? lo).getD 0 := by
        omega
      rw [hval, hdiv, hmod]
      simp only [text, Canonical, hchar, List.cons_append, List.nil_append, List.cons.injEq,
        true_and, upperHexDigit_hexValue hp.1, upperHexDigit_hexValue hp.2]
      simp [hu, and_assoc]

theorem flatMap_escapeWith_eq_iff {ps : List Piece} (h : ∀ p ∈ ps, p.Valid) :
    (ps.map byte).flatMap (escapeWith queryValue) = ps.flatMap text ↔ ∀ p ∈ ps, p.Canonical := by
  induction ps with
  | nil => simp
  | cons p ps ih =>
    rw [List.map_cons, List.flatMap_cons, List.flatMap_cons,
      escapeWith_append_eq_iff (h p List.mem_cons_self),
      ih fun q hq => h q (List.mem_cons_of_mem p hq), List.forall_mem_cons]

/-- A text made of valid pieces is the encoding of what it decodes to exactly when all of its
pieces are canonical. -/
theorem encode_eq_iff_canonical (L : Library) {s : String} {ps : List Piece}
    (h : ∀ p ∈ ps, p.Valid) (hs : s.toList = ps.flatMap text) :
    encode L (ps.map byte) = s ↔ ∀ p ∈ ps, p.Canonical := by
  rw [← String.toList_inj, toList_encode, hs]
  exact flatMap_escapeWith_eq_iff h

/-- The encoding of bytes is made of canonical pieces, one per byte. -/
theorem encode_eq_pieces (L : Library) (b : Bytes) :
    (encode L b).toList = (b.map ofByte).flatMap text ∧
      (∀ p ∈ b.map ofByte, p.Valid ∧ p.Canonical) ∧ (b.map ofByte).map byte = b := by
  refine ⟨?_, ?_, ?_⟩
  · rw [toList_encode, List.flatMap_map]
    simp only [text_ofByte]
  · intro p hp
    obtain ⟨x, -, rfl⟩ := List.mem_map.1 hp
    exact ⟨valid_ofByte x, canonical_ofByte x⟩
  · simp [List.map_map, Function.comp_def, byte_ofByte]

/-! ## Section 6: Hex digests -/

theorem all_isHexDigit_ofString (s : String) :
    (ofString s).all isHexDigit = true ↔ ∀ c ∈ s.toList, c.isHexDigit = true := by
  constructor
  · intro h
    have hbytes := List.all_eq_true.1 h
    have hascii := ascii_of_ofString fun b hb => toNat_lt_of_isHexDigit_byte (hbytes b hb)
    intro c hc
    rw [← isHexDigit_asciiByte (hascii c hc)]
    exact hbytes _ (by rw [ofString_of_ascii hascii]; exact List.mem_map_of_mem hc)
  · intro h
    have hascii : ∀ c ∈ s.toList, c.toNat < 128 := fun c hc => toNat_lt_of_isHexDigit (h c hc)
    rw [ofString_of_ascii hascii, List.all_eq_true]
    intro b hb
    obtain ⟨c, hc, rfl⟩ := List.mem_map.1 hb
    rw [isHexDigit_asciiByte (hascii c hc)]
    exact h c hc

/-- A hex digest is turned into escapes exactly when it has an even number of characters, all
hex digits. -/
theorem encodeHex?_eq_some_iff (s t : String) :
    encodeHex? s = some t ↔
      (s.length % 2 = 0 ∧ ∀ c ∈ s.toList, c.isHexDigit = true) ∧
        t = String.ofList (encodeHex?.pairs s.toList) := by
  -- for a text of hex digits, bytes and characters are the same count
  have hlen : (∀ c ∈ s.toList, c.isHexDigit = true) → (ofString s).length = s.length := by
    intro h
    rw [ofString_of_ascii fun c hc => toNat_lt_of_isHexDigit (h c hc), List.length_map,
      String.length_toList]
  unfold encodeHex?
  dsimp only
  split
  · next hbad =>
    constructor
    · intro h
      cases h
    rintro ⟨⟨heven, hhex⟩, -⟩
    -- an even count of hex digits passes both tests
    have hall := (all_isHexDigit_ofString s).2 hhex
    rw [hlen hhex, hall] at hbad
    simp [heven] at hbad
  · next hgood =>
    have heven : (ofString s).length % 2 = 0 := by
      by_contra hodd
      exact hgood (by simp; omega)
    have hhex : ∀ c ∈ s.toList, c.isHexDigit = true := by
      refine (all_isHexDigit_ofString s).1 ?_
      by_contra hnot
      exact hgood (by simp [hnot])
    rw [hlen hhex] at heven
    constructor
    · intro h
      cases h
      exact ⟨⟨heven, hhex⟩, rfl⟩
    · rintro ⟨-, rfl⟩
      rfl

/-- Pairs of hex digits written as escapes are valid pieces standing for the bytes the pairs
denote. -/
theorem pairs_eq_pieces (cs : List Char) (hhex : ∀ c ∈ cs, c.isHexDigit = true)
    (heven : cs.length % 2 = 0) :
    ∃ ps : List Piece, (∀ p ∈ ps, p.Valid) ∧ encodeHex?.pairs cs = ps.flatMap text ∧
      ofHexChars? cs = some (ps.map byte) := by
  fun_induction encodeHex?.pairs cs with
  | case1 a c rest ih =>
    have ha := hhex a (by simp)
    have hc := hhex c (by simp)
    have hrest : rest.length % 2 = 0 := by
      simp only [List.length_cons] at heven
      omega
    obtain ⟨ps, hps, hpairs, hbytes⟩ := ih (fun x hx => hhex x (by simp [hx])) hrest
    obtain ⟨va, hva⟩ := Option.isSome_iff_exists.1 (isSome_hexValue? ha)
    obtain ⟨vc, hvc⟩ := Option.isSome_iff_exists.1 (isSome_hexValue? hc)
    refine ⟨escape a c :: ps, List.forall_mem_cons.2 ⟨⟨ha, hc⟩, hps⟩, by simp [hpairs, text], ?_⟩
    simp [ofHexChars?, hva, hvc, hbytes, byte]
  | case2 cs hnot =>
    -- an even count that is not two or more is zero
    cases cs with
    | nil => exact ⟨[], by simp, rfl, rfl⟩
    | cons a rest =>
      cases rest with
      | nil => simp at heven
      | cons c rest => exact absurd rfl (hnot a c rest)

/-- An escaped hex digest denotes bytes, and decodes to them. -/
theorem decode?_encodeHex? (L : Library) {s t : String} (h : encodeHex? s = some t) :
    ∃ b, ofHex? s = some b ∧ decode? L t = some b := by
  obtain ⟨⟨heven, hhex⟩, rfl⟩ := (encodeHex?_eq_some_iff s t).1 h
  obtain ⟨ps, hps, hpairs, hbytes⟩ :=
    pairs_eq_pieces s.toList hhex (by rwa [String.length_toList])
  refine ⟨ps.map byte, by rw [ofHex?, hbytes], ?_⟩
  exact decode?_of_pieces L hps (by rw [String.toList_ofList, hpairs])

/-! ## Section 7: The codec -/

/-- The percent codec round-trips and accepts exactly its grammar, whatever percent-encoding
library it runs on, as long as the library behaves as documented. Encoding writes every byte as
one canonical piece, so it is undone by decoding. A text decodes exactly when the scanner
accepts it, which it does exactly for the texts made of unreserved characters and escapes of two
hex digits; such a text decodes to the bytes of its pieces, and is the encoding of them exactly
when every escape is canonical. A hex digest is escaped exactly when it is an even number of hex
digits, and it then denotes bytes and decodes to them. -/
theorem percent_codec_grammar (L : Library) :
    (∀ b : Bytes, decode? L (encode L b) = some b ∧
      ∃ ps : List Piece, (∀ p ∈ ps, p.Valid ∧ p.Canonical) ∧
        (encode L b).toList = ps.flatMap text ∧ ps.map byte = b) ∧
    (∀ s : String, ((decode? L s).isSome ↔ isEncoded s = true) ∧
      (isEncoded s = true ↔ ∃ ps : List Piece, (∀ p ∈ ps, p.Valid) ∧ s.toList = ps.flatMap text)) ∧
    (∀ (s : String) (ps : List Piece), (∀ p ∈ ps, p.Valid) → s.toList = ps.flatMap text →
      decode? L s = some (ps.map byte) ∧ (encode L (ps.map byte) = s ↔ ∀ p ∈ ps, p.Canonical)) ∧
    (∀ s : String, ((encodeHex? s).isSome ↔
        s.length % 2 = 0 ∧ ∀ c ∈ s.toList, c.isHexDigit = true) ∧
      ∀ t, encodeHex? s = some t → ∃ b, ofHex? s = some b ∧ decode? L t = some b) := by
  refine ⟨fun b => ⟨decode?_encode L b, ?_⟩, fun s => ⟨?_, isEncoded_iff s⟩,
    fun s ps h hs => ⟨decode?_of_pieces L h hs, encode_eq_iff_canonical L h hs⟩,
    fun s => ⟨?_, fun t => decode?_encodeHex? L⟩⟩
  · obtain ⟨htext, hpieces, hbytes⟩ := encode_eq_pieces L b
    exact ⟨_, hpieces, htext, hbytes⟩
  · rw [decode?_eq]
    split <;> simp_all
  · rw [Option.isSome_iff_exists]
    simp only [encodeHex?_eq_some_iff]
    exact ⟨fun ⟨_, h, _⟩ => h, fun h => ⟨_, h, rfl⟩⟩

/-- `%41%7e` decodes to `A~`, and re-encoding gives `A~`: neither escape is canonical. -/
theorem lower_case_escapes_not_canonical :
    decode? .reference "%41%7e" = some [65, 126] ∧
      (encode .reference ([Piece.escape '4' '1', Piece.escape '7' 'e'].map byte) = "%41%7e" ↔
        ∀ p ∈ [Piece.escape '4' '1', Piece.escape '7' 'e'], p.Canonical) :=
  (percent_codec_grammar .reference).2.2.1 "%41%7e" [.escape '4' '1', .escape '7' 'e'] (by decide) rfl

end BitTorrent.Percent
