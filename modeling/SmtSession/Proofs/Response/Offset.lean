import SmtSession.Proofs.Response.Normalization

/-!
# Replacing literals by offsets

A host has a reply as bytes.  It looks for `bv`, counts the bytes of the digits
that follow, and cuts the text at the offsets that it gets from these numbers.
Such a cut may miss: the offset may lie beyond the end of the text or within a
character.  Here all cuts are partial functions, and a text is replaced only if
none of them misses (`ReplacedBy`).

None does, whatever the text is (`replacedBy_iff`): what is counted are digits,
which take one byte each, and the other offsets are those of a `b`.  So the
result is that of replacing literals character by character, and
`normalize_exact` says what that is.
-/

namespace SmtSession

/-! ## Bytes -/

/-- The number of bytes that a text takes. -/
def byteLength (text : List Char) : Nat :=
  (text.map Char.utf8Size).sum

/-- Cuts a text at a byte offset, if a character starts there or the text ends there. -/
def cutAt? : Nat → List Char → Option (List Char × List Char)
  | 0, text => some ([], text)
  | _ + 1, [] => none
  | offset + 1, c :: text =>
    if c.utf8Size ≤ offset + 1 then
      (cutAt? (offset + 1 - c.utf8Size) text).map fun (front, rest) => (c :: front, rest)
    else none

/-- The number of bytes at the start of a text that are decimal digits. -/
def digitBytes (text : List Char) : Nat :=
  ((text.flatMap String.utf8EncodeChar).takeWhile fun byte => 0x30 ≤ byte && byte ≤ 0x39).length

@[simp] theorem byteLength_cons (c : Char) (text : List Char) :
    byteLength (c :: text) = c.utf8Size + byteLength text := by
  simp [byteLength]

/-- **A cut between two characters does not miss.** -/
theorem cutAt?_byteLength (front rest : List Char) :
    cutAt? (byteLength front) (front ++ rest) = some (front, rest) := by
  induction front with
  | nil => simp [byteLength, cutAt?]
  | cons c front ih =>
      obtain ⟨size, hsize⟩ := Nat.exists_eq_add_one_of_ne_zero c.utf8Size_pos.ne'
      have hoffset : byteLength (c :: front) = size + byteLength front + 1 := by
        rw [byteLength_cons, hsize]
        omega
      have hremaining : size + byteLength front + 1 - c.utf8Size = byteLength front := by omega
      rw [hoffset, List.cons_append, cutAt?, if_pos (by omega), hremaining, ih]
      rfl

/-- Characters of ASCII take one byte each. -/
theorem byteLength_eq_length {text : List Char} (h : ∀ c ∈ text, c.toNat ≤ 127) :
    byteLength text = text.length := by
  induction text with
  | nil => rfl
  | cons c text ih =>
      rw [List.forall_mem_cons] at h
      have hsize : c.utf8Size = 1 := Char.utf8Size_eq_one_iff.mpr h.1
      rw [byteLength_cons, ih h.2, hsize, List.length_cons, Nat.add_comm]

/-- As many characters of ASCII as bytes are cut off. -/
theorem cutAt?_length {front : List Char} (h : ∀ c ∈ front, c.toNat ≤ 127) (rest : List Char) :
    cutAt? front.length (front ++ rest) = some (front, rest) := by
  rw [← byteLength_eq_length h, cutAt?_byteLength]

theorem toNat_le_of_isDigit {c : Char} (h : c.isDigit) : c.toNat ≤ 127 :=
  Nat.le_trans (Char.isDigit_iff_toNat.mp h).2 (by decide)

theorem toNat_le_of_isBinaryDigit {c : Char} (h : isBinaryDigit c) : c.toNat ≤ 127 := by
  obtain rfl | rfl : c = '0' ∨ c = '1' := by simpa [isBinaryDigit] using h
  · decide
  · decide

theorem isDigit_eq (c : Char) : c.isDigit = (0x30 ≤ c.toNat && c.toNat ≤ 0x39) := by
  rw [Bool.eq_iff_iff, Char.isDigit_iff_toNat, Bool.and_eq_true, decide_eq_true_eq,
    decide_eq_true_eq]
  rfl

/-- A digit is encoded as itself, and no other character begins with the byte of a digit. -/
theorem utf8EncodeChar_digit (c : Char) :
    ∃ byte bytes, String.utf8EncodeChar c = byte :: bytes ∧
      (0x30 ≤ byte && byte ≤ 0x39) = c.isDigit ∧ (c.isDigit → bytes = []) := by
  have hbyte (n : Nat) (hn : n < 256) :
      (0x30 ≤ UInt8.ofNat n && UInt8.ofNat n ≤ 0x39) = (0x30 ≤ n && n ≤ 0x39) := by
    simp [UInt8.le_iff_toNat_le, Nat.mod_eq_of_lt hn]
  -- the first byte of a longer encoding is at least 192
  have hlong (n : Nat) (bytes : List UInt8) (hn : 192 ≤ n) (hn' : n < 256) (hc : 127 < c.toNat) :
      ∃ byte bytes', UInt8.ofNat n :: bytes = byte :: bytes' ∧
        (0x30 ≤ byte && byte ≤ 0x39) = c.isDigit ∧ (c.isDigit → bytes' = []) := by
    have hdigit : c.isDigit = false := by
      rw [isDigit_eq]
      simp
      omega
    refine ⟨_, _, rfl, ?_, by simp [hdigit]⟩
    rw [hbyte n hn', hdigit]
    simp
    omega
  rw [String.utf8EncodeChar]
  split
  · next hc =>
      refine ⟨_, _, rfl, ?_, fun _ => rfl⟩
      rw [hbyte _ (by omega), isDigit_eq]
      rfl
  · next hc =>
      have hc : 127 < c.toNat := Nat.lt_of_not_le hc
      split
      · exact hlong _ _ (by omega) (by omega) hc
      · split
        · exact hlong _ _ (by omega) (by omega) hc
        · exact hlong _ _ (by omega) (by omega) hc

/-- Counting bytes is counting digits. -/
theorem digitBytes_eq (text : List Char) :
    digitBytes text = (text.takeWhile Char.isDigit).length := by
  induction text with
  | nil => rfl
  | cons c text ih =>
      obtain ⟨byte, bytes, hencode, hdigit, hsingle⟩ := utf8EncodeChar_digit c
      rw [digitBytes, List.flatMap_cons, hencode, List.cons_append, List.takeWhile_cons, hdigit,
        List.takeWhile_cons]
      cases hc : c.isDigit with
      | false => rfl
      | true =>
          rw [hsingle hc]
          simpa [digitBytes] using ih

/-- The digits that a text starts with, if `mark` follows them, and what follows the mark, unless
the cut between them misses. -/
def digitsBefore? (mark : Char) (text : List Char) : Option (Option (List Char × List Char)) :=
  if digitBytes text = 0 then some none
  else
    (cutAt? (digitBytes text) text).map fun (digits, rest) =>
      if rest.head? = some mark then some (digits, rest.tail) else none

/-- The cut after the digits does not miss. -/
theorem digitsBefore?_eq (mark : Char) (text : List Char) :
    digitsBefore? mark text = some (if text.takeWhile Char.isDigit = [] then none
      else if (text.dropWhile Char.isDigit).head? = some mark then
        some (text.takeWhile Char.isDigit, (text.dropWhile Char.isDigit).tail)
      else none) := by
  have hdigits : ∀ c ∈ text.takeWhile Char.isDigit, c.toNat ≤ 127 :=
    fun c hc => toNat_le_of_isDigit (List.mem_takeWhile_imp hc)
  have hcut := cutAt?_length hdigits (text.dropWhile Char.isDigit)
  rw [List.takeWhile_append_dropWhile] at hcut
  simp only [digitsBefore?, digitBytes_eq, hcut, List.length_eq_zero_iff]
  split <;> rfl

theorem digitsBefore?_append {mark : Char} {digits : List Char} (hdigits : isDigits digits)
    (hmark : mark.isDigit = false) (rest : List Char) :
    digitsBefore? mark (digits ++ mark :: rest) = some (some (digits, rest)) := by
  obtain ⟨hsome, hall⟩ := isDigits_iff.mp hdigits
  rw [digitsBefore?_eq, List.takeWhile_append_of_pos hall, List.dropWhile_append_of_pos hall]
  simp [hmark, hsome]

theorem digitsBefore?_cases (mark : Char) (text : List Char) :
    digitsBefore? mark text = some none ∨
      ∃ digits rest, isDigits digits ∧ text = digits ++ mark :: rest ∧
        digitsBefore? mark text = some (some (digits, rest)) := by
  rw [digitsBefore?_eq]
  split
  · exact .inl rfl
  · next hsome =>
      split
      · next hmark =>
          obtain ⟨rest, hrest⟩ := List.head?_eq_some_iff.mp hmark
          refine .inr ⟨text.takeWhile Char.isDigit, rest, ?_, ?_, by rw [hrest]; rfl⟩
          · exact isDigits_iff.mpr ⟨hsome, fun c => List.mem_takeWhile_imp⟩
          · rw [← hrest, List.takeWhile_append_dropWhile]
      · exact .inl rfl

/-! ## Digits of a value -/

/-- The lowest digits of a value: those that it has are cut, or zeros are put in front. -/
def lowBits? (width value : Nat) : Option (List Char) :=
  let digits := Nat.toDigits 2 value
  if width ≤ digits.length then (cutAt? (digits.length - width) digits).map Prod.snd
  else some (List.replicate (width - digits.length) '0' ++ digits)

theorem isBinaryDigit_of_mem_toDigits {value : Nat} {c : Char} (h : c ∈ Nat.toDigits 2 value) :
    isBinaryDigit c := by
  induction value using Nat.strongRecOn with
  | ind value ih =>
      have hdigit (bit : Nat) (hbit : bit < 2) : isBinaryDigit bit.digitChar := by
        obtain rfl | rfl : bit = 0 ∨ bit = 1 := by omega
        · rfl
        · rfl
      rw [Nat.toDigits_eq_if (by decide)] at h
      split at h
      · next hlt =>
          rw [List.mem_singleton.mp h]
          exact hdigit value hlt
      · next hge =>
          rcases List.mem_append.mp h with hfront | hlast
          · exact ih (value / 2) (by omega) hfront
          · rw [List.mem_singleton.mp hlast]
            exact hdigit _ (Nat.mod_lt _ (by decide))

/-- A value is written in digits for as many places as it needs. -/
theorem toDigits_eq_bits (value : Nat) :
    ∃ places, Nat.toDigits 2 value = bits places value ∧ value < 2 ^ places := by
  have hdigits : Nat.toDigits 2 value =
      bits (Nat.toDigits 2 value).length (Nat.ofDigitChars 2 (Nat.toDigits 2 value) 0) :=
    eq_bits_of_isBinaryDigit fun c => isBinaryDigit_of_mem_toDigits
  have hvalue := Nat.ofDigitChars_toDigits (n := value) (b := 2) (by decide) (by decide)
  rw [hvalue] at hdigits
  generalize (Nat.toDigits 2 value).length = places at hdigits
  rw [hdigits, ofDigitChars_bits] at hvalue
  exact ⟨places, hdigits, hvalue ▸ Nat.mod_lt value (Nat.two_pow_pos places)⟩

/-- The digits of higher places stand in front. -/
theorem bits_add (width more value : Nat) :
    bits (width + more) value = bits more (value / 2 ^ width) ++ bits width value := by
  simp [bits, List.range_add, Nat.testBit_div_two_pow, Function.comp_def, Nat.add_comm]

theorem bits_zero (width : Nat) : bits width 0 = List.replicate width '0' := by
  simp [bits, List.map_const']

theorem lowBits?_eq (width value : Nat) : lowBits? width value = some (bits width value) := by
  obtain ⟨places, hdigits, hvalue⟩ := toDigits_eq_bits value
  simp only [lowBits?, hdigits, length_bits]
  split
  · next hle =>
      obtain ⟨more, rfl⟩ := Nat.exists_eq_add_of_le hle
      have hbits : ∀ c ∈ bits more (value / 2 ^ width), c.toNat ≤ 127 :=
        fun c hc => toNat_le_of_isBinaryDigit (isBinaryDigit_of_mem_bits hc)
      have hcut := cutAt?_length hbits (bits width value)
      rw [length_bits] at hcut
      rw [bits_add, Nat.add_sub_cancel_left, hcut]
      rfl
  · next hlt =>
      obtain ⟨more, rfl⟩ := Nat.exists_eq_add_of_le (Nat.le_of_not_le hlt)
      rw [bits_add, Nat.div_eq_of_lt hvalue, bits_zero, Nat.add_sub_cancel_left]

/-! ## Cutting out literals -/

/-- The byte offset of the first `bv`. -/
def findMark? : List Char → Option Nat
  | [] => none
  | c :: text =>
    if ['b', 'v'].isPrefixOf (c :: text) then some 0
    else (findMark? text).map (c.utf8Size + ·)

/-- The digits and the number of bytes of the literal that a text starts with, if there is one,
unless a cut misses. -/
def literalAt? : List Char → Option (Option (List Char × Nat))
  | 'b' :: 'v' :: after =>
    match digitsBefore? '[' after with
    | none => none
    | some none => some none
    | some (some (value, inner)) =>
      match digitsBefore? ']' inner with
      | none => none
      | some none => some none
      | some (some (width, _)) =>
        if maxWidth < Nat.ofDigitChars 10 width 0 then some none
        else
          (lowBits? (Nat.ofDigitChars 10 width 0) (Nat.ofDigitChars 10 value 0)).map fun digits =>
            some (digits, 2 + digitBytes after + 1 + digitBytes inner + 1)
  | _ => some none

/-- The text becomes the other one, and no cut misses: text before a `bv` is kept, a literal is cut
out by its length, and of any other `bv` the first character is kept. -/
inductive ReplacedBy : List Char → List Char → Prop
  | finished {text : List Char} : findMark? text = none → ReplacedBy text text
  | literal {text front candidate literal digits after replaced : List Char} {offset length : Nat} :
      findMark? text = some offset → cutAt? offset text = some (front, candidate) →
        literalAt? candidate = some (some (digits, length)) →
          cutAt? length candidate = some (literal, after) → ReplacedBy after replaced →
            ReplacedBy text (front ++ '#' :: 'b' :: digits ++ replaced)
  | other {text front candidate mark after replaced : List Char} {offset : Nat} :
      findMark? text = some offset → cutAt? offset text = some (front, candidate) →
        literalAt? candidate = some none → cutAt? 1 candidate = some (mark, after) →
          ReplacedBy after replaced → ReplacedBy text (front ++ 'b' :: replaced)

/-- What is not found first, in the text before it, is no literal. -/
theorem findMark?_eq (text : List Char) :
    (findMark? text = none ∧ normalizeChars text = text) ∨
      ∃ front rest, text = front ++ 'b' :: 'v' :: rest ∧ findMark? text = some (byteLength front) ∧
        normalizeChars text = front ++ normalizeChars ('b' :: 'v' :: rest) := by
  induction text with
  | nil => exact .inl ⟨rfl, by rw [normalizeChars]⟩
  | cons c text ih =>
      cases hmark : ['b', 'v'].isPrefixOf (c :: text) with
      | true =>
          obtain ⟨rest, hrest⟩ := List.isPrefixOf_iff_prefix.mp hmark
          exact .inr ⟨[], rest, hrest.symm, by simp [findMark?, hmark, byteLength],
            by rw [← hrest]; rfl⟩
      | false =>
          have hnone : bitVector? (c :: text) = none := by
            unfold bitVector?
            split
            · next h =>
                rw [h] at hmark
                simp at hmark
            · rfl
          rw [normalizeChars_of_eq_none hnone]
          obtain ⟨hfind, hsame⟩ | ⟨front, rest, rfl, hfind, hrest⟩ := ih
          · exact .inl ⟨by simp [findMark?, hmark, hfind], by rw [hsame]⟩
          · exact .inr ⟨c :: front, rest, rfl, by simp [findMark?, hmark, hfind],
              by rw [hrest]; rfl⟩

theorem digitBytes_append {mark : Char} {digits : List Char} (hdigits : isDigits digits)
    (hmark : mark.isDigit = false) (rest : List Char) :
    digitBytes (digits ++ mark :: rest) = digits.length := by
  rw [digitBytes_eq, List.takeWhile_append_of_pos (isDigits_iff.mp hdigits).2]
  simp [hmark]

theorem literalAt?_literal {value width : List Char} (h : IsReplaced value width)
    (rest : List Char) :
    literalAt? (bitVectorLiteral value width ++ rest) =
      some (some (bits (Nat.ofDigitChars 10 width 0) (Nat.ofDigitChars 10 value 0),
        (bitVectorLiteral value width).length)) := by
  obtain ⟨hvalue, hwidth, hwide⟩ := h
  have htext : bitVectorLiteral value width ++ rest =
      'b' :: 'v' :: (value ++ '[' :: (width ++ ']' :: rest)) := by
    simp [bitVectorLiteral, bitVectorTail]
  have hlength : (bitVectorLiteral value width).length =
      2 + value.length + 1 + width.length + 1 := by
    simp [bitVectorLiteral, bitVectorTail]
    omega
  rw [htext, literalAt?, digitsBefore?_append hvalue rfl]
  dsimp only
  rw [digitsBefore?_append hwidth rfl, digitBytes_append hvalue rfl, digitBytes_append hwidth rfl,
    hlength]
  dsimp only
  rw [if_neg (Nat.not_lt.mpr hwide), lowBits?_eq]
  rfl

/-- No cut misses on the way to seeing that there is no literal. -/
theorem literalAt?_of_eq_none {text : List Char} (h : bitVector? text = none) :
    literalAt? text = some none := by
  unfold literalAt?
  split
  · next after =>
      obtain hvalue | ⟨value, inner, hdigits, rfl, hvalue⟩ := digitsBefore?_cases '[' after
      · rw [hvalue]
      · rw [hvalue]
        dsimp only
        obtain hwidth | ⟨width, rest, hdigits', rfl, hwidth⟩ := digitsBefore?_cases ']' inner
        · rw [hwidth]
        · rw [hwidth]
          refine if_pos (Nat.lt_of_not_le fun hwide => ?_)
          have hsome := bitVector?_literal ⟨hdigits, hdigits', hwide⟩ rest
          simp only [bitVectorLiteral, bitVectorTail, List.cons_append, List.append_assoc,
            List.nil_append, h] at hsome
          cases hsome
  · rfl

theorem cutAt?_literal {value width : List Char} (h : IsReplaced value width) (rest : List Char) :
    cutAt? (bitVectorLiteral value width).length (bitVectorLiteral value width ++ rest) =
      some (bitVectorLiteral value width, rest) := by
  refine cutAt?_length (fun c hc => ?_) rest
  have hdigits := (isDigits_iff.mp h.1).2
  have hdigits' := (isDigits_iff.mp h.2.1).2
  simp only [bitVectorLiteral, bitVectorTail, List.mem_cons, List.mem_append, List.cons_append,
    List.not_mem_nil, or_false] at hc
  rcases hc with rfl | rfl | (hc | rfl | hc) | rfl
  · decide
  · decide
  · exact toNat_le_of_isDigit (hdigits c hc)
  · decide
  · exact toNat_le_of_isDigit (hdigits' c hc)
  · decide

/-! ## Whole texts -/

/-- Whether a literal starts at a `bv`, and what is seen there. -/
theorem candidate_cases (rest : List Char) :
    (∃ value width after, IsReplaced value width ∧
      'b' :: 'v' :: rest = bitVectorLiteral value width ++ after) ∨
    literalAt? ('b' :: 'v' :: rest) = some none ∧
      normalizeChars ('b' :: 'v' :: rest) = 'b' :: normalizeChars ('v' :: rest) := by
  cases hfound : bitVector? ('b' :: 'v' :: rest) with
  | some found =>
      obtain ⟨value, width, hreplaced, -, htext⟩ := bitVector?_eq_some_iff.mp hfound
      exact .inl ⟨value, width, found.2, hreplaced, htext⟩
  | none => exact .inr ⟨literalAt?_of_eq_none hfound, normalizeChars_of_eq_none hfound⟩

theorem cutAt?_one (rest : List Char) : cutAt? 1 ('b' :: rest) = some (['b'], rest) := by
  have hmark : ∀ c ∈ ['b'], c.toNat ≤ 127 := by
    intro c hc
    rw [List.mem_singleton.mp hc]
    decide
  exact cutAt?_length hmark rest

/-- What comes out with cuts comes out without. -/
theorem ReplacedBy.eq {text replaced : List Char} (h : ReplacedBy text replaced) :
    replaced = normalizeChars text := by
  induction h with
  | @finished text hfind =>
      obtain ⟨-, hsame⟩ | ⟨front, rest, -, hmark, -⟩ := findMark?_eq text
      · exact hsame.symm
      · rw [hfind] at hmark
        cases hmark
  | @literal text _ _ literal digits after replaced _ length hfind hcut hliteral hafter _ ih =>
      obtain ⟨hnone, -⟩ | ⟨front, rest, rfl, hmark, hnormal⟩ := findMark?_eq text
      · rw [hnone] at hfind
        cases hfind
      · cases hmark.symm.trans hfind
        cases (cutAt?_byteLength front _).symm.trans hcut
        obtain ⟨value, width, more, hreplaced, htext⟩ | ⟨hnone, -⟩ := candidate_cases rest
        · rw [htext] at hliteral hafter hnormal ⊢
          cases (literalAt?_literal hreplaced more).symm.trans hliteral
          cases (cutAt?_literal hreplaced more).symm.trans hafter
          rw [hnormal, normalizeChars_literal hreplaced, ih]
          simp [bitVectorDigits]
        · rw [hnone] at hliteral
          cases hliteral
  | @other text _ _ mark after replaced _ hfind hcut hliteral hafter _ ih =>
      obtain ⟨hnone, -⟩ | ⟨front, rest, rfl, hmark, hnormal⟩ := findMark?_eq text
      · rw [hnone] at hfind
        cases hfind
      · cases hmark.symm.trans hfind
        cases (cutAt?_byteLength front _).symm.trans hcut
        obtain ⟨value, width, more, hreplaced, htext⟩ | ⟨-, hkept⟩ := candidate_cases rest
        · rw [htext, literalAt?_literal hreplaced more] at hliteral
          cases hliteral
        · cases (cutAt?_one ('v' :: rest)).symm.trans hafter
          rw [hnormal, hkept, ih]

/-- The end is reached, and no cut misses. -/
theorem replacedBy_normalizeChars (text : List Char) : ReplacedBy text (normalizeChars text) := by
  induction hlength : text.length using Nat.strongRecOn generalizing text with
  | ind length ih =>
      subst hlength
      obtain ⟨hnone, hsame⟩ | ⟨front, rest, rfl, hmark, hnormal⟩ := findMark?_eq text
      · rw [hsame]
        exact .finished hnone
      · rw [hnormal]
        obtain ⟨value, width, after, hreplaced, htext⟩ | ⟨hnone, hkept⟩ := candidate_cases rest
        · rw [htext] at hmark ih ⊢
          have hafter := ih after.length (by simp [bitVectorLiteral]; omega) after rfl
          have hreplacedBy := ReplacedBy.literal hmark (cutAt?_byteLength front _)
            (literalAt?_literal hreplaced after) (cutAt?_literal hreplaced after) hafter
          rw [normalizeChars_literal hreplaced]
          simpa [bitVectorDigits] using hreplacedBy
        · rw [hkept]
          exact .other hmark (cutAt?_byteLength front _) hnone (cutAt?_one _)
            (ih _ (by simp; omega) _ rfl)

/-- **Every text is replaced by cuts that do not miss, and by one other text only.** -/
theorem replacedBy_iff {text replaced : List Char} :
    ReplacedBy text replaced ↔ replaced = normalizeChars text :=
  ⟨ReplacedBy.eq, fun h => h ▸ replacedBy_normalizeChars text⟩

/-- **Every literal is replaced by the digits of its value, and nothing else is changed.** -/
theorem normalize_exact :
    (∀ before value width after : String, isDigits value.toList → isDigits width.toList →
      Nat.ofDigitChars 10 width.toList 0 ≤ maxWidth → ∃ digits : String,
        digits.length = Nat.ofDigitChars 10 width.toList 0 ∧
        (∀ c ∈ digits.toList, isBinaryDigit c) ∧
        Nat.ofDigitChars 2 digits.toList 0 =
          Nat.ofDigitChars 10 value.toList 0 % 2 ^ Nat.ofDigitChars 10 width.toList 0 ∧
        normalize (before ++ ("bv" ++ value ++ "[" ++ width ++ "]") ++ after) =
          normalize before ++ ("#b" ++ digits) ++ normalize after) ∧
    (∀ text, HasNoBitVector text → normalize text = text) ∧
    ∀ (text : String) (replaced : List Char),
      ReplacedBy text.toList replaced ↔ replaced = (normalize text).toList := by
  refine ⟨?_, fun text => normalize_eq_self, fun text replaced => ?_⟩
  · intro before value width after hvalue hwidth hwide
    refine ⟨String.ofList (bits (Nat.ofDigitChars 10 width.toList 0)
      (Nat.ofDigitChars 10 value.toList 0)), ?_, ?_, ?_, ?_⟩
    · simp
    · intro c hc
      rw [String.toList_ofList] at hc
      exact isBinaryDigit_of_mem_bits hc
    · rw [String.toList_ofList, ofDigitChars_bits]
    · have hwithin := normalizeChars_literal_within ⟨hvalue, hwidth, hwide⟩ before.toList
        after.toList
      rw [← String.toList_inj]
      simpa [bitVectorLiteral, bitVectorTail, bitVectorDigits] using hwithin
  · rw [replacedBy_iff, toList_normalize]

/-- A literal between the parts of others, and one that is too wide. -/
theorem normalize_exact_nested :
    (∃ digits : String, digits.length = 4 ∧ (∀ c ∈ digits.toList, isBinaryDigit c) ∧
      Nat.ofDigitChars 2 digits.toList 0 = 21 % 2 ^ 4 ∧
      normalize ("λbv1[" ++ ("bv" ++ "21" ++ "[" ++ "04" ++ "]") ++ "]v2[3]") =
        normalize "λbv1[" ++ ("#b" ++ digits) ++ normalize "]v2[3]") ∧
    normalize "bv1[65537]" = "bv1[65537]" := by
  refine ⟨normalize_exact.1 "λbv1[" "21" "04" "]v2[3]" (by decide) (by decide) (by decide),
    normalize_exact.2.1 "bv1[65537]" ?_⟩
  rw [hasNoBitVector_iff, ← normalizeChars_eq_self_iff]
  decide +kernel

end SmtSession
