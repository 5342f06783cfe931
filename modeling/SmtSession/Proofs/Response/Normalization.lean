import SmtSession.Proofs.Response.BitVector
import SmtSession.Proofs.Slice
import SmtSession.Proofs.Token.Spelling
import SmtSession.Response.Decoder

/-!
# Replacing the literals of old solvers

A literal starts with a `b` and has no other one.  So none that starts before a
`b` of the text reaches it, and the parts before and after may be replaced apart
(`normalizeChars_append`).  In particular a literal is replaced wherever it
stands, and what stands around it is replaced as if it were alone.

What is written for a literal starts with `#`, which no literal has.  So a
literal of the result has either stood in the text, and then it would have been
replaced, or its `b` has been written for another literal.  After that `b` come
digits, unless the width is zero: `JoinsBitVector` says that the rest of a
literal follows.  These are the texts that are not settled by being replaced
once (`normalize_normalize_iff`).
-/

namespace SmtSession

/-! ## The first character -/

section

variable {text digits rest : List Char}

theorem normalizeChars_of_bitVector? (h : bitVector? text = some (digits, rest)) :
    normalizeChars text = digits ++ normalizeChars rest := by
  cases text with
  | nil => simp [bitVector?] at h
  | cons c text =>
      rw [normalizeChars]
      split
      · next hfound =>
          rw [h] at hfound
          cases hfound
          rfl
      · next hnone => simp [h] at hnone

theorem normalizeChars_of_eq_none {c : Char} (h : bitVector? (c :: rest) = none) :
    normalizeChars (c :: rest) = c :: normalizeChars rest := by
  rw [normalizeChars]
  split
  · next hfound => simp [h] at hfound
  · rfl

theorem bitVector?_eq_none_of_ne {c : Char} (hc : c ≠ 'b') : bitVector? (c :: rest) = none := by
  unfold bitVector?
  split
  · next h => exact absurd (List.cons_eq_cons.mp h).1 hc
  · rfl

end

theorem normalizeChars_literal {value width : List Char} (h : IsReplaced value width)
    (rest : List Char) :
    normalizeChars (bitVectorLiteral value width ++ rest) =
      bitVectorDigits value width ++ normalizeChars rest :=
  normalizeChars_of_bitVector? (bitVector?_literal h rest)

/-! ## Cutting before a `b` -/

/-- The characters of a literal after its first one are neither `b` nor `#`. -/
theorem not_mem_bitVectorTail {value width : List Char} (h : IsReplaced value width) :
    'b' ∉ bitVectorTail value width ∧ '#' ∉ bitVectorTail value width := by
  obtain ⟨hvalue, hwidth, -⟩ := h
  have hdigits (c : Char) (hc : c.isDigit = false) : c ∉ value ∧ c ∉ width := by
    refine ⟨fun hmem => ?_, fun hmem => ?_⟩
    · simpa [hc] using (isDigits_iff.mp hvalue).2 c hmem
    · simpa [hc] using (isDigits_iff.mp hwidth).2 c hmem
  simp [bitVectorTail, hdigits 'b' rfl, hdigits '#' rfl]

/-- A literal that starts before a `b` ends before it. -/
theorem bitVector?_append {front : List Char} (hfront : front ≠ []) (rest : List Char) :
    bitVector? (front ++ 'b' :: rest) =
      (bitVector? front).map fun found => (found.1, found.2 ++ 'b' :: rest) := by
  cases hfound : bitVector? front with
  | some found =>
      obtain ⟨digits, after⟩ := found
      obtain ⟨value, width, hreplaced, rfl, rfl⟩ := bitVector?_eq_some_iff.mp hfound
      rw [List.append_assoc]
      exact bitVector?_literal hreplaced _
  | none =>
      refine Option.eq_none_iff_forall_ne_some.mpr fun found hwhole => ?_
      obtain ⟨value, width, hreplaced, -, htext⟩ := bitVector?_eq_some_iff.mp hwhole
      obtain ⟨between, hliteral, hrest⟩ | ⟨after, rfl, -⟩ := List.append_eq_append_iff.mp htext
      · cases between with
        | nil =>
            rw [List.append_nil] at hliteral
            have hsome := bitVector?_literal hreplaced []
            rw [List.append_nil, hliteral, hfound] at hsome
            cases hsome
        | cons c between =>
            -- the `b` of the text would be one of the literal
            obtain ⟨d, front, rfl⟩ := List.exists_cons_of_ne_nil hfront
            obtain ⟨rfl, -⟩ := List.cons_eq_cons.mp hrest
            obtain ⟨-, htail⟩ := List.cons_eq_cons.mp hliteral
            exact (not_mem_bitVectorTail hreplaced).1 (by simp [htail])
      · rw [bitVector?_literal hreplaced after] at hfound
        cases hfound

/-- **A text may be cut before any `b`.** -/
theorem normalizeChars_append (front rest : List Char) :
    normalizeChars (front ++ 'b' :: rest) =
      normalizeChars front ++ normalizeChars ('b' :: rest) := by
  fun_induction normalizeChars front with
  | case1 => rfl
  | case2 c front digits after hfound ih =>
      have hwhole := bitVector?_append (List.cons_ne_nil c front) rest
      rw [hfound] at hwhole
      rw [normalizeChars_of_bitVector? hwhole, ih, List.append_assoc]
  | case3 c front hnone ih =>
      have hwhole := bitVector?_append (List.cons_ne_nil c front) rest
      rw [hnone] at hwhole
      rw [List.cons_append] at hwhole ⊢
      rw [normalizeChars_of_eq_none hwhole, ih, List.cons_append]

/-- **A literal is replaced wherever it stands.** -/
theorem normalizeChars_literal_within {value width : List Char} (h : IsReplaced value width)
    (front rest : List Char) :
    normalizeChars (front ++ (bitVectorLiteral value width ++ rest)) =
      normalizeChars front ++ (bitVectorDigits value width ++ normalizeChars rest) := by
  rw [← normalizeChars_literal h rest]
  exact normalizeChars_append front _

/-- Where no literal can start, nothing is replaced. -/
theorem normalizeChars_append_of_not_mem {front : List Char} (h : 'b' ∉ front)
    (rest : List Char) : normalizeChars (front ++ rest) = front ++ normalizeChars rest := by
  induction front with
  | nil => rfl
  | cons c front ih =>
      rw [List.mem_cons, not_or] at h
      rw [List.cons_append, normalizeChars_of_eq_none (bitVector?_eq_none_of_ne (Ne.symm h.1)),
        ih h.2, List.cons_append]

/-! ## Texts that are not changed -/

/-- Whether a literal stands somewhere in the text. -/
def HoldsBitVector (text : List Char) : Prop :=
  ∃ front value width rest, IsReplaced value width ∧
    text = front ++ (bitVectorLiteral value width ++ rest)

theorem hasNoBitVector_iff {text : String} :
    HasNoBitVector text ↔ ¬ HoldsBitVector text.toList := by
  constructor
  · rintro h ⟨front, value, width, rest, hreplaced, htext⟩
    exact h (bitVectorLiteral value width) (htext ▸ List.infix_append' front _ rest)
      ⟨value, width, rfl, hreplaced⟩
  · rintro h literal ⟨front, rest, htext⟩ ⟨value, width, rfl, hreplaced⟩
    exact h ⟨front, value, width, rest, hreplaced, by rw [← htext, List.append_assoc]; rfl⟩

/-- No bracket is written. -/
theorem bracket_not_mem_bitVectorDigits (value width : List Char) :
    '[' ∉ bitVectorDigits value width := by
  simp only [bitVectorDigits, List.mem_cons, not_or]
  exact ⟨by decide, by decide, fun hmem => absurd (isBinaryDigit_of_mem_bits hmem) (by decide)⟩

theorem count_bracket_le (text : List Char) :
    (normalizeChars text).count '[' ≤ text.count '[' := by
  fun_induction normalizeChars text with
  | case1 => exact Nat.le_refl _
  | case2 c rest digits after hfound ih =>
      obtain ⟨value, width, -, rfl, htext⟩ := bitVector?_eq_some_iff.mp hfound
      rw [htext, List.count_append, List.count_append,
        List.count_eq_zero.mpr (bracket_not_mem_bitVectorDigits value width), Nat.zero_add]
      exact Nat.le_add_left_of_le ih
  | case3 c rest hnone ih =>
      rw [List.count_cons, List.count_cons]
      exact Nat.add_le_add_right ih _

/-- **A text is changed if there is a literal in it**: the bracket of the literal is lost. -/
theorem normalizeChars_eq_self_iff {text : List Char} :
    normalizeChars text = text ↔ ¬ HoldsBitVector text := by
  constructor
  · rintro h ⟨front, value, width, rest, hreplaced, rfl⟩
    have hcount := congrArg (List.count '[') h
    rw [normalizeChars_literal_within hreplaced] at hcount
    simp only [List.count_append,
      List.count_eq_zero.mpr (bracket_not_mem_bitVectorDigits value width)] at hcount
    have hliteral : 0 < (bitVectorLiteral value width).count '[' :=
      List.count_pos_iff.mpr (by simp [bitVectorLiteral, bitVectorTail])
    have hfront := count_bracket_le front
    have hrest := count_bracket_le rest
    omega
  · intro h
    refine normalizeChars_eq_self ?_
    rintro literal ⟨front, rest, htext⟩ ⟨value, width, rfl, hreplaced⟩
    exact h ⟨front, value, width, rest, hreplaced, by rw [← htext, List.append_assoc]; rfl⟩

/-! ## Literals of the result -/

/-- Whether a literal of width zero is followed by what another one has after its `b`. -/
def JoinsBitVector (text : List Char) : Prop :=
  ∃ front value width value' width' rest, IsReplaced value width ∧
    Nat.ofDigitChars 10 width 0 = 0 ∧ IsReplaced value' width' ∧
    text = front ++ (bitVectorLiteral value width ++ (bitVectorTail value' width' ++ rest))

theorem JoinsBitVector.append {text : List Char} (h : JoinsBitVector text) (front : List Char) :
    JoinsBitVector (front ++ text) := by
  obtain ⟨between, value, width, value', width', rest, hreplaced, hzero, hreplaced', rfl⟩ := h
  exact ⟨front ++ between, value, width, value', width', rest, hreplaced, hzero, hreplaced',
    (List.append_assoc _ _ _).symm⟩

/-- What has no `#` was not written for a literal. -/
theorem exists_of_normalizeChars_eq_append {text front more : List Char} (hfront : '#' ∉ front)
    (h : normalizeChars text = front ++ more) : ∃ rest, text = front ++ rest := by
  induction front generalizing text with
  | nil => exact ⟨text, rfl⟩
  | cons c front ih =>
      rw [List.mem_cons, not_or] at hfront
      cases text with
      | nil => simp [normalizeChars] at h
      | cons d text =>
          cases hfound : bitVector? (d :: text) with
          | some found =>
              obtain ⟨value, width, -, hdigits, -⟩ := bitVector?_eq_some_iff.mp hfound
              rw [normalizeChars_of_bitVector? hfound, hdigits] at h
              exact absurd (List.cons_eq_cons.mp h).1 hfront.1
          | none =>
              rw [normalizeChars_of_eq_none hfound, List.cons_append] at h
              obtain ⟨rfl, htext⟩ := List.cons_eq_cons.mp h
              obtain ⟨rest, rfl⟩ := ih hfront.2 htext
              exact ⟨rest, rfl⟩

/-- A literal of the result has its `b` from another literal. -/
theorem joinsBitVector_of_normalizeChars {text front value width rest : List Char}
    (hreplaced : IsReplaced value width)
    (h : normalizeChars text = front ++ (bitVectorLiteral value width ++ rest)) :
    JoinsBitVector text := by
  fun_induction normalizeChars text generalizing front with
  | case1 => simp [bitVectorLiteral] at h
  | case2 c text digits after hfound ih =>
      obtain ⟨value', width', hreplaced', rfl, htext⟩ := bitVector?_eq_some_iff.mp hfound
      rw [htext]
      cases front with
      | nil => cases h
      | cons d front =>
          obtain ⟨-, hback⟩ := List.cons_eq_cons.mp h
          cases front with
          | nil =>
              -- the `b` is the one that was written, so the rest comes where there are no digits
              obtain ⟨-, htail⟩ := List.cons_eq_cons.mp hback
              cases hwidth : Nat.ofDigitChars 10 width' 0 with
              | zero =>
                  rw [hwidth] at htail
                  obtain ⟨more, rfl⟩ :=
                    exists_of_normalizeChars_eq_append (not_mem_bitVectorTail hreplaced).2 htail
                  exact ⟨[], value', width', value, width, more, hreplaced', hwidth, hreplaced, rfl⟩
              | succ places =>
                  rw [hwidth, bits_succ] at htail
                  have hdigit := (List.cons_eq_cons.mp htail).1
                  split at hdigit <;> exact absurd hdigit (by decide)
          | cons e front =>
              obtain ⟨-, hback⟩ := List.cons_eq_cons.mp hback
              have hbits : 'b' ∉ bits (Nat.ofDigitChars 10 width' 0)
                  (Nat.ofDigitChars 10 value' 0) := fun hmem =>
                absurd (isBinaryDigit_of_mem_bits hmem) (by decide)
              obtain ⟨more, hmore⟩ | ⟨front, -, hafter⟩ := exists_of_append_eq_append_cons hback
              · exact absurd (by simp [hmore]) hbits
              · exact (ih hafter).append (bitVectorLiteral value' width')
  | case3 c text hnone ih =>
      cases front with
      | nil =>
          obtain ⟨rfl, htail⟩ := List.cons_eq_cons.mp h
          obtain ⟨more, rfl⟩ :=
            exists_of_normalizeChars_eq_append (not_mem_bitVectorTail hreplaced).2 htail
          have hsome := bitVector?_literal hreplaced more
          rw [bitVectorLiteral, List.cons_append, hnone] at hsome
          cases hsome
      | cons d front =>
          exact (ih (List.cons_eq_cons.mp h).2).append [c]

/-- **A literal stands in the result if the text joins one.** -/
theorem holdsBitVector_normalizeChars_iff {text : List Char} :
    HoldsBitVector (normalizeChars text) ↔ JoinsBitVector text := by
  constructor
  · rintro ⟨front, value, width, rest, hreplaced, htext⟩
    exact joinsBitVector_of_normalizeChars hreplaced htext
  · rintro ⟨front, value, width, value', width', rest, hreplaced, hzero, hreplaced', rfl⟩
    refine ⟨normalizeChars front ++ ['#'], value', width', normalizeChars rest, hreplaced', ?_⟩
    have hdigits : bitVectorDigits value width = ['#', 'b'] := by
      rw [bitVectorDigits, hzero]
      rfl
    rw [normalizeChars_literal_within hreplaced, hdigits,
      normalizeChars_append_of_not_mem (not_mem_bitVectorTail hreplaced').1]
    simp [bitVectorLiteral]

@[simp] theorem toList_normalize (text : String) :
    (normalize text).toList = normalizeChars text.toList := by
  rw [normalize, String.toList_ofList]

/-- **A reply is settled by being normalized once, unless it joins a literal.** -/
theorem normalize_normalize_iff (text : String) :
    (normalize (normalize text) = normalize text ↔ ¬ JoinsBitVector text.toList) ∧
      (¬ JoinsBitVector text.toList → HasNoBitVector (normalize text) ∧
        ∀ (decoder : Decoder) (shape : ReplyShape),
          decoder.decode (normalize text) shape = decoder.decode text shape) := by
  have hsettled : normalize (normalize text) = normalize text ↔ ¬ JoinsBitVector text.toList := by
    rw [← holdsBitVector_normalizeChars_iff, ← normalizeChars_eq_self_iff, ← String.toList_inj,
      toList_normalize, toList_normalize]
  refine ⟨hsettled, fun hjoins => ⟨?_, fun decoder shape => ?_⟩⟩
  · rwa [hasNoBitVector_iff, toList_normalize, holdsBitVector_normalizeChars_iff]
  · rw [Decoder.decode, Decoder.decode, hsettled.mpr hjoins]

/-- A blank between the two literals keeps them apart. -/
theorem normalize_normalize_apart :
    HasNoBitVector (normalize "(x bv0[0] bv5[4])") ∧
      ∀ (decoder : Decoder) (shape : ReplyShape),
        decoder.decode (normalize "(x bv0[0] bv5[4])") shape =
          decoder.decode "(x bv0[0] bv5[4])" shape :=
  (normalize_normalize_iff "(x bv0[0] bv5[4])").2
    ((normalize_normalize_iff "(x bv0[0] bv5[4])").1.mp (by decide +kernel))

/-- What follows a literal of width zero makes up a new literal with its `b`. -/
theorem normalize_normalize_joined :
    normalize (normalize "bv0[0]v5[4]") ≠ normalize "bv0[0]v5[4]" ∧
      Decoder.decode ⟨0, false⟩ "bv0[0]v5[4]" .text = .ok (.text "#bv5[4]") ∧
      Decoder.decode ⟨0, false⟩ (normalize "bv0[0]v5[4]") .text = .ok (.text "##b0101") := by
  have honce : normalize "bv0[0]v5[4]" = "#bv5[4]" := by decide +kernel
  have htwice : normalize "#bv5[4]" = "##b0101" := by decide +kernel
  rw [honce, htwice]
  refine ⟨by decide, ?_, ?_⟩
  · have hreport : isErrorReport "#bv5[4]" = false := by decide +kernel
    have hechoed : Decoder.echoed "#bv5[4]" = "#bv5[4]" := by decide +kernel
    simp [Decoder.decode, honce, hreport, hechoed]
  · have hreport : isErrorReport "##b0101" = false := by decide +kernel
    have hechoed : Decoder.echoed "##b0101" = "##b0101" := by decide +kernel
    simp [Decoder.decode, htwice, hreport, hechoed]

end SmtSession
