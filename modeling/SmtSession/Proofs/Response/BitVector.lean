import Mathlib.Data.List.Induction
import Mathlib.Tactic.Ring
import SmtSession.Response.BitVector
import SmtSession.Token.Lexer

/-!
# Literals of old solvers

What is replaced in a text is a literal that stands in it, by the digits of its
value (`bitVector?_eq_some_iff`).  These are as many as the width asks for, and
they denote the value modulo the power of two of this width
(`ofDigitChars_bits`); no other digits do (`eq_bits_of_isBinaryDigit`).

So a text in which no literal stands is left as it is (`normalize_eq_self`), and
the reader sees it as it was written.
-/

namespace SmtSession

/-! ## Digits -/

theorem isBinaryDigit_of_mem_bits {width value : Nat} {c : Char} (h : c ∈ bits width value) :
    isBinaryDigit c := by
  obtain ⟨place, -, rfl⟩ := List.mem_map.mp h
  split <;> rfl

/-- The digit in front belongs to the highest place. -/
theorem bits_succ (width value : Nat) :
    bits (width + 1) value = (if value.testBit width then '1' else '0') :: bits width value := by
  simp [bits, List.range_succ]

/-- The digit at the end is that of the ones. -/
theorem bits_concat (width value : Nat) :
    bits (width + 1) value = bits width (value / 2) ++ [if value.testBit 0 then '1' else '0'] := by
  simp [bits, List.range_succ_eq_map, Nat.testBit_succ, Function.comp_def]

/-- **The digits denote the value, as far as the width goes.** -/
theorem ofDigitChars_bits (width value : Nat) :
    Nat.ofDigitChars 2 (bits width value) 0 = value % 2 ^ width := by
  -- from the highest place on, what has been read is shifted by the places that follow
  have hshift (init : Nat) : Nat.ofDigitChars 2 (bits width value) init =
      2 ^ width * init + value % 2 ^ width := by
    induction width generalizing init with
    | zero => simp [bits, Nat.mod_one]
    | succ width ih =>
        have hdigit : (if value.testBit width then '1' else '0').toNat - '0'.toNat =
            value / 2 ^ width % 2 := by
          rw [Nat.testBit_eq_decide_div_mod_eq]
          rcases Nat.mod_two_eq_zero_or_one (value / 2 ^ width) with hbit | hbit <;> simp [hbit]
        rw [bits_succ, Nat.ofDigitChars_cons, ih, hdigit, Nat.mod_pow_succ]
        ring
  simpa using hshift 0

/-- Digits are determined by their number and by what they denote. -/
theorem eq_bits_of_isBinaryDigit {digits : List Char} (h : ∀ c ∈ digits, isBinaryDigit c) :
    digits = bits digits.length (Nat.ofDigitChars 2 digits 0) := by
  induction digits using List.reverseRecOn with
  | nil => rfl
  | append_singleton digits c ih =>
      rw [List.forall_mem_append] at h
      obtain ⟨hdigits, hc⟩ := h
      have hlast : c = '0' ∨ c = '1' := by simpa [isBinaryDigit] using hc
      rw [List.length_append, List.length_singleton, bits_concat, Nat.ofDigitChars_append]
      rcases hlast with rfl | rfl
      · simpa [Nat.ofDigitChars_cons] using ih hdigits
      · have hhalf (n : Nat) : (2 * n + 1) / 2 = n := by omega
        simpa [Nat.ofDigitChars_cons, hhalf] using ih hdigits

/-! ## Literals -/

/-- What stands after the `b` of a literal. -/
def bitVectorTail (value width : List Char) : List Char :=
  'v' :: value ++ '[' :: width ++ [']']

/-- How old solvers write the constant with the given value and width. -/
def bitVectorLiteral (value width : List Char) : List Char :=
  'b' :: bitVectorTail value width

/-- What is written instead of it. -/
def bitVectorDigits (value width : List Char) : List Char :=
  '#' :: 'b' :: bits (Nat.ofDigitChars 10 width 0) (Nat.ofDigitChars 10 value 0)

/-- A value and a width of which the literal is replaced. -/
def IsReplaced (value width : List Char) : Prop :=
  isDigits value ∧ isDigits width ∧ Nat.ofDigitChars 10 width 0 ≤ maxWidth

/-- A bit-vector constant as old solvers write it, of a width that is replaced. -/
def IsBitVector (literal : List Char) : Prop :=
  ∃ value width, literal = 'b' :: 'v' :: value ++ '[' :: width ++ [']'] ∧ isDigits value ∧
    isDigits width ∧ Nat.ofDigitChars 10 width 0 ≤ maxWidth

/-- No such literal stands anywhere in the text. -/
def HasNoBitVector (text : String) : Prop :=
  ∀ literal, literal <:+: text.toList → ¬ IsBitVector literal

/-- A literal has a bracket. -/
theorem hasNoBitVector_of_not_mem {text : String} (h : '[' ∉ text.toList) :
    HasNoBitVector text := by
  rintro literal hpart ⟨value, width, rfl, -⟩
  exact h (hpart.mem (by simp))

/-- What is replaced at the start of a text is a literal. -/
theorem exists_isReplaced_of_bitVector? {text digits rest : List Char}
    (h : bitVector? text = some (digits, rest)) :
    ∃ value width, IsReplaced value width ∧ digits = bitVectorDigits value width ∧
      text = bitVectorLiteral value width ++ rest := by
  unfold bitVector? at h
  split at h
  · next after =>
      dsimp only at h
      split at h
      · next inner hvalue =>
          split at h
          · next final hwidth =>
              split at h
              · simp at h
              · next hvalid =>
                  cases h
                  simp only [Bool.or_eq_true, not_or, Bool.not_eq_true, decide_eq_true_eq,
                    Nat.not_lt] at hvalid
                  obtain ⟨⟨hsome, hsome'⟩, hwide⟩ := hvalid
                  have houter := List.takeWhile_append_dropWhile (p := Char.isDigit) (l := after)
                  have hinner := List.takeWhile_append_dropWhile (p := Char.isDigit) (l := inner)
                  rw [hvalue] at houter
                  rw [hwidth] at hinner
                  exact ⟨after.takeWhile Char.isDigit, inner.takeWhile Char.isDigit,
                    ⟨by simp [isDigits, hsome], by simp [isDigits, hsome'], hwide⟩, rfl,
                    by simp [bitVectorLiteral, bitVectorTail, houter, hinner]⟩
          · simp at h
      · simp at h
  · simp at h

/-- A literal is replaced whatever follows it. -/
theorem bitVector?_literal {value width : List Char} (h : IsReplaced value width)
    (rest : List Char) :
    bitVector? (bitVectorLiteral value width ++ rest) =
      some (bitVectorDigits value width, rest) := by
  obtain ⟨hvalue, hwidth, hwide⟩ := h
  simp only [isDigits, Bool.and_eq_true, Bool.not_eq_true', List.all_eq_true] at hvalue hwidth
  have hnarrow : ¬ maxWidth < Nat.ofDigitChars 10 width 0 := Nat.not_lt.mpr hwide
  simp [bitVector?, bitVectorLiteral, bitVectorTail, bitVectorDigits,
    List.takeWhile_append_of_pos hvalue.2, List.dropWhile_append_of_pos hvalue.2,
    List.takeWhile_append_of_pos hwidth.2, List.dropWhile_append_of_pos hwidth.2,
    List.isEmpty_eq_false_iff.mp hvalue.1, List.isEmpty_eq_false_iff.mp hwidth.1, hnarrow]

/-- **What is replaced at the start of a text.** -/
theorem bitVector?_eq_some_iff {text digits rest : List Char} :
    bitVector? text = some (digits, rest) ↔
      ∃ value width, IsReplaced value width ∧ digits = bitVectorDigits value width ∧
        text = bitVectorLiteral value width ++ rest := by
  refine ⟨exists_isReplaced_of_bitVector?, ?_⟩
  rintro ⟨value, width, hreplaced, rfl, rfl⟩
  exact bitVector?_literal hreplaced rest

theorem normalizeChars_eq_self {text : List Char}
    (h : ∀ literal, literal <:+: text → ¬ IsBitVector literal) : normalizeChars text = text := by
  fun_induction normalizeChars text with
  | case1 => rfl
  | case2 c rest digits after hfound ih =>
      obtain ⟨value, width, hreplaced, -, htext⟩ := exists_isReplaced_of_bitVector? hfound
      exact absurd ⟨value, width, rfl, hreplaced⟩
        (h (bitVectorLiteral value width) (htext ▸ List.infix_append' [] _ after))
  | case3 c rest hnone ih =>
      rw [ih fun literal hpart => h literal (List.infix_cons hpart)]

/-- **A text without literals is not changed.** -/
theorem normalize_eq_self {text : String} (h : HasNoBitVector text) : normalize text = text := by
  rw [normalize, normalizeChars_eq_self h, String.ofList_toList]

end SmtSession
