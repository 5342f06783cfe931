/-!
# Bit-vector literals of old solvers

Old solvers write a bit-vector constant as `bv`, its value, and its width in brackets.  Such
literals are replaced by their digits after `#b`; all other text stays as it is.
-/

namespace SmtSession

/-- The widest literal that is replaced. -/
def maxWidth : Nat := 65536

/-- The digits of `value` in `width` places, the most significant one first. -/
def bits (width value : Nat) : List Char :=
  (List.range width).reverse.map fun place => if value.testBit place then '1' else '0'

@[simp] theorem length_bits (width value : Nat) : (bits width value).length = width := by
  simp [bits]

/-- The bit-vector literal that a text starts with, as digits after `#b`, and the text after it. -/
def bitVector? : List Char → Option (List Char × List Char)
  | 'b' :: 'v' :: rest =>
    let value := rest.takeWhile Char.isDigit
    match rest.dropWhile Char.isDigit with
    | '[' :: rest =>
      let width := rest.takeWhile Char.isDigit
      match rest.dropWhile Char.isDigit with
      | ']' :: rest =>
        if value.isEmpty || width.isEmpty || maxWidth < Nat.ofDigitChars 10 width 0 then none
        else
          some ('#' :: 'b' :: bits (Nat.ofDigitChars 10 width 0) (Nat.ofDigitChars 10 value 0),
            rest)
      | _ => none
    | _ => none
  | _ => none

/-- A literal is not empty. -/
theorem length_lt_of_bitVector? {text digits rest : List Char}
    (found : bitVector? text = some (digits, rest)) : rest.length < text.length := by
  have shrink (text : List Char) : (text.dropWhile Char.isDigit).length ≤ text.length :=
    (List.dropWhile_sublist _).length_le
  unfold bitVector? at found
  split at found
  · next after =>
    dsimp only at found
    split at found
    · next after' eq =>
      split at found
      · next after'' eq' =>
        split at found
        · contradiction
        · cases found
          have outer := shrink after
          have inner := shrink after'
          rw [eq] at outer
          rw [eq'] at inner
          simp only [List.length_cons] at *
          omega
      · contradiction
    · contradiction
  · contradiction

/-- Replaces every bit-vector literal, from left to right. -/
def normalizeChars : List Char → List Char
  | [] => []
  | c :: rest =>
    match _ : bitVector? (c :: rest) with
    | some (digits, after) => digits ++ normalizeChars after
    | none => c :: normalizeChars rest
termination_by text => text.length
decreasing_by
  · exact length_lt_of_bitVector? ‹_›
  · exact Nat.lt_succ_self _

/-- Replaces every bit-vector literal of a text. -/
def normalize (text : String) : String :=
  String.ofList (normalizeChars text.toList)

end SmtSession
