import SmtSession.Failure

/-!
# Sources of characters

A source is what a reader sees: characters, and at some places a failure to get one.  Reading
goes on after a failure.  Sources come from texts, where no failure occurs, or from bytes.
-/

namespace SmtSession

/-- A sequence of characters and of failures to read one. -/
abbrev Source := List (Except Failure Char)

namespace Source

/-- The source that gives the characters of a text. -/
def ofText (text : String) : Source :=
  text.toList.map .ok

/-- The bytes read so far do not begin a character. -/
def malformed : Failure := ⟨.invalidData, some "invalid UTF-8 sequence."⟩

/-- The bytes ended in the middle of a character. -/
def truncated : Failure := ⟨.unexpectedEnd, some "unexpected end of UTF-8 sequence."⟩

/-- The character with the given code point, if there is one. -/
def character (point : Nat) : Except Failure Char :=
  if point.isValidChar then .ok (Char.ofNat point) else .error malformed

/-- Decodes bytes, `missing` bytes of a character being still expected after the bits in `point`.

The first byte of a character says how many follow it, and each of these adds six bits.  A byte
that does not fit is dropped, with the character it should have belonged to.  Spellings longer
than needed are accepted. -/
def decode (missing point : Nat) : List UInt8 → Source
  | [] => if missing = 0 then [] else [.error truncated]
  | byte :: rest =>
    let bits := byte.toNat
    match missing with
    | 0 =>
      if bits < 0x80 then character bits :: decode 0 0 rest
      else if bits / 0x20 = 0b110 then decode 1 (bits % 0x20) rest
      else if bits / 0x10 = 0b1110 then decode 2 (bits % 0x10) rest
      else if bits / 0x08 = 0b11110 then decode 3 (bits % 0x08) rest
      else .error malformed :: decode 0 0 rest
    | missing + 1 =>
      if bits / 0x40 = 0b10 then
        let point := 0x40 * point + bits % 0x40
        if missing = 0 then character point :: decode 0 0 rest else decode missing point rest
      else
        .error malformed :: decode 0 0 rest

/-- The source that decodes the given bytes as UTF-8. -/
def ofBytes (bytes : List UInt8) : Source :=
  decode 0 0 bytes

end Source

end SmtSession
