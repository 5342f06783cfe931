/-!
# Locations in a text

Positions count lines and columns from zero.  A span says where a piece of text starts, where its
last character stands and where it ends; a cursor is the state of a reader that moves forward
through a text and keeps the span of the token it is at.
-/

namespace SmtSession

/-- A place between two characters of a text. -/
structure Position where
  line : Nat
  column : Nat
  deriving DecidableEq

namespace Position

/-- Positions are ordered by line, and in a line by column. -/
instance : LT Position :=
  ⟨fun a b => a.line < b.line ∨ a.line = b.line ∧ a.column < b.column⟩

instance (a b : Position) : Decidable (a < b) :=
  inferInstanceAs (Decidable (a.line < b.line ∨ a.line = b.line ∧ a.column < b.column))

/-- The first position of a text. -/
def first : Position := ⟨0, 0⟩

/-- The position after the character `c`. -/
def next (p : Position) (c : Char) : Position :=
  if c = '\n' then ⟨p.line + 1, 0⟩ else ⟨p.line, p.column + 1⟩

/-- The earlier of two positions. -/
def earlier (a b : Position) : Position :=
  if b < a then b else a

end Position

/-- A stretch of text, from `start` up to but without `stop`; `last` is the position of its last
character. -/
structure Span where
  start : Position
  last : Position
  stop : Position
  deriving DecidableEq

namespace Span

/-- The span with the given bounds, empty when one of them comes before the start. -/
def of (start last stop : Position) : Span :=
  if stop < start ∨ last < start then ⟨start, start, start⟩ else ⟨start, last, stop⟩

/-- The empty span at the very beginning, for what comes from no text. -/
def nowhere : Span := ⟨.first, .first, .first⟩

/-- The stretch from the earlier start to the later end. -/
def union (a b : Span) : Span :=
  let start := a.start.earlier b.start
  if a.last < b.last ∧ a.stop < b.stop then ⟨start, b.last, b.stop⟩ else ⟨start, a.last, a.stop⟩

/-- The start of a span as diagnostics give it: line and column, counted from one. -/
def text (span : Span) : String :=
  toString (span.start.line + 1) ++ ":" ++ toString (span.start.column + 1)

end Span

/-- A value and the stretch of text it was read from. -/
structure Located (α : Type) where
  value : α
  span : Span

namespace Located

variable {α β : Type}

/-- A value that was read from no text. -/
def unlocated (value : α) : Located α := ⟨value, .nowhere⟩

/-- Changes the value and keeps its place. -/
def map (f : α → β) (located : Located α) : Located β := ⟨f located.value, located.span⟩

/-- Located values are compared by their values, wherever these stand. -/
instance [BEq α] : BEq (Located α) := ⟨fun a b => a.value == b.value⟩

/-- The value with the place where it stands, `text` giving the text of the value. -/
def describe (text : α → String) (located : Located α) : String :=
  text located.value ++ "@" ++ located.span.text

end Located

/-- A reader's place in a text: where the current token starts, where the last character read
stands, and where the next one will. -/
structure Cursor where
  start : Position
  last : Position
  position : Position
  deriving DecidableEq

namespace Cursor

/-- The cursor of a reader that has read nothing. -/
def reset (position : Position) : Cursor := ⟨position, position, position⟩

/-- Starts a token at the current position. -/
def mark (cursor : Cursor) : Cursor := .reset cursor.position

/-- Passes over one character. -/
def advance (cursor : Cursor) (c : Char) : Cursor :=
  ⟨cursor.start, cursor.position, cursor.position.next c⟩

/-- Passes over some characters. -/
def through (cursor : Cursor) (passed : List Char) : Cursor :=
  passed.foldl advance cursor

/-- What has been read since the current token started. -/
def span (cursor : Cursor) : Span :=
  .of cursor.start cursor.last cursor.position

end Cursor

end SmtSession
