import SmtSession.Proofs.Slice
import SmtSession.Proofs.Token.Written

/-!
# The items of a text tile it

Every character of a text belongs to one item, or to a gap between items.  The
items come one after the other, and each is read in the same way from its own
piece of the text (`itemsOfText_tile`).

Which characters belong to gaps is said without speaking of items: `Zone` follows
the text from its first character on, as `Region` does, and knows of comments.

## Strategy

`Tiles` says what stands where: a gap, the characters of an item, and what comes
after them, with the span of the item at its characters.  The items of a text
tile it because the reader finds what is written (`nextLexeme_text_iff`) and
marks it where it stands (`Cursor.span_past_eq`).  Everything else is shown of
tilings, by induction.
-/

namespace SmtSession

open Text (isBlank)

/-! ## Zones of a text -/

/-- Where a character stands: in a comment, or in one of the regions of the text outside of
comments. -/
inductive Zone where
  | comment
  | code (region : Region)
  deriving DecidableEq

namespace Zone

/-- Where a text begins. -/
def outside : Zone := .code .plain

/-- Where the character after `c` stands. -/
def next : Zone → Char → Zone
  | .comment, c => if c = '\n' then .outside else .comment
  | .code region, c => if region = .plain ∧ c = ';' then .comment else .code (region.next c)

/-- Where the character after some characters stands. -/
def through (zone : Zone) (chars : List Char) : Zone :=
  chars.foldl next zone

/-- Whether a character is a blank that stands outside strings and bars, or belongs to a comment. -/
def isGap : Zone → Char → Bool
  | .comment, _ => true
  | .code region, c => region = .plain && (c == ';' || isBlank c)

@[simp] theorem through_nil (zone : Zone) : zone.through [] = zone := rfl

@[simp] theorem through_cons (zone : Zone) (c : Char) (chars : List Char) :
    zone.through (c :: chars) = (zone.next c).through chars := rfl

@[simp] theorem through_append (zone : Zone) (chars more : List Char) :
    zone.through (chars ++ more) = (zone.through chars).through more :=
  List.foldl_append

/-- Whether all the characters belong to gaps, or none of them does, as `gap` says. -/
def Uniform (gap : Bool) : Zone → List Char → Prop
  | _, [] => True
  | zone, c :: chars => zone.isGap c = gap ∧ Uniform gap (zone.next c) chars

variable {gap : Bool} {zone : Zone} {chars more : List Char}

theorem uniform_append :
    Uniform gap zone (chars ++ more) ↔
      Uniform gap zone chars ∧ Uniform gap (zone.through chars) more := by
  induction chars generalizing zone with
  | nil => simp [Uniform]
  | cons c chars ih => simp [Uniform, ih, and_assoc]

theorem Uniform.isGap_eq {front back : List Char} {c : Char} (h : Uniform gap zone chars)
    (hchars : chars = front ++ c :: back) : (zone.through front).isGap c = gap := by
  rw [hchars, uniform_append] at h
  exact h.2.1

/-- Without a semicolon outside strings and bars no comment starts. -/
theorem Uniform.through_code {region : Region} (h : Uniform false (.code region) chars) :
    (Zone.code region).through chars = .code (region.through chars) := by
  induction chars generalizing region with
  | nil => rfl
  | cons c chars ih =>
      obtain ⟨hgap, hchars⟩ := h
      have hnext : (Zone.code region).next c = .code (region.next c) := by
        refine if_neg ?_
        rintro ⟨rfl, rfl⟩
        simp [isGap] at hgap
      rw [hnext] at hchars
      rw [through_cons, hnext, ih hchars, Region.through_cons]

/-! ## Gaps -/

/-- A comment goes on to the end of its line. -/
theorem uniform_comment {text : List Char} (h : '\n' ∉ text) :
    Uniform true .comment text ∧ Zone.comment.through text = .comment := by
  induction text with
  | nil => exact ⟨trivial, rfl⟩
  | cons c text ih =>
      rw [List.mem_cons, not_or] at h
      have hnext : Zone.comment.next c = .comment := if_neg (Ne.symm h.1)
      obtain ⟨huniform, hthrough⟩ := ih h.2
      exact ⟨⟨rfl, by rwa [hnext]⟩, by rw [through_cons, hnext, hthrough]⟩

end Zone

theorem Gap.uniform {gap : List Char} (h : Gap gap) :
    Zone.Uniform true .outside gap ∧ Zone.outside.through gap = .outside := by
  induction h with
  | nil => exact ⟨trivial, rfl⟩
  | @blank c gap hc _ ih =>
      have hnext : Zone.outside.next c = .outside := by
        have hregion := Region.next_plain (isSeparator_eq_false_of_isBlank hc)
        simp [Zone.outside, Zone.next, ne_of_isBlank hc, hregion]
      refine ⟨⟨?_, by rw [hnext]; exact ih.1⟩, by rw [Zone.through_cons, hnext, ih.2]⟩
      simp [Zone.outside, Zone.isGap, hc]
  | @comment text gap htext _ ih =>
      obtain ⟨huniform, hthrough⟩ := Zone.uniform_comment htext
      have hopen : Zone.outside.next ';' = .comment := rfl
      have hclose : Zone.comment.next '\n' = .outside := rfl
      refine ⟨⟨rfl, ?_⟩, ?_⟩
      · show Zone.Uniform true .comment (text ++ '\n' :: gap)
        rw [Zone.uniform_append, hthrough]
        exact ⟨huniform, rfl, hclose ▸ ih.1⟩
      · rw [List.cons_append, Zone.through_cons, hopen, Zone.through_append, hthrough,
          Zone.through_cons, hclose, ih.2]

/-- What is passed over at the end of a text, where a comment may be open. -/
theorem Zone.uniform_of_splitBlanks {chars : List Char} (comment : Bool)
    (h : (Source.splitBlanks comment (chars.map Except.ok)).2 = []) :
    Uniform true (if comment then .comment else .outside) chars := by
  induction chars generalizing comment with
  | nil => trivial
  | cons c chars ih =>
      rw [List.map_cons, Source.splitBlanks] at h
      cases comment with
      | true =>
          refine ⟨rfl, ?_⟩
          have htail := ih (c != '\n') h
          by_cases hline : c = '\n'
          · simpa [next, hline] using htail
          · simpa [next, hline] using htail
      | false =>
          by_cases hblanks : c = ';' ∨ isBlank c
          · simp only [Bool.false_eq_true, if_false, hblanks, if_true] at h
            have htail := ih (c = ';') h
            refine ⟨by simpa [outside, isGap] using hblanks, ?_⟩
            by_cases hcomment : c = ';'
            · simpa [outside, next, hcomment] using htail
            · have hblank : isBlank c := hblanks.resolve_left hcomment
              have hregion := Region.next_plain (isSeparator_eq_false_of_isBlank hblank)
              simpa [outside, next, hcomment, hregion] using htail
          · simp [hblanks] at h

theorem uniform_of_nextLexeme_eq_none {chars : List Char}
    (h : nextLexeme (chars.map Except.ok) = none) : Zone.Uniform true .outside chars := by
  refine Zone.uniform_of_splitBlanks false ?_
  unfold nextLexeme at h
  dsimp only at h
  split at h
  · next hrest => exact hrest
  · simp at h
  · simp at h

/-! ## Lexemes -/

theorem StringBody.uniform {body : List Char} (h : StringBody body) :
    Zone.Uniform false (.code .string) body := by
  induction h with
  | nil => trivial
  | escaped _ ih => exact ⟨rfl, rfl, by simpa [Zone.next, Region.next] using ih⟩
  | doubled _ ih => exact ⟨rfl, rfl, by simpa [Zone.next, Region.next] using ih⟩
  | plain hbackslash hquote _ ih =>
      exact ⟨rfl, by simpa [Zone.next, Region.next, hbackslash, hquote] using ih⟩

theorem Zone.uniform_word {chars : List Char} (h : ∀ c ∈ chars, isWordChar c) :
    Uniform false .outside chars := by
  induction chars with
  | nil => trivial
  | cons c chars ih =>
      rw [List.forall_mem_cons] at h
      have hc : isBlank c = false ∧ isSeparator c = false := by
        simpa [isWordChar] using h.1
      have hcomment : c ≠ ';' := by
        rintro rfl
        simp [isSeparator] at hc
      refine ⟨by simp [outside, isGap, hc.1, hcomment], ?_⟩
      simpa [outside, next, hcomment, Region.next_plain hc.2] using ih h.2

theorem Zone.uniform_bars {name : List Char} (h : '|' ∉ name) :
    Uniform false (.code .bars) name := by
  induction name with
  | nil => trivial
  | cons c name ih =>
      rw [List.mem_cons, not_or] at h
      exact ⟨rfl, by simpa [next, Region.next, Ne.symm h.1] using ih h.2⟩

theorem Token.SpelledAs.uniform {token : Token} {chars : List Char} (h : token.SpelledAs chars) :
    Zone.Uniform false .outside chars := by
  cases h with
  | opening => exact ⟨by decide, trivial⟩
  | closing => exact ⟨by decide, trivial⟩
  | word hc hword _ => exact Zone.uniform_word (List.forall_mem_cons.mpr ⟨hc, hword⟩)
  | bars hname =>
      have hinner := Zone.uniform_bars hname
      refine ⟨by decide, Zone.uniform_append.mpr ⟨hinner, ?_⟩⟩
      rw [show Zone.outside.next '|' = .code .bars from rfl, hinner.through_code,
        Region.through_bars hname]
      exact ⟨rfl, trivial⟩
  | string hbody =>
      refine ⟨by decide, Zone.uniform_append.mpr ⟨hbody.uniform, ?_⟩⟩
      rw [show Zone.outside.next '"' = .code .string from rfl, hbody.uniform.through_code,
        Region.through_body hbody]
      exact ⟨rfl, trivial⟩

/-- No character of a lexeme belongs to a gap. -/
theorem Written.uniform {chars more : List Char} {read : Except SyntaxError Token}
    (h : Written chars read more) : Zone.Uniform false .outside chars := by
  cases h with
  | token hspelled _ => exact hspelled.uniform
  | word hc hword _ _ => exact Zone.uniform_word (List.forall_mem_cons.mpr ⟨hc, hword⟩)
  | bars hname => exact ⟨by decide, Zone.uniform_bars hname⟩
  | string hbody =>
      refine ⟨by decide, ?_⟩
      cases hbody with
      | body hbody => exact hbody.uniform
      | backslash hbody =>
          refine Zone.uniform_append.mpr ⟨hbody.uniform, ?_⟩
          rw [show Zone.outside.next '"' = .code .string from rfl, hbody.uniform.through_code,
            Region.through_body hbody]
          exact ⟨rfl, trivial⟩

/-- What follows a lexeme stands outside, as the lexeme did. -/
theorem Written.through_eq {chars more : List Char} {read : Except SyntaxError Token}
    (h : Written chars read more) (hmore : more ≠ []) : Zone.outside.through chars = .outside := by
  rw [Zone.outside, h.uniform.through_code]
  cases h with
  | token hspelled _ => rw [Region.through_spelled hspelled]
  | @word c word _ _ hc hword _ _ =>
      have hchars : ∀ d ∈ c :: word, isWordChar d := List.forall_mem_cons.mpr ⟨hc, hword⟩
      rw [Region.through_plain fun d hd => isSeparator_eq_false_of_isWordChar (hchars d hd)]
  | bars _ => exact absurd rfl hmore
  | string _ => exact absurd rfl hmore

/-! ## Tilings -/

/-- The place of an item. -/
def Item.span : Item → Span
  | .ok token => token.span
  | .error error => error.span

@[simp] theorem Lexeme.span_item (lexeme : Lexeme) (span : Span) :
    (lexeme.item span).span = span := by
  unfold item
  split <;> rfl

/-- Between what comes before and after it in a text, a piece consists of the items, with a gap in
front of each of them. -/
inductive Tiles : (before : List Char) → List Item → (piece after : List Char) → Prop
  | nil {before after : List Char} : Tiles before [] [] after
  | cons {before gap chars piece after : List Char} {item : Item} {items : List Item} :
      Gap gap → Written chars item.token (piece ++ after) →
        item.span = .ofPiece (before ++ gap) chars →
        Tiles (before ++ (gap ++ chars)) items piece after →
        Tiles before (item :: items) (gap ++ (chars ++ piece)) after

/-- What is read from a text tiles it, up to a gap at its end. -/
theorem exists_tiles_place {cursor : Cursor} {before : List Char} (text : List Char)
    (hposition : cursor.position = Position.first.through before) :
    ∃ piece after, text = piece ++ after ∧ nextLexeme (after.map Except.ok) = none ∧
      Tiles before (place cursor (lexemes (text.map Except.ok))) piece after := by
  rw [lexemes_eq]
  cases hnext : nextLexeme (text.map Except.ok) with
  | none => exact ⟨[], text, rfl, hnext, .nil⟩
  | some lexeme =>
      obtain ⟨gap, chars, read, rest⟩ := lexeme
      obtain ⟨more, rfl, htext, hgap, hwritten⟩ := nextLexeme_text_iff.mp hnext
      have hpast : (cursor.past ⟨gap, chars, read, more.map Except.ok⟩).position =
          Position.first.through (before ++ (gap ++ chars)) := by
        rw [Cursor.position_past, hposition, Position.through_append _ before]
      have hshorter : more.length < text.length := by
        have hpos := List.length_pos_iff.mpr hwritten.ne_nil
        simp only [htext, List.length_append]
        omega
      obtain ⟨piece, after, rfl, hafter, htiles⟩ := exists_tiles_place more hpast
      refine ⟨gap ++ (chars ++ piece), after, by simp [htext], hafter, .cons hgap ?_ ?_ htiles⟩
      · rwa [Lexeme.token_item]
      · rw [Lexeme.span_item]
        exact Cursor.span_past_eq hposition hwritten.ne_nil
termination_by text.length

theorem exists_tiles (text : String) : ∃ piece after, text.toList = piece ++ after ∧
    nextLexeme (after.map Except.ok) = none ∧ Tiles [] (itemsOfText text) piece after :=
  exists_tiles_place text.toList rfl

namespace Tiles

variable {before piece after : List Char} {items : List Item}

/-- Items that stand side by side tile two pieces side by side. -/
theorem exists_append {others : List Item} (h : Tiles before (items ++ others) piece after) :
    ∃ front back, piece = front ++ back ∧ Tiles before items front (back ++ after) ∧
      Tiles (before ++ front) others back after := by
  induction items generalizing before piece with
  | nil => exact ⟨[], piece, rfl, .nil, by simpa using h⟩
  | cons item items ih =>
      cases h with
      | @cons _ gap chars piece _ _ _ hgap hwritten hspan htiles =>
          obtain ⟨front, back, rfl, hfront, hback⟩ := ih htiles
          rw [List.append_assoc] at hwritten
          refine ⟨gap ++ (chars ++ front), back, by simp, .cons hgap hwritten hspan hfront, ?_⟩
          simpa using hback

/-- The text may be cut after the items. -/
theorem truncate {cut : List Char} (h : Tiles before items piece (after ++ cut)) :
    Tiles before items piece after := by
  generalize hall : after ++ cut = all at h
  induction h with
  | nil => exact .nil
  | cons hgap hwritten hspan _ ih =>
      subst hall
      rw [← List.append_assoc] at hwritten
      exact .cons hgap hwritten.truncate hspan (ih rfl)

/-- The items are what is read from the piece. -/
theorem map_token_lexemes (h : Tiles before items piece after)
    (hafter : nextLexeme (after.map Except.ok) = none) :
    (lexemes ((piece ++ after).map Except.ok)).map Lexeme.token = items.map Item.token := by
  induction h with
  | nil => rw [List.nil_append, lexemes_eq, hafter]; rfl
  | @cons before gap chars piece after item items hgap hwritten _ _ ih =>
      have hnext : nextLexeme ((gap ++ (chars ++ piece) ++ after).map Except.ok) =
          some ⟨gap, chars, item.token, (piece ++ after).map Except.ok⟩ :=
        nextLexeme_text_iff.mpr ⟨piece ++ after, rfl, by simp, hgap, hwritten⟩
      rw [lexemes_eq, hnext]
      exact congrArg (item.token :: ·) (ih hafter)

/-! ### Places of the items -/

/-- Every item is written somewhere in the piece, and that is its place. -/
theorem exists_of_mem {item : Item} (h : Tiles before items piece after) (hitem : item ∈ items) :
    ∃ front chars back, piece = front ++ (chars ++ back) ∧ chars ≠ [] ∧
      item.span = .ofPiece (before ++ front) chars := by
  induction h with
  | nil => simp at hitem
  | @cons before gap chars piece after first items _ hwritten hspan _ ih =>
      rcases List.mem_cons.mp hitem with rfl | hitem
      · exact ⟨gap, chars, piece, rfl, hwritten.ne_nil, hspan⟩
      · obtain ⟨front, others, back, rfl, hne, hplace⟩ := ih hitem
        exact ⟨gap ++ chars ++ front, others, back, by simp, hne, by simpa using hplace⟩

theorem not_start_lt {item : Item} (h : Tiles before items piece after) (hitem : item ∈ items) :
    ¬ item.span.start < Position.first.through before := by
  obtain ⟨front, chars, back, -, -, hspan⟩ := h.exists_of_mem hitem
  rw [hspan, Span.start_ofPiece, Position.through_append]
  exact Position.not_through_lt _ front

theorem not_lt_stop {item : Item} (h : Tiles before items piece after) (hitem : item ∈ items) :
    ¬ Position.first.through (before ++ piece) < item.span.stop := by
  obtain ⟨front, chars, back, rfl, -, hspan⟩ := h.exists_of_mem hitem
  have hpiece : before ++ (front ++ (chars ++ back)) = before ++ front ++ chars ++ back := by simp
  rw [hspan, Span.stop_ofPiece, hpiece, Position.through_append _ (before ++ front ++ chars)]
  exact Position.not_through_lt _ back

/-- Without the gap in front, the items still tile what is left. -/
theorem of_start {gap chars : List Char} {item : Item}
    (hwritten : Written chars item.token (piece ++ after))
    (hspan : item.span = .ofPiece (before ++ gap) chars)
    (htiles : Tiles (before ++ (gap ++ chars)) items piece after) :
    Tiles (before ++ gap) (item :: items) (chars ++ piece) after := by
  have hall : Tiles (before ++ gap) (item :: items) ([] ++ (chars ++ piece)) after :=
    .cons .nil hwritten (by simpa using hspan) (by simpa using htiles)
  exact hall

/-- The first item starts where a gap ends. -/
theorem exists_gap {item : Item} (h : Tiles before (item :: items) piece after) :
    ∃ gap rest, piece = gap ++ rest ∧ item.span.start = Position.first.through (before ++ gap) ∧
      Tiles (before ++ gap) (item :: items) rest after := by
  cases h with
  | @cons _ gap chars piece _ _ _ _ hwritten hspan htiles =>
      exact ⟨gap, chars ++ piece, rfl, by rw [hspan, Span.start_ofPiece],
        of_start hwritten hspan htiles⟩

/-- The last item ends where the piece ends. -/
theorem stop_eq {item : Item} (h : Tiles before (items ++ [item]) piece after) :
    item.span.stop = Position.first.through (before ++ piece) := by
  obtain ⟨front, back, rfl, -, hback⟩ := h.exists_append
  cases hback with
  | cons _ _ hspan htiles =>
      cases htiles
      simp [hspan]

theorem forward {item : Item} (h : Tiles before items piece after) (hitem : item ∈ items) :
    item.span.Forward := by
  obtain ⟨front, chars, back, -, hne, hspan⟩ := h.exists_of_mem hitem
  rw [hspan]
  exact Span.forward_ofPiece hne

/-- The items come one after the other. -/
theorem pairwise (h : Tiles before items piece after) :
    items.Pairwise fun a b => ¬ b.span.start < a.span.stop := by
  induction h with
  | nil => exact .nil
  | cons _ _ hspan htiles ih =>
      refine .cons (fun other hother => ?_) ih
      have hstart := htiles.not_start_lt hother
      rwa [hspan, Span.stop_ofPiece, List.append_assoc]

/-! ### Gaps between the items -/

/-- What follows the last item stands outside, as the first one did. -/
theorem through_eq (h : Tiles before items piece after) (hafter : after ≠ []) :
    Zone.outside.through piece = .outside := by
  induction h with
  | nil => rfl
  | @cons _ _ _ piece _ _ _ hgap hwritten _ _ ih =>
      have hmore := List.append_ne_nil_of_right_ne_nil piece hafter
      rw [Zone.through_append, Zone.through_append, hgap.uniform.2, hwritten.through_eq hmore,
        ih hafter]

/-- The characters of the items are those that belong to no gap. -/
theorem exists_covers_iff {front back : List Char} {c : Char} (h : Tiles before items piece after)
    (hpiece : piece = front ++ c :: back) :
    (∃ item ∈ items, item.span.Covers (Position.first.through (before ++ front))) ↔
      (Zone.outside.through front).isGap c = false := by
  induction h generalizing front with
  | nil => simp at hpiece
  | @cons before gap chars piece after item items hgap hwritten hspan htiles ih =>
      rcases exists_of_append_eq_append_cons hpiece with ⟨more, hfront⟩ | ⟨front, rfl, hrest⟩
      · -- the character stands in the gap, before all the items
        refine iff_of_false ?_ (by simp [hgap.uniform.1.isGap_eq hfront])
        rintro ⟨other, hother, hcovers⟩
        have hlt : Position.first.through (before ++ front) <
            Position.first.through (before ++ gap) := by
          rw [hfront, ← List.append_assoc, Position.through_append _ (before ++ front)]
          exact Position.lt_through_cons _ c more
        have htail := of_start hwritten hspan htiles
        exact hcovers.1 (Position.lt_of_lt_of_not_lt hlt (htail.not_start_lt hother))
      · rcases exists_of_append_eq_append_cons hrest with ⟨more, hfront⟩ | ⟨front, rfl, hlast⟩
        · -- it is a character of the first item
          refine iff_of_true ⟨item, List.mem_cons_self, ?_⟩ ?_
          · rw [hspan, ← List.append_assoc]
            exact Span.covers_ofPiece hfront
          · rw [Zone.through_append, hgap.uniform.2, hwritten.uniform.isGap_eq hfront]
        · -- it stands behind the first item
          have hlater : ¬ item.span.Covers
              (Position.first.through (before ++ (gap ++ chars) ++ front)) := by
            intro hcovers
            have hlt := hcovers.2
            rw [hspan, Span.stop_ofPiece, List.append_assoc before gap,
              Position.through_append _ (before ++ (gap ++ chars))] at hlt
            exact Position.not_through_lt _ front hlt
          have hmore : piece ++ after ≠ [] := by simp [hlast]
          simp only [List.mem_cons, exists_eq_or_imp]
          rw [← List.append_assoc gap, ← List.append_assoc before, or_iff_right hlater, ih hlast,
            Zone.through_append, Zone.through_append, hgap.uniform.2, hwritten.through_eq hmore]

end Tiles

/-- A character of a text is covered by an item exactly if it belongs to no gap. -/
theorem exists_covers_iff_of_text {text : String} {before after : List Char} {c : Char}
    (htext : text.toList = before ++ c :: after) :
    (∃ item ∈ itemsOfText text, item.span.Covers (Position.first.through before)) ↔
      (Zone.outside.through before).isGap c = false := by
  obtain ⟨piece, tail, hpiece, htail, htiles⟩ := exists_tiles text
  rcases exists_of_append_eq_append_cons (hpiece.symm.trans htext) with
    ⟨more, hfront⟩ | ⟨before, rfl, hrest⟩
  · exact htiles.exists_covers_iff hfront
  · -- the character stands behind all the items
    have hzone := htiles.through_eq (by simp [hrest])
    have hgap := (uniform_of_nextLexeme_eq_none htail).isGap_eq hrest
    refine iff_of_false ?_ (by rw [Zone.through_append, hzone, hgap]; decide)
    rintro ⟨item, hitem, hcovers⟩
    refine htiles.not_lt_stop hitem (Position.lt_of_not_lt_of_lt ?_ hcovers.2)
    rw [List.nil_append, Position.through_append]
    exact Position.not_through_lt _ before

/-! ## Pieces of a text, read alone -/

/-- From the start of an item to the end of a later one, the items are read from that piece of the
text alone as they are read from the text. -/
theorem map_token_slice {text : String} {front segment back : List Item} {first last : Item}
    {span : Span} (hitems : itemsOfText text = front ++ (segment ++ back))
    (hfirst : segment.head? = some first) (hlast : segment.getLast? = some last)
    (hstart : span.start = first.span.start) (hstop : span.stop = last.span.stop) :
    (itemsOfText (span.slice text)).map Item.token = segment.map Item.token := by
  obtain ⟨piece, after, htext, -, htiles⟩ := exists_tiles text
  rw [hitems] at htiles
  obtain ⟨before, rest, rfl, -, hrest⟩ := htiles.exists_append
  obtain ⟨middle, tail, rfl, hsegment, -⟩ := hrest.exists_append
  obtain ⟨others, rfl⟩ := List.head?_eq_some_iff.mp hfirst
  obtain ⟨gap, core, rfl, hfrom, hcore⟩ := hsegment.exists_gap
  obtain ⟨inner, hinner⟩ := List.getLast?_eq_some_iff.mp hlast
  have hto : last.span.stop = Position.first.through (before ++ gap ++ core) :=
    (hinner ▸ hcore : Tiles _ (inner ++ [last]) core _).stop_eq
  have hpieces : text.toList = before ++ gap ++ (core ++ (tail ++ after)) := by simp [htext]
  have hslice : span.slice text = String.ofList core :=
    Span.slice_of_append hpieces (by rw [hstart, hfrom, List.nil_append]) (by rw [hstop, hto])
  have halone : Tiles (before ++ gap) (first :: others) core ([] ++ (tail ++ after)) := by
    simpa using hcore
  rw [itemsOfText, items, map_token_place, hslice, Source.ofText, String.toList_ofList]
  simpa using halone.truncate.map_token_lexemes rfl

/-- **The items of a text tile it.**  Their spans are not empty, end right after their last
characters, and come one after the other.  The characters outside of them are those of comments,
and the blanks that stand outside strings and bars.  What an item spans is read alone as this item,
be it a token or an error. -/
theorem itemsOfText_tile (text : String) :
    (∀ item ∈ itemsOfText text, ¬ item.span.last < item.span.start ∧
      item.span.last < item.span.stop ∧
      ∃ before c after, text.toList = before ++ c :: after ∧
        item.span.last = Position.first.through before ∧
        item.span.stop = item.span.last.next c) ∧
    (itemsOfText text).Pairwise (fun a b => ¬ b.span.start < a.span.stop) ∧
    (∀ before c after, text.toList = before ++ c :: after →
      ((∀ item ∈ itemsOfText text, ¬ item.span.Covers (Position.first.through before)) ↔
        (Zone.outside.through before).isGap c)) ∧
    ∀ item ∈ itemsOfText text,
      (itemsOfText (item.span.slice text)).map Item.token = [item.token] := by
  obtain ⟨piece, tail, htext, htail, htiles⟩ := exists_tiles text
  refine ⟨fun item hitem => ?_, htiles.pairwise, fun before c after hbefore => ?_,
    fun item hitem => ?_⟩
  · obtain ⟨front, chars, back, rfl, hne, hspan⟩ := htiles.exists_of_mem hitem
    have hforward := htiles.forward hitem
    obtain ⟨inner, c, rfl⟩ := (List.eq_nil_or_concat chars).resolve_left hne
    rw [List.concat_eq_append] at htext hspan
    refine ⟨hforward.not_last_lt_start, hforward.last_lt_stop, front ++ inner, c, back ++ tail,
      by simp [htext], ?_, ?_⟩
    · simp [hspan, Span.ofPiece]
    · rw [hspan, Span.stop_ofPiece_concat]
  · rw [← Bool.not_eq_false, ← exists_covers_iff_of_text hbefore]
    simp only [not_exists, not_and]
  · obtain ⟨front, back, hitems⟩ : ∃ front back, itemsOfText text = front ++ ([item] ++ back) :=
      List.append_of_mem hitem
    exact map_token_slice hitems rfl rfl rfl rfl

/-- A text with a comment, in which a literal is not valid and a string is not closed. -/
theorem itemsOfText_tile_malformed :
    (itemsOfText "(#z ; c\n\"a").map Item.token =
        [.ok .opening, .error (.invalidLiteral "#z"), .error .unterminatedString] ∧
      ∀ item ∈ itemsOfText "(#z ; c\n\"a",
        (itemsOfText (item.span.slice "(#z ; c\n\"a")).map Item.token = [item.token] :=
  ⟨by decide +kernel, (itemsOfText_tile "(#z ; c\n\"a").2.2.2⟩

end SmtSession
