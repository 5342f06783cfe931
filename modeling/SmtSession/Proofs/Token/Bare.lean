import SmtSession.Proofs.Token.Grammar

/-!
# Texts without comments

A semicolon starts a comment unless it stands in a string or between bars.
`Region` follows a text from its first character on and says where each
character stands, without speaking of tokens; a text is `Uncommented` if none of
its semicolons stands outside.

What a text without comments has between its tokens is blank.  So it is a body
that ends with the last token and blanks after it (`Spelled.exists_bare`), and
any other blanks may come after the body instead (`Bare.spelled`).
-/

namespace SmtSession

open Text (isBlank)

/-! ## Regions of a text -/

/-- Where a character stands. -/
inductive Region where
  /-- Outside strings and bars. -/
  | plain
  | string
  /-- After a backslash in a string. -/
  | escaped
  | bars
  deriving DecidableEq

namespace Region

/-- Where the character after `c` stands. -/
def next : Region → Char → Region
  | .plain, c => if c = '"' then .string else if c = '|' then .bars else .plain
  | .string, c => if c = '\\' then .escaped else if c = '"' then .plain else .string
  | .escaped, _ => .string
  | .bars, c => if c = '|' then .plain else .bars

/-- Where the character after some characters stands. -/
def through (region : Region) (chars : List Char) : Region :=
  chars.foldl next region

@[simp] theorem through_nil (region : Region) : region.through [] = region := rfl

@[simp] theorem through_cons (region : Region) (c : Char) (chars : List Char) :
    region.through (c :: chars) = (region.next c).through chars := rfl

@[simp] theorem through_append (region : Region) (chars more : List Char) :
    region.through (chars ++ more) = (region.through chars).through more :=
  List.foldl_append

end Region

/-- The characters that stand outside strings and bars, delimiters among them. -/
def plainChars (region : Region) : List Char → List Char
  | [] => []
  | c :: rest =>
      if region = .plain then c :: plainChars (region.next c) rest
      else plainChars (region.next c) rest

theorem plainChars_append (region : Region) (chars more : List Char) :
    plainChars region (chars ++ more) =
      plainChars region chars ++ plainChars (region.through chars) more := by
  induction chars generalizing region with
  | nil => rfl
  | cons c chars ih =>
      rw [List.cons_append, plainChars, plainChars, ih]
      split <;> rfl

/-- Whether no comment starts in the text. -/
def Uncommented (text : String) : Prop :=
  ';' ∉ plainChars .plain text.toList

instance (text : String) : Decidable (Uncommented text) :=
  inferInstanceAs (Decidable (';' ∉ plainChars .plain text.toList))

namespace Region

theorem next_plain {c : Char} (hc : isSeparator c = false) : plain.next c = .plain := by
  simp [next, ne_of_isSeparator_eq_false hc]

/-- Only a separator leads into a string or between bars. -/
theorem through_plain {chars : List Char} (h : ∀ c ∈ chars, isSeparator c = false) :
    plain.through chars = .plain := by
  induction chars with
  | nil => rfl
  | cons c chars ih =>
      rw [List.forall_mem_cons] at h
      rw [through_cons, next_plain h.1, ih h.2]

theorem through_blanks {blanks : List Char} (h : ∀ c ∈ blanks, isBlank c) :
    plain.through blanks = .plain :=
  through_plain fun c hc => isSeparator_eq_false_of_isBlank (h c hc)

theorem through_bars {name : List Char} (h : '|' ∉ name) : bars.through name = .bars := by
  induction name with
  | nil => rfl
  | cons c name ih =>
      rw [List.mem_cons, not_or] at h
      simp [next, Ne.symm h.1, ih h.2]

/-- Two quotes leave the string and enter it again. -/
theorem through_body {body : List Char} (h : StringBody body) : string.through body = .string := by
  induction h with
  | nil => rfl
  | escaped _ ih => simpa [next] using ih
  | doubled _ ih => simpa [next] using ih
  | plain hbackslash hquote _ ih => simpa [next, hbackslash, hquote] using ih

/-- What follows a token stands outside, as the token did. -/
theorem through_spelled {token : Token} {chars : List Char} (h : token.SpelledAs chars) :
    plain.through chars = .plain := by
  cases h with
  | opening => rfl
  | closing => rfl
  | @word _ c word hc hword _ =>
      have hchars : ∀ d ∈ c :: word, isWordChar d := List.forall_mem_cons.mpr ⟨hc, hword⟩
      exact through_plain fun d hd => isSeparator_eq_false_of_isWordChar (hchars d hd)
  | bars hname => simp [next, through_bars hname]
  | string hbody => simp [next, through_body hbody]

end Region

/-! ## Gaps without comments -/

theorem gap_of_blanks {blanks : List Char} (h : ∀ c ∈ blanks, isBlank c) : Gap blanks := by
  induction blanks with
  | nil => exact .nil
  | cons c blanks ih =>
      rw [List.forall_mem_cons] at h
      exact .blank h.1 (ih h.2)

theorem Gap.blanks {gap : List Char} (h : Gap gap) (hplain : ';' ∉ plainChars .plain gap) :
    ∀ c ∈ gap, isBlank c := by
  induction h with
  | nil => simp
  | @blank c gap hc _ ih =>
      have hnext := Region.next_plain (isSeparator_eq_false_of_isBlank hc)
      simp only [plainChars, if_true, hnext, List.mem_cons, not_or] at hplain
      exact List.forall_mem_cons.mpr ⟨hc, ih hplain.2⟩
  | comment _ _ => simp [plainChars] at hplain

theorem blanks_of_nextLexeme_eq_none {chars : List Char}
    (h : nextLexeme (chars.map Except.ok) = none) (hplain : ';' ∉ plainChars .plain chars) :
    ∀ c ∈ chars, isBlank c := by
  induction chars with
  | nil => simp
  | cons c chars ih =>
      rw [plainChars, if_pos rfl, List.mem_cons, not_or] at hplain
      cases hblank : isBlank c with
      | true =>
          have hgap : Gap [c] := .blank hblank .nil
          have hrest : nextLexeme (chars.map Except.ok) = none := by
            simpa using (hgap.nextLexeme (chars.map Except.ok)).symm.trans h
          rw [Region.next_plain (isSeparator_eq_false_of_isBlank hblank)] at hplain
          exact List.forall_mem_cons.mpr ⟨hblank, ih hrest hplain.2⟩
      | false => simp [nextLexeme, Source.splitBlanks, hblank, Ne.symm hplain.1] at h

/-! ## Bodies -/

theorem Source.halts_congr {p : Char → Bool} {source other : Source}
    (h : source.head? = other.head?) : source.halts p = other.halts p := by
  cases source with
  | nil =>
      cases other with
      | nil => rfl
      | cons => simp at h
  | cons item rest =>
      cases other with
      | nil => simp at h
      | cons other more =>
          cases h
          cases item <;> rfl

/-- Where a token ends is decided by the next character. -/
theorem Token.EndsBefore.congr {chars : List Char} {rest other : Source}
    (h : EndsBefore chars rest) (hhead : rest.head? = other.head?) : EndsBefore chars other := by
  unfold EndsBefore at h ⊢
  split
  · trivial
  · trivial
  · trivial
  · exact Source.halts_congr hhead ▸ h
  · simpa only [Source.halts_congr hhead] using h

/-- A token that ends before a text also ends before the text with blanks after it. -/
theorem Token.EndsBefore.append_blanks {chars more tail : List Char}
    (h : EndsBefore chars (more.map Except.ok)) (htail : ∀ c ∈ tail, isBlank c) :
    EndsBefore chars ((more ++ tail).map Except.ok) := by
  cases more with
  | nil =>
      refine Token.endsBefore_of_stops ?_ chars
      by_cases hne : tail = []
      · simp [hne, Source.stops]
      · simpa using (gap_of_blanks htail).stops hne []
  | cons c more => exact h.congr rfl

/-- The text spells the tokens with blanks before each of them, and ends with the last one. -/
inductive Bare : List Token → List Char → Prop
  | nil : Bare [] []
  | cons {blanks chars more : List Char} {token : Token} {tokens : List Token} :
      (∀ c ∈ blanks, isBlank c) → token.SpelledAs chars →
        Token.EndsBefore chars (more.map Except.ok) → Bare tokens more →
          Bare (token :: tokens) (blanks ++ (chars ++ more))

/-- A list of characters that begins with a given one, as a source. -/
theorem exists_eq_append_of_map_ok {chars text : List Char} {rest : Source}
    (h : chars.map Except.ok ++ rest = text.map Except.ok) :
    ∃ more, text = chars ++ more ∧ rest = more.map Except.ok := by
  obtain ⟨front, more, rfl, hfront, hmore⟩ := List.map_eq_append_iff.mp h.symm
  have hchars : front = chars := (List.map_inj_right fun _ _ => Except.ok.inj).mp hfront
  exact ⟨more, by rw [hchars], hmore.symm⟩

/-- **A text without comments ends with its last token, blanks apart.** -/
theorem Spelled.exists_bare {tokens : List Token} {text : List Char}
    (h : Spelled tokens (text.map Except.ok)) (hplain : ';' ∉ plainChars .plain text) :
    ∃ body tail, text = body ++ tail ∧ Bare tokens body ∧ ∀ c ∈ tail, isBlank c := by
  generalize hsource : text.map Except.ok = source at h
  induction h generalizing text with
  | nil hnone =>
      subst hsource
      exact ⟨[], text, rfl, .nil, blanks_of_nextLexeme_eq_none hnone hplain⟩
  | @cons gap chars token tokens rest hgap hspelled hends _ ih =>
      obtain ⟨after, rfl, hafter⟩ := exists_eq_append_of_map_ok hsource.symm
      obtain ⟨more, rfl, hmore⟩ := exists_eq_append_of_map_ok hafter
      -- neither the gap nor the token changes the region
      rw [plainChars_append, List.mem_append, not_or] at hplain
      have hblanks := hgap.blanks hplain.1
      rw [Region.through_blanks hblanks, plainChars_append, Region.through_spelled hspelled,
        List.mem_append, not_or] at hplain
      obtain ⟨body, tail, rfl, hbare, htail⟩ := ih hplain.2.2 hmore.symm
      refine ⟨gap ++ (chars ++ body), tail, by simp, .cons hblanks hspelled ?_ hbare, htail⟩
      rw [hmore] at hends
      cases body with
      | nil => exact Token.endsBefore_of_stops rfl chars
      | cons c body => exact hends.congr rfl

namespace Bare

variable {tokens : List Token} {body tail : List Char}

/-- Whatever blanks come after the body, the text spells the tokens. -/
theorem spelled (h : Bare tokens body) (htail : ∀ c ∈ tail, isBlank c) :
    Spelled tokens ((body ++ tail).map Except.ok) := by
  induction h with
  | nil => exact .nil (gap_of_blanks htail).nextLexeme_eq_none
  | cons hblanks hspelled hends _ ih =>
      simpa using Spelled.cons (gap_of_blanks hblanks) hspelled (hends.append_blanks htail) ih

theorem prepend (h : Bare tokens body) (hne : tokens ≠ []) {blanks : List Char}
    (hblanks : ∀ c ∈ blanks, isBlank c) : Bare tokens (blanks ++ body) := by
  cases h with
  | nil => exact absurd rfl hne
  | cons hmore hspelled hends hbare =>
      rw [← List.append_assoc]
      exact .cons (List.forall_mem_append.mpr ⟨hblanks, hmore⟩) hspelled hends hbare

end Bare

end SmtSession
