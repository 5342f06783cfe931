import SmtSession.Proofs.Host.Replies

/-!
# Replies with comments

The reader of expressions passes over comments, and the reader of replies does
not know of them: it takes the characters of a comment for text like any other.
So a comment before the first token is a reply of its own, and a parenthesis, a
quote or a bar in a comment is counted.  This file says for which comments a
reply is still received as it should be (`readReply_of_commented`).

## Strategy

A reply to a text is one of its beginnings that ends with a line break.  If the
text spells some tokens and the beginning spells the same ones, then the
beginning goes up to the last of them at least (`Body.prefix_of_spelled`), for
from the line break on the two are read alike.  So a reply is received rightly
if it does not end within the body of the text, and does end with the line on
which the body ends.
-/

namespace SmtSession

open Text (isBlank)

/-! ## Bodies -/

/-- The text spells the tokens with blanks and comments before each of them, and ends with the last
one. -/
inductive Body : List Token → List Char → Prop
  | nil : Body [] []
  | cons {gap chars more : List Char} {token : Token} {tokens : List Token} :
      Gap gap → token.SpelledAs chars → Token.EndsBefore chars (more.map Except.ok) →
        Body tokens more → Body (token :: tokens) (gap ++ (chars ++ more))

/-- No token ends with a line break. -/
theorem Token.SpelledAs.exists_last {token : Token} {chars : List Char}
    (h : token.SpelledAs chars) : ∃ front c, chars = front ++ [c] ∧ c ≠ '\n' := by
  cases h with
  | opening => exact ⟨[], '(', rfl, by decide⟩
  | closing => exact ⟨[], ')', rfl, by decide⟩
  | @word _ c word hc hword _ =>
      obtain ⟨front, last, hlast⟩ := List.eq_nil_or_concat (c :: word) |>.resolve_left (by simp)
      rw [List.concat_eq_append] at hlast
      have hchars : ∀ d ∈ c :: word, isWordChar d := List.forall_mem_cons.mpr ⟨hc, hword⟩
      refine ⟨front, last, hlast, ?_⟩
      rintro rfl
      exact absurd (hchars '\n' (by simp [hlast])) (by decide)
  | @bars name hname => exact ⟨'|' :: name, '|', rfl, by decide⟩
  | @string body hbody => exact ⟨'"' :: body, '"', rfl, by decide⟩

/-- A token in a line leaves its line break. -/
theorem Token.SpelledAs.exists_inner {token : Token} {line gap chars others : List Char}
    (h : token.SpelledAs chars) (hline : line ++ ['\n'] = gap ++ (chars ++ others)) :
    ∃ inner, others = inner ++ ['\n'] ∧ line = gap ++ (chars ++ inner) := by
  obtain rfl | ⟨inner, last, rfl⟩ := List.eq_nil_or_concat others
  · obtain ⟨front, c, rfl, hc⟩ := h.exists_last
    rw [List.append_nil, ← List.append_assoc] at hline
    obtain ⟨-, hlast⟩ := List.append_inj' hline rfl
    exact absurd (List.cons_eq_cons.mp hlast).1.symm hc
  · rw [List.concat_eq_append, ← List.append_assoc, ← List.append_assoc] at hline
    obtain ⟨rfl, hlast⟩ := List.append_inj' hline rfl
    refine ⟨inner, ?_, List.append_assoc gap chars inner⟩
    rw [List.concat_eq_append, ← hlast]

namespace Body

variable {tokens : List Token} {body tail : List Char}

/-- Whatever blanks come after the body, the text spells the tokens. -/
theorem spelled (h : Body tokens body) (htail : ∀ c ∈ tail, isBlank c) :
    Spelled tokens ((body ++ tail).map Except.ok) := by
  induction h with
  | nil => exact .nil (gap_of_blanks htail).nextLexeme_eq_none
  | cons hgap hspelled hends _ ih =>
      simpa using Spelled.cons hgap hspelled (hends.append_blanks htail) ih

/-- A token has a character that is no blank. -/
theorem exists_content (h : Body tokens body) (hne : tokens ≠ []) :
    ∃ c ∈ body, isBlank c = false := by
  cases h with
  | nil => exact absurd rfl hne
  | cons hgap hspelled hends _ =>
      obtain ⟨c, word, rfl, hcontent, -⟩ := hspelled.readsAs hends
      exact ⟨c, by simp, hcontent⟩

/-- **A line that spells the tokens of a text contains its body.** -/
theorem prefix_of_spelled (h : Body tokens body) (htail : ∀ c ∈ tail, isBlank c)
    {line after : List Char} (hline : Spelled tokens ((line ++ ['\n']).map Except.ok))
    (htext : body ++ tail = line ++ '\n' :: after) : body <+: line := by
  induction h generalizing line with
  | nil => exact List.nil_prefix
  | @cons gap chars more token tokens hgap hspelled hends hbody ih =>
      generalize hsource : (line ++ ['\n']).map Except.ok = source at hline
      cases hline with
      | @cons gap' chars' _ _ rest hgap' hspelled' hends' hrest =>
          obtain ⟨back, hback, hsource⟩ := exists_eq_append_of_map_ok hsource.symm
          obtain ⟨others, rfl, rfl⟩ := exists_eq_append_of_map_ok hsource
          obtain ⟨inner, rfl, rfl⟩ := hspelled'.exists_inner hback
          -- the text begins with the same token, and goes on with the same characters
          have hends'' : Token.EndsBefore chars' ((inner ++ '\n' :: after).map Except.ok) :=
            hends'.congr (by cases inner <;> rfl)
          have hlexeme : nextLexeme ((gap ++ (chars ++ more) ++ tail).map Except.ok) =
              some ⟨gap, chars, .ok token, (more ++ tail).map Except.ok⟩ :=
            nextLexeme_eq_some_iff.mpr ⟨by simp, hgap, hspelled, hends.append_blanks htail⟩
          have hlexeme' : nextLexeme ((gap ++ (chars ++ more) ++ tail).map Except.ok) =
              some ⟨gap', chars', .ok token, (inner ++ '\n' :: after).map Except.ok⟩ :=
            nextLexeme_eq_some_iff.mpr ⟨by simp [htext], hgap', hspelled', hends''⟩
          have hsame := Option.some.inj (hlexeme.symm.trans hlexeme')
          obtain ⟨rfl, rfl, -, hrests⟩ := Lexeme.mk.inj hsame
          have hafter : more ++ tail = inner ++ '\n' :: after :=
            (List.map_inj_right fun _ _ => Except.ok.inj).mp hrests
          exact (List.prefix_append_right_inj gap).mpr
            ((List.prefix_append_right_inj chars).mpr (ih hrest hafter))

end Body

/-! ## Lines after a body -/

/-- Blanks do not lead out of a string or of bars. -/
theorem Region.through_ne_plain {region : Region} (h : region ≠ .plain) {blanks : List Char}
    (hblanks : ∀ c ∈ blanks, isBlank c) : region.through blanks ≠ .plain := by
  induction blanks generalizing region with
  | nil => exact h
  | cons c blanks ih =>
      rw [List.forall_mem_cons] at hblanks
      have hspecial := ne_of_isBlank hblanks.1
      refine ih ?_ hblanks.2
      cases region with
      | plain => exact absurd rfl h
      | string => by_cases hbackslash : c = '\\' <;> simp [next, hspecial, hbackslash]
      | escaped => simp [next]
      | bars => simp [next, hspecial]

theorem plainChars_sublist (region : Region) (chars : List Char) :
    (plainChars region chars).Sublist chars := by
  induction chars generalizing region with
  | nil => exact .slnil
  | cons c chars ih =>
      rw [plainChars]
      split
      · exact (ih _).cons_cons c
      · exact (ih _).cons c

section

variable {chars : List Char}

/-- Blanks make no difference to where a reply may end. -/
theorem endsReply_append_blanks {blanks : List Char} (h : ∀ c ∈ blanks, isBlank c) :
    EndsReply (chars ++ blanks) ↔ EndsReply chars := by
  have hcount {c : Char} (hc : isBlank c = false) :
      (plainChars .plain (chars ++ blanks)).count c = (plainChars .plain chars).count c := by
    rw [plainChars_append, List.count_append, Nat.add_eq_left, List.count_eq_zero]
    intro hmem
    have hblank := h c ((plainChars_sublist _ blanks).subset hmem)
    simp [hblank] at hc
  constructor
  · rintro ⟨houtside, ⟨c, hc, hcontent⟩, hclosed⟩
    rw [Region.through_append] at houtside
    rw [hcount (by decide), hcount (by decide)] at hclosed
    refine ⟨?_, ⟨c, ?_, hcontent⟩, hclosed⟩
    · by_contra hinside
      exact Region.through_ne_plain hinside h houtside
    · refine (List.mem_append.mp hc).resolve_right fun hmem => ?_
      simp [h c hmem] at hcontent
  · rintro ⟨houtside, ⟨c, hc, hcontent⟩, hclosed⟩
    refine ⟨?_, ⟨c, List.mem_append_left _ hc, hcontent⟩, ?_⟩
    · rw [Region.through_append, houtside, Region.through_blanks h]
    · rw [hcount (by decide), hcount (by decide)]
      exact hclosed

/-- A beginning with a given last character ends in the first of two lists, or in the second. -/
theorem concat_prefix_append_cases {front more : List Char} {c : Char}
    (h : front ++ [c] <+: chars ++ more) :
    front ++ [c] <+: chars ∨ ∃ back, front = chars ++ back ∧ back ++ [c] <+: more := by
  obtain hfirst | ⟨back, hback⟩ := List.prefix_or_prefix_of_prefix h (List.prefix_append _ _)
  · exact .inl hfirst
  · rw [← hback, List.prefix_append_right_inj] at h
    obtain rfl | ⟨inner, last, rfl⟩ := List.eq_nil_or_concat back
    · rw [List.append_nil] at hback
      exact .inl (hback ▸ List.prefix_refl _)
    · rw [List.concat_eq_append] at hback h
      rw [← List.append_assoc] at hback
      obtain ⟨rfl, hlast⟩ := List.append_inj' hback rfl
      rw [hlast] at h
      exact .inr ⟨inner, rfl, h⟩

namespace Unbroken

/-- What stands on the same line ends no reply. -/
theorem append_line (h : Unbroken chars) {line : List Char} (hline : '\n' ∉ line) :
    Unbroken (chars ++ line) := by
  intro front hfront
  obtain hbefore | ⟨back, -, hback⟩ := concat_prefix_append_cases hfront
  · exact h front hbefore
  · exact absurd (hback.subset (by simp)) hline

/-- If no reply may end after the characters, no blanks change this. -/
theorem append_blanks (h : Unbroken chars) (hends : ¬ EndsReply chars) {blanks : List Char}
    (hblanks : ∀ c ∈ blanks, isBlank c) : Unbroken (chars ++ blanks) := by
  intro front hfront
  obtain hbefore | ⟨back, rfl, hback⟩ := concat_prefix_append_cases hfront
  · exact h front hbefore
  · have hafter : ∀ c ∈ back, isBlank c := fun c hc => hblanks c (hback.subset (by simp [hc]))
    rwa [endsReply_append_blanks hafter]

end Unbroken

end

/-! ## Texts with comments -/

/-- If a reply is read, it leaves less of the source than there was. -/
theorem length_readRest_lt {balance : Balance} {seen : List Char} {source after : Source}
    {reply : String} (h : readRest balance seen source = (.ok reply, after)) (hne : source ≠ []) :
    after.length < source.length := by
  induction source generalizing balance seen with
  | nil => exact absurd rfl hne
  | cons item rest ih =>
      cases item with
      | error failure => simp [readRest] at h
      | ok c =>
          rw [readRest] at h
          split at h
          · obtain ⟨-, rfl⟩ := Prod.mk.inj h
            exact Nat.lt_succ_self _
          · by_cases hrest : rest = []
            · subst hrest
              rw [readRest] at h
              split at h
              · simp at h
              · obtain ⟨-, rfl⟩ := Prod.mk.inj h
                exact Nat.lt_succ_self _
            · exact Nat.lt_succ_of_lt (ih h hrest)

/-- The reply that is read next is read as the expression, and the given rest is left, with
something of what stands before it perhaps. -/
def ReceivedAs (expr : SExpr) (text : String) (rest : Source) : Prop :=
  ∃ reply left, readReply (.ofText text ++ rest) = (.ok reply, .ofText left ++ rest) ∧
    expr.ReadFrom reply

section

variable {expr : SExpr} {text : String} {body tail : List Char} {rest : Source}

/-- A reply that is received rightly does not end within the body. -/
theorem ReceivedAs.unbroken (h : ReceivedAs expr (text ++ "\n") rest)
    (hbody : Body expr.tokens body) (htail : ∀ c ∈ tail, isBlank c)
    (htext : text.toList = body ++ tail) : Unbroken body := by
  refine (unbroken_or_exists body).resolve_right ?_
  rintro ⟨front, more, rfl, hfront, hends⟩
  obtain ⟨reply, left, hread, hreply⟩ := h
  have hcut : readReply (.ofText (text ++ "\n") ++ rest) =
      (.ok (String.ofList (front ++ ['\n'])),
        ((more ++ tail ++ ['\n']).map Except.ok : Source) ++ rest) := by
    have hline := hfront.readReply_line hends (((more ++ tail ++ ['\n']).map Except.ok) ++ rest)
    simpa [Source.ofText, htext] using hline
  obtain ⟨hreply', -⟩ := Prod.mk.inj (hread.symm.trans hcut)
  cases hreply'
  rw [SExpr.readFrom_iff, Source.ofText, String.toList_ofList] at hreply
  -- the line would contain the body of which it is a part
  have hbegins : front ++ '\n' :: more <+: front :=
    hbody.prefix_of_spelled htail hreply (by simp : _ = front ++ '\n' :: (more ++ tail))
  have hlength := hbegins.length_le
  rw [List.length_append, List.length_cons] at hlength
  omega

/-- If a reply may end after the body, it ends with the line. -/
theorem receivedAs_of_endsReply (hbody : Body expr.tokens body) (htail : ∀ c ∈ tail, isBlank c)
    (htext : text.toList = body ++ tail) (hunbroken : Unbroken body) (hends : EndsReply body) :
    ReceivedAs expr (text ++ "\n") rest := by
  obtain ⟨line, left, hsplit, hline, hblank, -⟩ := exists_first_line htail
  have hlineEnds : EndsReply (body ++ line) := (endsReply_append_blanks hblank).mpr hends
  have hread := (hunbroken.append_line hline).readReply_line hlineEnds (left.map Except.ok ++ rest)
  refine ⟨String.ofList (body ++ line ++ ['\n']), String.ofList left, ?_, ?_⟩
  · have hchars : (text ++ "\n").toList = body ++ (line ++ '\n' :: left) := by
      simp [htext, ← hsplit]
    rw [Source.ofText, hchars]
    simpa [Source.ofText] using hread
  · rw [SExpr.readFrom_iff, Source.ofText, String.toList_ofList, List.append_assoc]
    exact hbody.spelled (List.forall_mem_append.mpr ⟨hblank, List.forall_mem_singleton.mpr rfl⟩)

/-- If nothing follows, the reply ends with the stream. -/
theorem receivedAs_of_unbroken (hbody : Body expr.tokens body) (htail : ∀ c ∈ tail, isBlank c)
    (htext : text.toList = body ++ tail) (hunbroken : Unbroken (body ++ tail)) :
    ReceivedAs expr text [] := by
  have hread : expr.ReadFrom text := by
    rw [SExpr.readFrom_iff, Source.ofText, htext]
    exact hbody.spelled htail
  have hne : expr.tokens ≠ [] := by
    cases expr <;> simp [SExpr.tokens]
  obtain ⟨c, hc, hcontent⟩ := hbody.exists_content hne
  have hreply := hunbroken.readReply_end ⟨c, List.mem_append_left _ hc, hcontent⟩
  rw [← htext, String.ofList_toList] at hreply
  exact ⟨text, "", by simpa [Source.ofText] using hreply, hread⟩

/-- **Which comments do no harm.**  A text that spells an expression, with blanks and comments
before and between its tokens and blanks after them, is received as this expression exactly if,
comments being taken for text like any other, no line break in it ends a reply, and a reply may end
after it or nothing follows. -/
theorem readReply_of_commented (hbody : Body expr.tokens body) (htail : ∀ c ∈ tail, isBlank c)
    (htext : text.toList = body ++ tail) :
    ReceivedAs expr (text ++ "\n") rest ↔ Unbroken body ∧ (EndsReply body ∨ rest = []) := by
  have hblank : ∀ c ∈ tail ++ ['\n'], isBlank c :=
    List.forall_mem_append.mpr ⟨htail, List.forall_mem_singleton.mpr rfl⟩
  have hline : (text ++ "\n").toList = body ++ (tail ++ ['\n']) := by simp [htext]
  constructor
  · intro h
    have hunbroken : Unbroken body := h.unbroken hbody htail htext
    refine ⟨hunbroken, ?_⟩
    by_contra hnot
    rw [not_or] at hnot
    -- reading would go on in the rest, and leave less of it
    obtain ⟨reply, left, hread, -⟩ := h
    rw [Source.ofText, hline, (hunbroken.append_blanks hnot.1 hblank).readReply] at hread
    have hlength := length_readRest_lt hread hnot.2
    rw [List.length_append] at hlength
    omega
  · rintro ⟨hunbroken, hends⟩
    by_cases hbodyEnds : EndsReply body
    · exact receivedAs_of_endsReply hbody htail htext hunbroken hbodyEnds
    · rw [hends.resolve_left hbodyEnds]
      exact receivedAs_of_unbroken hbody hblank hline (hunbroken.append_blanks hbodyEnds hblank)

/-- A comment within a list does no harm: its line break ends no reply while the list is open. -/
theorem readReply_of_commented_list :
    ReceivedAs (.list [.atom (.symbol ⟨"a"⟩), .atom (.symbol ⟨"c"⟩)]) ("(a ;b\nc)\t" ++ "\n")
      (.ofText "sat\n") := by
  have hcomment : Gap (' ' :: (';' :: ['b'] ++ '\n' :: [])) :=
    .blank rfl (.comment (by decide) .nil)
  have ha : Token.SpelledAs (.ident "a") ['a'] := .word (by decide) (by simp) rfl
  have hc : Token.SpelledAs (.ident "c") ['c'] := .word (by decide) (by simp) rfl
  have hbody : Body (SExpr.list [.atom (.symbol ⟨"a"⟩), .atom (.symbol ⟨"c"⟩)]).tokens
      ['(', 'a', ' ', ';', 'b', '\n', 'c', ')'] :=
    .cons .nil .opening trivial <|
      .cons .nil ha rfl <| .cons hcomment hc rfl <| .cons .nil .closing trivial .nil
  have htail : ∀ c ∈ ['\t'], isBlank c := List.forall_mem_singleton.mpr rfl
  exact (readReply_of_commented hbody htail rfl).mpr
    ⟨by decide +kernel, .inl (by decide +kernel)⟩

/-- A comment before the first token is taken for a reply, and the reply is left in the stream. -/
theorem readReply_of_commented_note :
    SExpr.ReadFrom (.atom (.symbol ⟨"sat"⟩)) "sat" ∧ Uncommented "sat" ∧
      SExpr.ReadFrom (.atom (.symbol ⟨"sat"⟩)) "; note\nsat" ∧
      readReply (.ofText "; note\nsat\nsuccess\n") = (.ok "; note\n", .ofText "sat\nsuccess\n") ∧
      ¬ ∃ expr : SExpr, expr.ReadFrom "; note\n" := by
  have hlaid : Laid false (SExpr.atom (.symbol ⟨"sat"⟩)).tokens "sat".toList :=
    .word (.ident "sat") rfl (.nil .nil)
  have hnote : Gap "; note\n".toList :=
    .comment (show '\n' ∉ " note".toList by decide) .nil
  have hcommented : Laid false (SExpr.atom (.symbol ⟨"sat"⟩)).tokens "; note\nsat".toList :=
    hlaid.prepend hnote (by simp)
  refine ⟨parseText_of_laid hlaid (by decide), by decide,
    parseText_of_laid hcommented (by decide), by decide, ?_⟩
  rintro ⟨expr, hread⟩
  -- the comment has no tokens, and every expression has some
  have hitems := SExpr.readFrom_iff_items.mp hread
  have hnone : Laid false [] "; note\n".toList := .nil hnote
  rw [map_token_itemsOfText hnone (by simp)] at hitems
  cases expr <;> simp [SExpr.tokens] at hitems

end

end SmtSession
