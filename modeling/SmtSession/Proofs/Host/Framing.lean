import SmtSession.Host.Reply
import SmtSession.Proofs.SExpr.Extent
import SmtSession.Proofs.Token.Nesting

/-!
# Replies keep in step with expressions

The solver's output is cut into replies by counting parentheses, without reading
tokens.  For texts without comments this finds what the reader finds.  Between
two tokens the count is outside strings and bars and its depth is the number of
lists that the reader has open (`Bare.passes`), so that it comes down to zero
when the expression is complete, and not before.

A reply then ends with its line.  The blanks that are left of the text come
before the next reply, where they do no harm.
-/

namespace SmtSession

open Text (isBlank)

/-! ## The count along a token -/

namespace Balance

/-- The count between two tokens. -/
def between (depth : Int) (content : Bool) : Balance :=
  { depth, content }

/-- The characters do not end the reply, and lead from one count to the other. -/
inductive Passes : Balance → List Char → Balance → Prop
  | nil {balance : Balance} : Passes balance [] balance
  | cons {balance after : Balance} {c : Char} {chars : List Char} :
      balance.endsWith c = false → Passes (balance.next c) chars after →
        Passes balance (c :: chars) after

namespace Passes

variable {balance middle after : Balance} {chars more : List Char}

theorem append (h : balance.Passes chars middle) (hmore : middle.Passes more after) :
    balance.Passes (chars ++ more) after := by
  induction h with
  | nil => exact hmore
  | cons hend _ ih => exact .cons hend (ih hmore)

theorem readRest (h : balance.Passes chars after) (seen : List Char) (rest : Source) :
    readRest balance seen (chars.map Except.ok ++ rest) =
      SmtSession.readRest after (chars.reverse ++ seen) rest := by
  induction h generalizing seen with
  | nil => rfl
  | @cons balance after c chars hend _ ih =>
      rw [List.map_cons, List.cons_append, SmtSession.readRest, hend]
      simpa using ih (c :: seen)

end Passes

variable {depth : Int} {content : Bool}

theorem next_between {c : Char} (hc : isSeparator c = false) :
    (between depth content).next c = between depth (content || !isBlank c) := by
  cases hblank : isBlank c <;>
    simp [next, between, ne_of_isSeparator_eq_false hc, hblank]

/-- Blanks pass where their line breaks do not end a reply. -/
theorem passes_blanks {blanks : List Char} (h : ∀ c ∈ blanks, isBlank c)
    (hopen : '\n' ∈ blanks → content → 0 < depth) :
    (between depth content).Passes blanks (between depth content) := by
  induction blanks with
  | nil => exact .nil
  | cons c blanks ih =>
      rw [List.forall_mem_cons] at h
      have hrest := ih h.2 fun hline => hopen (List.mem_cons_of_mem c hline)
      have hnext : (between depth content).next c = between depth content := by
        simp [next_between (isSeparator_eq_false_of_isBlank h.1), h.1]
      refine .cons ?_ (by rwa [hnext])
      by_cases hline : c = '\n'
      · have hdepth : content → 0 < depth := hopen (by simp [hline])
        cases content with
        | false => simp [endsWith, between]
        | true =>
            have hpositive : ¬ depth ≤ 0 := Int.not_le.mpr (hdepth rfl)
            simp [endsWith, between, hpositive]
      · simp [endsWith, hline]

theorem passes_word {chars : List Char} (h : ∀ c ∈ chars, isWordChar c) (hne : chars ≠ []) :
    (between depth content).Passes chars (between depth true) := by
  induction chars generalizing content with
  | nil => exact absurd rfl hne
  | cons c chars ih =>
      rw [List.forall_mem_cons] at h
      have hline : c ≠ '\n' := by
        rintro rfl
        exact absurd h.1 (by decide)
      have hblank : isBlank c = false := by simpa using (Bool.and_eq_true_iff.mp h.1).1
      refine .cons (by simp [endsWith, hline]) ?_
      rw [next_between (isSeparator_eq_false_of_isWordChar h.1), hblank, Bool.not_false,
        Bool.or_true]
      by_cases hmore : chars = []
      · rw [hmore]
        exact .nil
      · exact ih h.2 hmore

theorem passes_bars {name : List Char} (h : '|' ∉ name) :
    (between depth content).Passes ('|' :: name ++ ['|']) (between depth true) := by
  refine .cons (by simp [endsWith]) ?_
  show Passes { depth, quoted := true, content := true } (name ++ ['|']) _
  induction name with
  | nil => exact .cons (by simp [endsWith]) .nil
  | cons c name ih =>
      rw [List.mem_cons, not_or] at h
      refine .cons (by simp [endsWith]) ?_
      simpa [next, Ne.symm h.1] using ih h.2

/-- Two quotes close the string and open it again, and nothing ends there. -/
theorem passes_string {body : List Char} (h : StringBody body) :
    (between depth content).Passes ('"' :: body ++ ['"']) (between depth true) := by
  refine .cons (by simp [endsWith]) ?_
  show Passes { depth, string := true, content := true } (body ++ ['"']) _
  induction h with
  | nil => exact .cons (by simp [endsWith]) .nil
  | escaped _ ih =>
      refine .cons (by simp [endsWith]) (.cons (by simp [endsWith, next]) ?_)
      simpa [next] using ih
  | doubled _ ih =>
      refine .cons (by simp [endsWith]) (.cons (by simp [endsWith]) ?_)
      simpa [next] using ih
  | plain hbackslash hquote _ ih =>
      refine .cons (by simp [endsWith]) ?_
      simpa [next, hbackslash, hquote] using ih

end Balance

/-! ## The depth between tokens -/

namespace Token

theorem rise_ofWord {token : Token} {c : Char} {word : List Char}
    (h : ofWord c word = .ok token) : token.rise = 0 := by
  unfold ofWord ofRadix ofNumber at h
  dsimp only at h
  repeat' split at h
  all_goals first
    | (cases h; rfl)
    | simp at h

/-- A token does not end the reply, and changes the depth as it does for the reader. -/
theorem SpelledAs.passes {token : Token} {chars : List Char} (h : token.SpelledAs chars)
    (depth : Int) (content : Bool) :
    (Balance.between depth content).Passes chars (.between (depth + token.rise) true) := by
  cases h with
  | opening => exact .cons (by simp [Balance.endsWith]) .nil
  | closing => exact .cons (by simp [Balance.endsWith]) .nil
  | word hc hword hread =>
      rw [rise_ofWord hread, Int.add_zero]
      exact Balance.passes_word (List.forall_mem_cons.mpr ⟨hc, hword⟩) (by simp)
  | bars hname => simpa [rise] using Balance.passes_bars hname
  | string hbody => simpa [rise] using Balance.passes_string hbody

end Token

theorem Atom.rise_token (value : Atom) : value.token.rise = 0 := by
  cases value <;> rfl

namespace Progress

/-- How many lists are open. -/
def depth : Progress → Nat
  | .within stack => stack.length
  | .done _ => 0

theorem depth_settle (tree : Tree) (stack : List OpenList) :
    (settle tree stack).depth = stack.length := by
  cases stack <;> rfl

/-- Unless there is an error, reading a token changes the number of open lists as it should. -/
theorem depth_next {stack : List OpenList} {token : Token} {span : Span}
    (h : ∀ error, next stack (.ok ⟨token, span⟩) ≠ .done (.error error)) :
    ((next stack (.ok ⟨token, span⟩)).depth : Int) = stack.length + token.rise := by
  obtain ⟨rfl, hnext⟩ | ⟨rfl, rfl, hnext⟩ | ⟨tree, below, hcompletes, hnext⟩ :=
    next_cases stack token span
  · simp [hnext, depth, Token.rise]
  · exact absurd hnext (h _)
  · rw [hnext, depth_settle]
    cases hcompletes with
    | atom value => rw [value.rise_token, Int.add_zero]
    | list top =>
        rw [Token.rise, List.length_cons]
        omega

/-- While an expression is not complete, a list is open. -/
theorem ne_nil_of_next {stack after : List OpenList} {token : Token} {span : Span}
    (h : next stack (.ok ⟨token, span⟩) = .within after) : after ≠ [] := by
  obtain ⟨-, hnext⟩ | ⟨-, -, hnext⟩ | ⟨tree, below, -, hnext⟩ := next_cases stack token span
  all_goals rw [hnext] at h
  · cases h
    exact List.cons_ne_nil _ _
  · cases h
  · obtain ⟨top, rest, -, rfl⟩ := settle_eq_within_iff.mp h
    exact List.cons_ne_nil _ _

end Progress

/-- **The count follows the reader.**  Over a body that is read as the rest of an expression, no
reply ends, and at its end no list is open. -/
theorem Bare.passes {tokens : List Token} {body : List Char} (h : Bare tokens body)
    {stack : List OpenList} {items : List Item} {tree : Tree} {content : Bool}
    (hitems : items.map Item.token = tokens.map Except.ok)
    (hparse : parseWithin stack items = (.ok tree, [])) (hcontent : content → stack ≠ []) :
    (Balance.between stack.length content).Passes body (.between 0 true) := by
  induction h generalizing stack items content with
  | nil =>
      obtain rfl : items = [] := by simpa using hitems
      simp [parseWithin] at hparse
  | @cons blanks chars more token tokens hblanks hspelled _ hbare ih =>
      obtain ⟨item, items, rfl, htoken, hothers⟩ := List.map_eq_cons_iff.mp hitems
      obtain ⟨span, rfl⟩ := Item.eq_ok_of_token htoken
      -- inside the expression line breaks do not count, for a list is open
      have hopen : content → 0 < (stack.length : Int) := by
        intro hseen
        simpa [List.length_pos_iff] using hcontent hseen
      refine (Balance.passes_blanks hblanks fun _ => hopen).append
        ((hspelled.passes _ _).append ?_)
      rw [parseWithin_cons] at hparse
      have hdepth : ((Progress.next stack (.ok ⟨token, span⟩)).depth : Int) =
          stack.length + token.rise := by
        refine Progress.depth_next fun error herror => ?_
        rw [herror] at hparse
        simp [Progress.resume] at hparse
      rw [← hdepth]
      cases hnext : Progress.next stack (.ok ⟨token, span⟩) with
      | within after =>
          rw [hnext] at hparse
          exact ih hothers hparse fun _ => Progress.ne_nil_of_next hnext
      | done result =>
          rw [hnext] at hparse
          obtain ⟨rfl, rfl⟩ := Prod.mk.inj hparse
          obtain rfl : tokens = [] := by simpa using hothers.symm
          cases hbare
          exact .nil

/-! ## One reply -/

namespace Source

@[simp] theorem ofText_append (text more : String) :
    ofText (text ++ more) = ofText text ++ ofText more := by
  simp [ofText]

/-- The texts, each ended by a line break. -/
def ofLines (texts : List String) : Source :=
  texts.flatMap fun text => ofText (text ++ "\n")

@[simp] theorem ofText_ofList (chars : List Char) :
    ofText (String.ofList chars) = chars.map Except.ok := by
  simp [ofText]

end Source

/-- When an expression is complete, the reply ends with the line. -/
theorem readReply_of_passes {front line : List Char}
    (hfront : Balance.Passes {} front (.between 0 true)) (hblank : ∀ c ∈ line, isBlank c)
    (hline : '\n' ∉ line) (rest : Source) :
    readReply (.ofText (String.ofList (front ++ line ++ ['\n'])) ++ rest) =
      (.ok (String.ofList (front ++ line ++ ['\n'])), rest) := by
  have hpasses := hfront.append (Balance.passes_blanks hblank fun h => absurd h hline)
  have hread := hpasses.readRest [] (.ok '\n' :: rest)
  rw [List.append_nil] at hread
  simp only [Source.ofText_ofList, List.map_append, List.map_singleton, List.append_assoc,
    List.singleton_append] at hread ⊢
  rw [readReply, hread, readRest, if_pos (by decide)]
  simp

/-- A reply to a text goes up to the end of the line on which the expression of the text ends.
Before it stands what the text before has left, and the text itself leaves what follows. -/
structure IsReply (text : String) (tree : Tree) (lead reply left : String) : Prop where
  parsed : parseText text = .ok tree
  lead_blank : ∀ c ∈ lead.toList, isBlank c
  left_blank : ∀ c ∈ left.toList, isBlank c
  /-- `body` ends with the last character of the expression, and `line` goes on to the end of its
  line. -/
  exists_line : ∃ body line, text ++ "\n" = body ++ line ++ "\n" ++ left ∧
    tree.span.stop = Position.first.through body.toList ∧ '\n' ∉ line.toList ∧
    reply = lead ++ body ++ line ++ "\n"
  readFrom : tree.sexpr.ReadFrom reply

namespace IsReply

variable {text lead reply left : String} {tree : Tree}

theorem append_eq (h : IsReply text tree lead reply left) :
    lead ++ (text ++ "\n") = reply ++ left := by
  obtain ⟨body, line, htext, _, _, rfl⟩ := h.exists_line
  simp [htext, String.append_assoc]

/-- Nothing is lost and nothing is read twice. -/
theorem source_eq (h : IsReply text tree lead reply left) (after : List String) :
    Source.ofText lead ++ .ofLines (text :: after) =
      .ofText reply ++ (.ofText left ++ .ofLines after) := by
  have happend := congrArg Source.ofText h.append_eq
  rw [Source.ofText_append, Source.ofText_append reply] at happend
  rw [Source.ofLines, List.flatMap_cons, ← List.append_assoc, happend, List.append_assoc]
  rfl

end IsReply

/-- The first line break after a body is in the blanks after it, or it is the one after the
text. -/
theorem exists_first_line {tail : List Char} (htail : ∀ c ∈ tail, isBlank c) :
    ∃ line left, tail ++ ['\n'] = line ++ '\n' :: left ∧ '\n' ∉ line ∧
      (∀ c ∈ line, isBlank c) ∧ ∀ c ∈ left, isBlank c := by
  obtain ⟨line, left, hsplit, hline⟩ :=
    List.eq_append_cons_of_mem (show '\n' ∈ tail ++ ['\n'] by simp)
  have hblank : ∀ c ∈ line ++ '\n' :: left, isBlank c := by
    rw [← hsplit]
    exact List.forall_mem_append.mpr ⟨htail, List.forall_mem_singleton.mpr rfl⟩
  rw [List.forall_mem_append, List.forall_mem_cons] at hblank
  exact ⟨line, left, hsplit, hline, hblank.1, hblank.2.2⟩

/-- **The next reply is the one to the next text**, whatever blanks stand before it. -/
theorem exists_reply {text lead : String} {tree : Tree} (hparse : parseText text = .ok tree)
    (hplain : Uncommented text) (hlead : ∀ c ∈ lead.toList, isBlank c) :
    ∃ reply left, IsReply text tree lead reply left ∧
      ∀ rest, readReply (.ofText reply ++ rest) = (.ok reply, rest) := by
  have hread : tree.sexpr.ReadFrom text := ⟨tree, hparse, rfl⟩
  obtain ⟨body, tail, htext, hbare, htail⟩ :=
    (SExpr.readFrom_iff.mp hread).exists_bare hplain
  obtain ⟨line, left, hsplit, hline, hlineBlank, hleftBlank⟩ := exists_first_line htail
  have hne : tree.sexpr.tokens ≠ [] := by
    cases tree.sexpr <;> simp [SExpr.tokens]
  have hfront := hbare.prepend hne hlead
  have hitems : (itemsOfText text).map Item.token = tree.sexpr.tokens.map Except.ok :=
    SExpr.readFrom_iff_items.mp hread
  refine ⟨String.ofList (lead.toList ++ body ++ line ++ ['\n']), String.ofList left,
    ⟨hparse, hlead, by simpa using hleftBlank, ?_, ?_⟩, ?_⟩
  · refine ⟨String.ofList body, String.ofList line, ?_, ?_, by simpa using hline, ?_⟩
    · apply String.toList_injective
      simp [htext, hsplit]
    · simpa using hbare.stop_eq hparse htail htext
    · apply String.toList_injective
      simp
  · rw [SExpr.readFrom_iff, Source.ofText, String.toList_ofList, List.append_assoc]
    exact hfront.spelled
      (List.forall_mem_append.mpr ⟨hlineBlank, List.forall_mem_singleton.mpr rfl⟩)
  · exact readReply_of_passes
      (hfront.passes hitems (parseText_eq_ok_iff.mp hparse) (by simp)) hlineBlank hline

/-! ## One reply after the other -/

/-- What is left of the source after some replies. -/
def afterReplies : Nat → Source → Source
  | 0, source => source
  | count + 1, source => afterReplies count (readReply source).2

/-- A text that is read as an expression and has no comments. -/
structure IsPlainText (text : String) : Prop where
  parsed : ∃ tree, parseText text = .ok tree
  uncommented : Uncommented text

/-- After the replies to some texts, only blanks are left of these. -/
theorem exists_afterReplies {texts : List String} (h : ∀ text ∈ texts, IsPlainText text)
    (more : List String) (lead : String) (hlead : ∀ c ∈ lead.toList, isBlank c) :
    ∃ left : String, (∀ c ∈ left.toList, isBlank c) ∧
      afterReplies texts.length (.ofText lead ++ .ofLines (texts ++ more)) =
        .ofText left ++ .ofLines more := by
  induction texts generalizing lead with
  | nil => exact ⟨lead, hlead, rfl⟩
  | cons text texts ih =>
      rw [List.forall_mem_cons] at h
      obtain ⟨tree, hparse⟩ := h.1.parsed
      obtain ⟨reply, left, hreply, hread⟩ := exists_reply hparse h.1.uncommented hlead
      rw [List.length_cons, afterReplies, List.cons_append, hreply.source_eq, hread]
      exact ih h.2 left hreply.left_blank

/-- **Replies keep in step with expressions.**  From a stream of texts without comments, each of
which is read as an expression, the reader of replies takes them one after the other: each reply
is read as the expression of its text, ends with the line on which this expression ends, and
leaves everything after it in the stream. -/
theorem readReply_in_step {texts : List String} (h : ∀ text ∈ texts, IsPlainText text)
    {before after : List String} {text : String} (htexts : texts = before ++ text :: after) :
    ∃ tree lead reply left, IsReply text tree lead reply left ∧
      afterReplies before.length (.ofLines texts) =
        .ofText reply ++ (.ofText left ++ .ofLines after) ∧
      readReply (afterReplies before.length (.ofLines texts)) =
        (.ok reply, .ofText left ++ .ofLines after) := by
  subst htexts
  rw [List.forall_mem_append, List.forall_mem_cons] at h
  obtain ⟨lead, hlead, hbefore⟩ := exists_afterReplies h.1 (text :: after) "" (by simp)
  obtain ⟨tree, hparse⟩ := h.2.1.parsed
  obtain ⟨reply, left, hreply, hread⟩ := exists_reply hparse h.2.1.uncommented hlead
  have hstream : afterReplies before.length (.ofLines (before ++ text :: after)) =
      .ofText reply ++ (.ofText left ++ .ofLines after) := by
    rw [← hreply.source_eq, ← hbefore]
    rfl
  exact ⟨tree, lead, reply, left, hreply, hstream, by rw [hstream, hread]⟩

/-- A reply of two lines with a blank line after it, and a symbol that is a semicolon. -/
theorem readReply_in_step_blank_line :
    ∃ tree lead reply left, IsReply "|;|" tree lead reply left ∧
      afterReplies 1 (.ofLines ["(a\n\")\")\n", "|;|"]) =
        .ofText reply ++ (.ofText left ++ .ofLines []) ∧
      readReply (afterReplies 1 (.ofLines ["(a\n\")\")\n", "|;|"])) =
        (.ok reply, .ofText left ++ .ofLines []) := by
  have hline : Gap ['\n'] := .blank rfl .nil
  have hstring : Laid false [.constant (.string ")"), .closing] "\")\")\n".toList :=
    .word (.constant (.string ")")) rfl (.closing (.nil hline))
  have hlaid := Laid.opening (.word (.ident "a") rfl (hstring.prepend hline (by simp)))
  have hlist : SExpr.ReadFrom (.list [.atom (.symbol ⟨"a"⟩), .atom (.constant (.string ")"))])
      "(a\n\")\")\n" := parseText_of_laid hlaid (by decide)
  have hsymbol : SExpr.ReadFrom (.atom (.symbol ⟨";"⟩)) "|;|" :=
    parseText_of_laid (SExpr.laid_text _) (by decide)
  have hplain : ∀ text ∈ ["(a\n\")\")\n", "|;|"], IsPlainText text := by
    obtain ⟨tree, htree, _⟩ := hlist
    obtain ⟨symbol, hsymbol, _⟩ := hsymbol
    exact List.forall_mem_cons.mpr ⟨⟨⟨tree, htree⟩, by decide⟩,
      List.forall_mem_singleton.mpr ⟨⟨symbol, hsymbol⟩, by decide⟩⟩
  exact readReply_in_step hplain (List.singleton_append (l := ["|;|"])).symm

end SmtSession
