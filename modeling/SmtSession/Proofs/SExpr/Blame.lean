import SmtSession.Proofs.SExpr.RoundTrip
import SmtSession.Proofs.Token.Nesting

/-!
# What the reader accepts, and what it blames

A text is read as an expression exactly when its tokens are one complete
sequence.  If they are not, the reader blames the token that is at fault, which
is said here without the reader (`Blames`): the closing parenthesis that comes
first, the token after the first complete sequence, or the last opening
parenthesis that is not closed.

## Strategy

While lists are open, the tokens read so far consist of one opening parenthesis
for each of them, with balanced tokens after it (`Unclosed`).  Every token either
keeps this, or ends a complete sequence, or is a closing parenthesis that comes
first (`Unclosed.fits_next`).  So what a run of the reader ends with is right
about the tokens it has read (`Unclosed.judged`), and since tokens cannot be
blamed in two ways (`Blames.eq`), it is the only thing that is right.
-/

namespace SmtSession

open Token (height Balanced Complete)

/-! ## Blame -/

/-- What is wrong with tokens that are not one complete sequence, and where. -/
inductive Blames : List (Located Token) → Located SyntaxError → Prop
  | nothing : Blames [] ⟨.unexpectedEnd, .nowhere⟩
  | closing (span : Span) (rest : List (Located Token)) :
      Blames (⟨.closing, span⟩ :: rest) ⟨.unexpectedToken .closing, span⟩
  | trailing {tokens front rest : List (Located Token)} {next : Located Token} :
      tokens = front ++ next :: rest → Complete (front.map Located.value) →
        Blames tokens ⟨.trailingInput next.value, next.span⟩
  | unclosed {tokens before after : List (Located Token)} {span : Span} :
      (∀ span rest, tokens ≠ ⟨.closing, span⟩ :: rest) →
        (∀ front, front <+: tokens → ¬ Complete (front.map Located.value)) →
        tokens = before ++ ⟨.opening, span⟩ :: after → Balanced (after.map Located.value) →
        Blames tokens ⟨.missingClosingParenthesis, span⟩

/-- No complete sequence starts with a closing parenthesis. -/
theorem not_complete_closing {front rest : List (Located Token)} {span : Span}
    (h : front <+: ⟨.closing, span⟩ :: rest) : ¬ Complete (front.map Located.value) := by
  intro hcomplete
  cases front with
  | nil => exact hcomplete.ne_nil rfl
  | cons first front =>
      obtain ⟨rfl, -⟩ := List.cons_prefix_cons.mp h
      have hnonneg := hcomplete.balanced.height_nonneg [.closing] (List.prefix_append _ _)
      simp at hnonneg

/-- At most one complete sequence is a beginning of the tokens. -/
theorem eq_of_complete {tokens front other : List (Located Token)} (hfront : front <+: tokens)
    (hother : other <+: tokens) (hcomplete : Complete (front.map Located.value))
    (hcomplete' : Complete (other.map Located.value)) : front = other := by
  rcases List.prefix_or_prefix_of_prefix hfront hother with hbegins | hbegins
  · have hmap := hcomplete'.eq_of_prefix hcomplete (hbegins.map Located.value)
    exact hbegins.eq_of_length (by simpa using congrArg List.length hmap)
  · have hmap := hcomplete.eq_of_prefix hcomplete' (hbegins.map Located.value)
    exact (hbegins.eq_of_length (by simpa using congrArg List.length hmap)).symm

namespace Blames

variable {tokens : List (Located Token)} {error other : Located SyntaxError}

/-- If some tokens at the beginning are complete, what follows is at fault. -/
theorem eq_trailing {front rest : List (Located Token)} {next : Located Token}
    (h : Blames tokens error) (htokens : tokens = front ++ next :: rest)
    (hfront : Complete (front.map Located.value)) :
    error = ⟨.trailingInput next.value, next.span⟩ := by
  have hbegins : front <+: tokens := htokens ▸ List.prefix_append front _
  cases h with
  | nothing => simp at htokens
  | closing span more => exact absurd hfront (not_complete_closing hbegins)
  | trailing htokens' hfront' =>
      obtain rfl := eq_of_complete (htokens' ▸ List.prefix_append _ _) hbegins hfront' hfront
      have hrest := List.append_cancel_left (htokens'.symm.trans htokens)
      obtain ⟨rfl, -⟩ := List.cons_eq_cons.mp hrest
      rfl
  | unclosed _ hincomplete => exact absurd hfront (hincomplete front hbegins)

/-- **Only one thing is wrong.** -/
theorem eq (h : Blames tokens error) (h' : Blames tokens other) : error = other := by
  cases h with
  | nothing =>
      cases h' with
      | nothing => rfl
      | trailing htokens => simp at htokens
      | unclosed _ _ htokens => simp at htokens
  | closing span rest =>
      cases h' with
      | closing => rfl
      | trailing htokens hfront =>
          exact absurd hfront (not_complete_closing (htokens ▸ List.prefix_append _ _))
      | unclosed hstart => exact absurd rfl (hstart span rest)
  | trailing htokens hfront => exact (h'.eq_trailing htokens hfront).symm
  | unclosed hstart hincomplete htokens hafter =>
      cases h' with
      | nothing => simp at htokens
      | closing span rest => exact absurd rfl (hstart span rest)
      | trailing htokens' hfront' =>
          exact absurd hfront' (hincomplete _ (htokens' ▸ List.prefix_append _ _))
      | unclosed _ _ htokens' hafter' =>
          -- what follows is balanced in both places, so they are the same place
          have heq := htokens.symm.trans htokens'
          have hbefore := hafter.eq_of_append hafter'
            (by simpa using congrArg (List.map Located.value) heq)
          obtain ⟨-, hrest⟩ := List.append_inj heq (by simpa using congrArg List.length hbefore)
          obtain ⟨hspan, -⟩ := List.cons_eq_cons.mp hrest
          cases hspan
          rfl

end Blames

/-! ## Open lists -/

/-- The tokens open the given lists, the innermost one first, and what stands between and after
their opening parentheses is balanced. -/
inductive Unclosed : List OpenList → List (Located Token) → Prop
  | nil : Unclosed [] []
  | cons {top : OpenList} {below : List OpenList} {before after : List (Located Token)} :
      Unclosed below before → Balanced (after.map Located.value) →
        Unclosed (top :: below) (before ++ ⟨.opening, top.span⟩ :: after)

/-- What progress says about the tokens that have led to it. -/
def Progress.Fits (used : List (Located Token)) : Progress → Prop
  | .within stack => Unclosed stack used
  | .done (.ok _) => Complete (used.map Located.value)
  | .done (.error error) =>
      ∃ span, used = [⟨.closing, span⟩] ∧ error = ⟨.unexpectedToken .closing, span⟩

namespace Unclosed

variable {stack : List OpenList} {used : List (Located Token)}

theorem eq_nil (h : Unclosed [] used) : used = [] := by
  cases h
  rfl

/-- From the first token on, some list is open. -/
theorem height_pos (h : Unclosed stack used) {front : List (Located Token)}
    (hfront : front <+: used) (hne : front ≠ []) : 0 < height (front.map Located.value) := by
  induction h generalizing front with
  | nil => exact absurd (List.prefix_nil.mp hfront) hne
  | @cons top below before after hbelow hafter ih =>
      rcases List.prefix_or_prefix_of_prefix hfront (List.prefix_append before _) with
        hbefore | ⟨back, rfl⟩
      · exact ih hbefore hne
      · -- the lists that were open before are still open, and so is this one
        have hbelow : 0 ≤ height (before.map Located.value) := by
          by_cases hnil : before = []
          · simp [hnil]
          · exact Int.le_of_lt (ih (List.prefix_refl before) hnil)
        have hback := (List.prefix_append_right_inj before).mp hfront
        cases back with
        | nil =>
            rw [List.append_nil] at hne ⊢
            exact ih (List.prefix_refl before) hne
        | cons token back =>
            obtain ⟨rfl, hinside⟩ := List.cons_prefix_cons.mp hback
            have hnonneg := hafter.height_nonneg _ (hinside.map Located.value)
            simp only [List.map_append, List.map_cons, Token.height_append, Token.height_cons,
              Token.rise_opening]
            omega

/-- While a list is open, its parenthesis is the one that is not closed. -/
theorem blames {top : OpenList} {below : List OpenList} (h : Unclosed (top :: below) used) :
    Blames used ⟨.missingClosingParenthesis, top.span⟩ := by
  have hpositive : ∀ front, front <+: used → front ≠ [] → 0 < height (front.map Located.value) :=
    fun front => h.height_pos
  cases h with
  | cons hbelow hafter =>
      refine .unclosed ?_ ?_ rfl hafter
      · intro span rest hstart
        have hclosing := hpositive [⟨.closing, span⟩] ⟨rest, by rw [hstart]; rfl⟩ (by simp)
        simp at hclosing
      · intro front hfront hcomplete
        have hne : front ≠ [] := by
          rintro rfl
          exact hcomplete.ne_nil rfl
        have hzero := hpositive front hfront hne
        rw [hcomplete.height_eq] at hzero
        exact absurd hzero (Int.lt_irrefl 0)

/-- A complete sequence is an expression of the innermost list, or the whole expression. -/
theorem fits_settle (h : Unclosed stack used) {whole : List (Located Token)}
    (hwhole : Complete (whole.map Located.value)) (tree : Tree) :
    (Progress.settle tree stack).Fits (used ++ whole) := by
  cases h with
  | nil => exact hwhole
  | @cons top below before after hbelow hafter =>
      have hinside : Balanced ((after ++ whole).map Located.value) := by
        rw [List.map_append]
        exact hafter.append hwhole.balanced
      rw [List.append_assoc, List.cons_append]
      show Unclosed ({ top with items := tree :: top.items } :: below) _
      exact .cons hbelow hinside

/-- **What a token can do.** -/
theorem fits_next (h : Unclosed stack used) (token : Located Token) :
    (Progress.next stack (.ok token)).Fits (used ++ [token]) := by
  obtain ⟨token, span⟩ := token
  obtain ⟨rfl, hnext⟩ | ⟨rfl, rfl, hnext⟩ | ⟨tree, below, hcompletes, hnext⟩ :=
    Progress.next_cases stack token span
  all_goals rw [hnext]
  · show Unclosed (⟨span, []⟩ :: stack) _
    exact .cons h .nil
  · exact ⟨span, by rw [h.eq_nil]; rfl, rfl⟩
  · cases hcompletes with
    | atom value =>
        have hatom : Complete ([⟨value.token, span⟩].map Located.value) := .atom value.isParen_token
        exact h.fits_settle hatom _
    | list top =>
        -- the list that is closed and its parentheses are one complete sequence
        cases h with
        | cons hbelow hafter =>
            rw [List.append_assoc, List.cons_append]
            refine hbelow.fits_settle ?_ _
            simpa using Complete.list hafter

end Unclosed

/-! ## Runs of the reader -/

/-- What the reader ends with is right about the tokens: they begin with a complete sequence, and
those after it are left, or the error is what is wrong with them. -/
inductive Judged (tokens : List (Located Token)) :
    Except (Located SyntaxError) Tree × List Item → Prop
  | complete {front rest : List (Located Token)} (tree : Tree) (htokens : tokens = front ++ rest)
      (hfront : Complete (front.map Located.value)) :
      Judged tokens (.ok tree, rest.map Except.ok)
  | blamed {error : Located SyntaxError} {rest : List Item} (hblames : Blames tokens error) :
      Judged tokens (.error error, rest)

/-- **The reader is right about the tokens.** -/
theorem Unclosed.judged {stack : List OpenList} {used : List (Located Token)}
    (h : Unclosed stack used) (tokens : List (Located Token)) :
    Judged (used ++ tokens) (parseWithin stack (tokens.map Except.ok)) := by
  induction tokens generalizing stack used with
  | nil =>
      rw [List.append_nil]
      cases stack with
      | nil =>
          rw [h.eq_nil]
          exact .blamed .nothing
      | cons top below => exact .blamed h.blames
  | cons token tokens ih =>
      have hfits := h.fits_next token
      have hused : used ++ token :: tokens = used ++ [token] ++ tokens := by simp
      rw [List.map_cons, parseWithin_cons, hused]
      cases hnext : Progress.next stack (.ok token) with
      | within after =>
          rw [hnext] at hfits
          exact ih hfits
      | done result =>
          rw [hnext] at hfits
          cases result with
          | ok tree => exact .complete tree rfl hfits
          | error error =>
              obtain ⟨span, hclosing, rfl⟩ := hfits
              rw [hclosing]
              exact .blamed (.closing span tokens)

/-! ## Whole texts -/

theorem exists_located {items : List Item} {tokens : List Token}
    (h : items.map Item.token = tokens.map Except.ok) :
    ∃ located : List (Located Token), items = located.map Except.ok ∧
      located.map Located.value = tokens := by
  induction items generalizing tokens with
  | nil => exact ⟨[], rfl, by simpa using h.symm⟩
  | cons item items ih =>
      obtain ⟨token, tokens, rfl, htoken, htokens⟩ := List.map_eq_cons_iff.mp h.symm
      obtain ⟨span, rfl⟩ := Item.eq_ok_of_token htoken.symm
      obtain ⟨located, rfl, rfl⟩ := ih htokens.symm
      exact ⟨⟨token, span⟩ :: located, rfl, rfl⟩

/-- A text of tokens is read if they are complete, and otherwise what is wrong with them is
reported. -/
theorem parseText_of_tokens {text : String} {tokens : List (Located Token)}
    (hitems : itemsOfText text = tokens.map Except.ok) :
    (Complete (tokens.map Located.value) ∧ ∃ tree, parseText text = .ok tree) ∨
      ∃ error, Blames tokens error ∧ parseText text = .error error := by
  have hjudged := Unclosed.nil.judged tokens
  rw [List.nil_append] at hjudged
  unfold parseText
  rw [hitems]
  generalize parseWithin [] (tokens.map Except.ok) = outcome at hjudged ⊢
  cases hjudged with
  | @complete front rest tree htokens hfront =>
      cases rest with
      | nil =>
          rw [List.append_nil] at htokens
          exact .inl ⟨htokens ▸ hfront, tree, rfl⟩
      | cons next rest => exact .inr ⟨_, .trailing htokens hfront, rfl⟩
  | blamed hblames => exact .inr ⟨_, hblames, rfl⟩

/-- Complete tokens are not to blame. -/
theorem Blames.not_complete {tokens : List (Located Token)} {error : Located SyntaxError}
    (h : Blames tokens error) : ¬ Complete (tokens.map Located.value) := by
  intro hcomplete
  cases h with
  | nothing => exact hcomplete.ne_nil rfl
  | closing span rest => exact not_complete_closing (List.prefix_refl _) hcomplete
  | @trailing _ front rest next htokens hfront =>
      have hsame := eq_of_complete (htokens ▸ List.prefix_append _ _) (List.prefix_refl tokens)
        hfront hcomplete
      simp [hsame] at htokens
  | unclosed _ hincomplete => exact hincomplete tokens (List.prefix_refl tokens) hcomplete

/-- **What the reader accepts, and what it blames.**  A text is read as an expression exactly when
all its items are tokens and these are one complete sequence.  A text of tokens that is not read is
reported with what is wrong with them. -/
theorem parseText_blames (text : String) :
    ((∃ tree, parseText text = .ok tree) ↔
      ∃ tokens : List Token, (itemsOfText text).map Item.token = tokens.map Except.ok ∧
        Complete tokens) ∧
    ∀ tokens : List (Located Token), itemsOfText text = tokens.map Except.ok →
      ∀ error, parseText text = .error error ↔ Blames tokens error := by
  refine ⟨⟨?_, ?_⟩, ?_⟩
  · rintro ⟨tree, htree⟩
    have hitems : (itemsOfText text).map Item.token = tree.sexpr.tokens.map Except.ok :=
      SExpr.readFrom_iff_items.mp ⟨tree, htree, rfl⟩
    obtain ⟨located, hlocated, hvalue⟩ := exists_located hitems
    obtain ⟨hcomplete, -⟩ | ⟨error, -, herror⟩ := parseText_of_tokens hlocated
    · exact ⟨_, hitems, hvalue ▸ hcomplete⟩
    · simp [htree] at herror
  · rintro ⟨tokens, hitems, hcomplete⟩
    obtain ⟨located, hlocated, rfl⟩ := exists_located hitems
    obtain ⟨-, hread⟩ | ⟨error, hblames, -⟩ := parseText_of_tokens hlocated
    · exact hread
    · exact absurd hcomplete hblames.not_complete
  · intro tokens hitems error
    obtain ⟨hcomplete, tree, htree⟩ | ⟨found, hfound, hparse⟩ := parseText_of_tokens hitems
    · refine iff_of_false (by simp [htree]) fun hblames => hblames.not_complete hcomplete
    · rw [hparse, Except.error.injEq]
      constructor
      · rintro rfl
        exact hfound
      · exact hfound.eq

/-- The second parenthesis is closed, so the first one is blamed. -/
theorem parseText_blames_first :
    ∃ span rest, itemsOfText "((a)" = .ok ⟨.opening, span⟩ :: rest ∧
      parseText "((a)" = .error ⟨.missingClosingParenthesis, span⟩ := by
  have hlaid : Laid false [.opening, .opening, .ident "a", .closing] "((a)".toList :=
    .opening (.opening (.word (.ident "a") rfl (.closing (.nil .nil))))
  obtain ⟨tokens, hitems, hvalues⟩ := exists_located (map_token_itemsOfText hlaid (by decide))
  obtain ⟨⟨value, span⟩, rest, rfl, hvalue, hrest⟩ := List.map_eq_cons_iff.mp hvalues
  obtain rfl : value = .opening := hvalue
  have hatom : Complete [.ident "a"] := .atom rfl
  have hafter : Balanced (rest.map Located.value) := by
    rw [hrest]
    exact (Complete.list hatom.balanced).balanced
  have hunclosed : Unclosed [⟨span, []⟩] ([] ++ ⟨.opening, span⟩ :: rest) := .cons .nil hafter
  exact ⟨span, _, hitems, ((parseText_blames "((a)").2 _ hitems _).mpr hunclosed.blames⟩

end SmtSession
