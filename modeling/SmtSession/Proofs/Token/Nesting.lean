import SmtSession.Proofs.Token.Spelling

/-!
# Nesting of tokens

The height of some tokens is how many more lists are open after them than before.
Tokens are balanced if no list is closed among them that was open before, and
none is left open.  A complete sequence of tokens is an atom, or a balanced
sequence between two parentheses.

On the way through a complete sequence the height is positive, and at its end it
is zero.  So no complete sequence is the beginning of another one
(`Complete.eq_of_prefix`).  For the same reason there is at most one opening
parenthesis with only balanced tokens after it (`Balanced.eq_of_append`): this is
the last one that is not closed.
-/

namespace SmtSession.Token

/-- How many more lists are open after the token. -/
def rise : Token → Int
  | .opening => 1
  | .closing => -1
  | _ => 0

/-- How many more lists are open after the tokens. -/
def height : List Token → Int
  | [] => 0
  | token :: tokens => token.rise + height tokens

@[simp] theorem height_nil : height [] = 0 := rfl

@[simp] theorem height_cons (token : Token) (tokens : List Token) :
    height (token :: tokens) = token.rise + height tokens := rfl

@[simp] theorem height_append (tokens more : List Token) :
    height (tokens ++ more) = height tokens + height more := by
  induction tokens with
  | nil => simp
  | cons token tokens ih => rw [List.cons_append, height_cons, ih, height_cons, Int.add_assoc]

@[simp] theorem rise_opening : rise .opening = 1 := rfl

@[simp] theorem rise_closing : rise .closing = -1 := rfl

theorem rise_of_isParen {token : Token} (h : token.isParen = false) : token.rise = 0 := by
  cases token with
  | opening => simp [isParen] at h
  | closing => simp [isParen] at h
  | ident name => rfl
  | keyword name => rfl
  | constant value => rfl

/-! ## Balanced tokens -/

/-- Every parenthesis among the tokens has its partner there. -/
structure Balanced (tokens : List Token) : Prop where
  height_nonneg : ∀ front, front <+: tokens → 0 ≤ height front
  height_eq : height tokens = 0

/-- One atom, or a sequence between parentheses of which the last one closes the first. -/
inductive Complete : List Token → Prop
  | atom {token : Token} : token.isParen = false → Complete [token]
  | list {tokens : List Token} : Balanced tokens → Complete (.opening :: tokens ++ [.closing])

variable {tokens more front : List Token}

namespace Balanced

theorem nil : Balanced [] where
  height_nonneg := fun front hfront => by simp [List.prefix_nil.mp hfront]
  height_eq := rfl

theorem append (h : Balanced tokens) (hmore : Balanced more) : Balanced (tokens ++ more) where
  height_nonneg := fun front hfront => by
    obtain hfirst | ⟨back, rfl⟩ :=
      List.prefix_or_prefix_of_prefix hfront (List.prefix_append tokens more)
    · exact h.height_nonneg front hfirst
    · have hback : back <+: more := (List.prefix_append_right_inj tokens).mp hfront
      rw [height_append, h.height_eq, Int.zero_add]
      exact hmore.height_nonneg back hback
  height_eq := by rw [height_append, h.height_eq, hmore.height_eq, Int.zero_add]

/-- Where two opening parentheses are followed by balanced tokens only, it is the same one. -/
theorem eq_of_append {before after before' after' : List Token} (h : Balanced after)
    (h' : Balanced after') (heq : before ++ .opening :: after = before' ++ .opening :: after') :
    before = before' := by
  -- if one comes before the other, more is opened after it than closed
  have hlater : ∀ {between first last : List Token}, Balanced first → Balanced last →
      first ≠ between ++ .opening :: last := by
    rintro between first last hfirst hlast rfl
    have hnonneg : 0 ≤ height between := hfirst.height_nonneg _ (List.prefix_append _ _)
    have hheight := hfirst.height_eq
    rw [height_append, height_cons, hlast.height_eq, rise_opening] at hheight
    omega
  obtain ⟨between, rfl, hbetween⟩ | ⟨between, rfl, hbetween⟩ := List.append_eq_append_iff.mp heq
  · cases between with
    | nil => rw [List.append_nil]
    | cons token between =>
        obtain ⟨-, rfl⟩ := List.cons_eq_cons.mp hbetween
        exact absurd rfl (hlater h h')
  · cases between with
    | nil => rw [List.append_nil]
    | cons token between =>
        obtain ⟨-, rfl⟩ := List.cons_eq_cons.mp hbetween
        exact absurd rfl (hlater h' h)

end Balanced

/-! ## Complete sequences -/

namespace Complete

theorem ne_nil (h : Complete tokens) : tokens ≠ [] := by
  cases h <;> simp

theorem height_eq (h : Complete tokens) : height tokens = 0 := by
  cases h with
  | atom hatom => simp [rise_of_isParen hatom]
  | list hinner => simp [hinner.height_eq]

/-- Before a complete sequence ends, a list is open. -/
theorem height_pos (h : Complete tokens) (hfront : front <+: tokens) (hne : front ≠ [])
    (hproper : front ≠ tokens) : 0 < height front := by
  cases h with
  | @atom token hatom =>
      have hsingle : front <+: [] ++ [token] := hfront
      obtain hwhole | hnil := List.prefix_concat_iff.mp hsingle
      · exact absurd hwhole hproper
      · exact absurd (List.prefix_nil.mp hnil) hne
  | @list inner hinner =>
      have hbefore := (List.prefix_concat_iff.mp hfront).resolve_left hproper
      obtain ⟨token, front, rfl⟩ := List.exists_cons_of_ne_nil hne
      obtain ⟨rfl, hinside⟩ := List.cons_prefix_cons.mp hbefore
      have hnonneg : 0 ≤ height front := hinner.height_nonneg front hinside
      rw [height_cons, rise_opening]
      omega

/-- **No complete sequence begins another one.** -/
theorem eq_of_prefix (h : Complete tokens) (hfront : Complete front) (hbegins : front <+: tokens) :
    front = tokens := by
  by_contra hproper
  have hpositive : 0 < height front := h.height_pos hbegins hfront.ne_nil hproper
  rw [hfront.height_eq] at hpositive
  exact absurd hpositive (Int.lt_irrefl 0)

theorem balanced (h : Complete tokens) : Balanced tokens where
  height_nonneg := fun front hfront => by
    by_cases hne : front = []
    · simp [hne]
    · by_cases hproper : front = tokens
      · exact Int.le_of_eq (hproper ▸ h.height_eq.symm)
      · exact Int.le_of_lt (h.height_pos hfront hne hproper)
  height_eq := h.height_eq

end Complete

end SmtSession.Token
