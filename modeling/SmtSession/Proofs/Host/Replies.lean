import Mathlib.Data.List.Induction
import Mathlib.Data.List.Infix
import SmtSession.Proofs.Host.Framing

/-!
# Where replies end

Any stream of characters is cut into replies without loss: the replies and the
blanks that are left make up the stream, and each reply but the last one is the
shortest beginning of what is left whose line break ends a reply
(`exists_partition`).  Where a reply may end is said by counting the characters
outside strings and bars (`EndsReply`), for well-formed and malformed streams
alike.

## Strategy

What the reader of replies knows after some characters is the region in which it
is and two counts (`Balance.after_eq`).  So a line break ends the reply exactly
where `EndsReply` says so, and a reply is read up to the first such line break,
or to the end of the stream if there is none.
-/

namespace SmtSession

open Text (isBlank)

/-- A line break after these characters ends a reply: it stands outside strings and bars, there is
something before it, and no parenthesis is open. -/
structure EndsReply (front : List Char) : Prop where
  outside : Region.plain.through front = .plain
  content : ∃ c ∈ front, isBlank c = false
  closed : (plainChars .plain front).count '(' ≤ (plainChars .plain front).count ')'

/-- None of the line breaks ends a reply. -/
def Unbroken (chars : List Char) : Prop :=
  ∀ front, front ++ ['\n'] <+: chars → ¬ EndsReply front

/-! ## The count after some characters -/

theorem plainChars_concat (region : Region) (chars : List Char) (c : Char) :
    plainChars region (chars ++ [c]) =
      plainChars region chars ++ if region.through chars = .plain then [c] else [] := by
  rw [plainChars_append]
  rfl

/-- The first character that is no blank stands outside strings and bars. -/
theorem any_plainChars (chars : List Char) :
    (plainChars .plain chars).any (!isBlank ·) = chars.any (!isBlank ·) := by
  induction chars with
  | nil => rfl
  | cons c chars ih =>
      rw [plainChars, if_pos rfl, List.any_cons, List.any_cons]
      cases hblank : isBlank c with
      | true => rw [Region.next_plain (isSeparator_eq_false_of_isBlank hblank), ih]
      | false => rfl

namespace Balance

/-- The count after some characters. -/
def after (balance : Balance) (chars : List Char) : Balance :=
  chars.foldl next balance

/-- The count in a region. -/
def inRegion (region : Region) (depth : Int) (content : Bool) : Balance where
  depth := depth
  string := region = .string || region = .escaped
  escaped := region = .escaped
  quoted := region = .bars
  content := content

/-- How many more parentheses the characters open than close. -/
def excess (chars : List Char) : Int :=
  chars.count '(' - chars.count ')'

@[simp] theorem excess_nil : excess [] = 0 := rfl

@[simp] theorem excess_append (chars more : List Char) :
    excess (chars ++ more) = excess chars + excess more := by
  simp only [excess, List.count_append]
  omega

theorem next_plain (depth : Int) (content : Bool) (c : Char) :
    (inRegion .plain depth content).next c =
      inRegion (Region.plain.next c) (depth + excess [c]) (content || !isBlank c) := by
  by_cases hseparator : c = '(' ∨ c = ')' ∨ c = '"' ∨ c = '|'
  · have hcontent : !isBlank c := by rcases hseparator with rfl | rfl | rfl | rfl <;> rfl
    rw [hcontent, Bool.or_true]
    rcases hseparator with rfl | rfl | rfl | rfl <;> simp [next, inRegion, Region.next, excess]
    all_goals rfl
  · simp only [not_or] at hseparator
    cases hblank : isBlank c <;>
      simp [next, inRegion, Region.next, excess, hseparator, hblank, Ne.symm]

/-- In strings and between bars only the region changes. -/
theorem next_inside {region : Region} (hregion : region ≠ .plain) (depth : Int) (content : Bool)
    (c : Char) :
    (inRegion region depth content).next c = inRegion (region.next c) depth content := by
  cases region with
  | plain => exact absurd rfl hregion
  | string =>
      by_cases hbackslash : c = '\\'
      · simp [next, inRegion, Region.next, hbackslash]
      · by_cases hquote : c = '"' <;> simp [next, inRegion, Region.next, hbackslash, hquote]
  | escaped => simp [next, inRegion, Region.next]
  | bars => by_cases hbar : c = '|' <;> simp [next, inRegion, Region.next, hbar]

/-- **What is known after some characters** is where they end, and what stands outside in them. -/
theorem after_eq (chars : List Char) :
    ({} : Balance).after chars =
      inRegion (Region.plain.through chars) (excess (plainChars .plain chars))
        ((plainChars .plain chars).any (!isBlank ·)) := by
  induction chars using List.reverseRecOn with
  | nil => rfl
  | append_singleton chars c ih =>
      rw [after, List.foldl_append, List.foldl_cons, List.foldl_nil, ← after, ih,
        plainChars_concat, Region.through_append, Region.through_cons, Region.through_nil]
      split
      · next hplain => simp [hplain, next_plain]
      · next hinside => simp [next_inside hinside]

/-- Only a line break ends the reply, and only where the characters before it allow it. -/
theorem endsWith_after {front : List Char} {c : Char} :
    (({} : Balance).after front).endsWith c = true ↔ c = '\n' ∧ EndsReply front := by
  have hclosed : excess (plainChars .plain front) ≤ 0 ↔
      (plainChars .plain front).count '(' ≤ (plainChars .plain front).count ')' := by
    rw [excess]
    omega
  have hcontent : front.any (!isBlank ·) = true ↔ ∃ c ∈ front, isBlank c = false := by simp
  rw [after_eq, any_plainChars]
  simp only [endsWith, inRegion, Bool.and_eq_true, beq_iff_eq, decide_eq_true_eq, hclosed,
    hcontent]
  cases hregion : Region.plain.through front with
  | plain =>
      simp only [reduceCtorEq, decide_false, Bool.or_false, Bool.not_false, and_true]
      constructor
      · rintro ⟨⟨hline, hcontent⟩, hclosed⟩
        exact ⟨hline, hregion, hcontent, hclosed⟩
      · rintro ⟨hline, -, hcontent, hclosed⟩
        exact ⟨⟨hline, hcontent⟩, hclosed⟩
  | string => simp; exact fun _ hends => absurd hends.outside (by simp [hregion])
  | escaped => simp; exact fun _ hends => absurd hends.outside (by simp [hregion])
  | bars => simp; exact fun _ hends => absurd hends.outside (by simp [hregion])

end Balance

instance (front : List Char) : Decidable (EndsReply front) :=
  decidable_of_iff (({} : Balance).after front |>.endsWith '\n')
    (Balance.endsWith_after.trans (and_iff_right rfl))

instance (chars : List Char) : Decidable (Unbroken chars) :=
  decidable_of_iff (∀ front ∈ chars.inits, front ++ ['\n'] <+: chars → ¬ EndsReply front)
    ⟨fun h front hfront => h front
        ((List.mem_inits front chars).mpr ((List.prefix_append _ _).trans hfront)) hfront,
      fun h front _ => h front⟩

/-! ## Up to the end of a reply -/

namespace Unbroken

variable {chars front : List Char}

theorem of_prefix (h : Unbroken chars) (hfront : front <+: chars) : Unbroken front :=
  fun shorter hshorter => h shorter (hshorter.trans hfront)

theorem concat (h : Unbroken chars) {c : Char} (hc : ¬ (c = '\n' ∧ EndsReply chars)) :
    Unbroken (chars ++ [c]) := by
  intro front hfront hends
  obtain hwhole | hbefore := List.prefix_concat_iff.mp hfront
  · obtain ⟨rfl, hline⟩ := List.append_inj' hwhole rfl
    exact hc ⟨(List.cons_eq_cons.mp hline).1.symm, hends⟩
  · exact h front hbefore hends

/-- Characters without the end of a reply are passed. -/
theorem passes (h : Unbroken chars) : Balance.Passes {} chars (({} : Balance).after chars) := by
  induction chars using List.reverseRecOn with
  | nil => exact .nil
  | append_singleton chars c ih =>
      have hbefore : Unbroken chars := h.of_prefix (List.prefix_append _ _)
      have hend : (({} : Balance).after chars).endsWith c = false := by
        rw [Bool.eq_false_iff]
        intro hend
        obtain ⟨rfl, hends⟩ := Balance.endsWith_after.mp hend
        exact h chars (List.prefix_refl _) hends
      rw [Balance.after, List.foldl_append]
      exact (ih hbefore).append (.cons hend .nil)

theorem readReply (h : Unbroken chars) (rest : Source) :
    readReply (chars.map Except.ok ++ rest) =
      readRest (({} : Balance).after chars) chars.reverse rest := by
  have hread := h.passes.readRest [] rest
  rw [List.append_nil] at hread
  exact hread

/-- A reply goes up to the first line break that ends one. -/
theorem readReply_line (h : Unbroken front) (hends : EndsReply front) (rest : Source) :
    SmtSession.readReply (front.map Except.ok ++ .ok '\n' :: rest) =
      (.ok (String.ofList (front ++ ['\n'])), rest) := by
  rw [h.readReply, readRest, if_pos (Balance.endsWith_after.mpr ⟨rfl, hends⟩), List.reverse_cons,
    List.reverse_reverse]

/-- If there is none, it goes up to the end. -/
theorem readReply_end (h : Unbroken chars) (hcontent : ∃ c ∈ chars, isBlank c = false) :
    SmtSession.readReply (chars.map Except.ok) = (.ok (String.ofList chars), []) := by
  have hread := h.readReply []
  rw [List.append_nil] at hread
  rw [hread, readRest, if_neg (by simpa using hcontent), List.reverse_reverse]

end Unbroken

/-- In blanks no reply is found. -/
theorem readReply_blank {chars : List Char} (h : ∀ c ∈ chars, isBlank c) :
    readReply (chars.map Except.ok) = (.error closedOutput, []) := by
  have hunbroken : Unbroken chars := by
    intro front hfront hends
    obtain ⟨c, hc, hcontent⟩ := hends.content
    have hblank := h c (hfront.subset (List.mem_append_left _ hc))
    simp [hblank] at hcontent
  have hread := hunbroken.readReply []
  rw [List.append_nil] at hread
  rw [hread, readRest, if_pos (by simpa using h)]

/-- If a line break ends a reply, there is a first one that does. -/
theorem unbroken_or_exists (chars : List Char) :
    Unbroken chars ∨
      ∃ front rest, chars = front ++ '\n' :: rest ∧ Unbroken front ∧ EndsReply front := by
  induction chars using List.reverseRecOn with
  | nil => exact .inl fun front hfront => by simp at hfront
  | append_singleton chars c ih =>
      obtain hunbroken | ⟨front, rest, rfl, hfront, hends⟩ := ih
      · by_cases hc : c = '\n' ∧ EndsReply chars
        · exact .inr ⟨chars, [], by rw [hc.1], hunbroken, hc.2⟩
        · exact .inl (hunbroken.concat hc)
      · exact .inr ⟨front, rest ++ [c], by simp, hfront, hends⟩

/-! ## One reply after the other -/

/-- The replies that are read from a source one after the other, and the failure at which this
ends. -/
inductive Yields : Source → List String → Failure → Prop
  | stop {source after : Source} {failure : Failure} :
      readReply source = (.error failure, after) → Yields source [] failure
  | reply {source after : Source} {reply : String} {replies : List String} {failure : Failure} :
      readReply source = (.ok reply, after) → Yields after replies failure →
        Yields source (reply :: replies) failure

/-- The reply is the shortest beginning of the stream whose line break ends a reply. -/
structure ClosedReply (stream reply : List Char) : Prop where
  begins : reply <+: stream
  ends : ∃ front, reply = front ++ ['\n'] ∧ EndsReply front
  shortest : ∀ front, front ++ ['\n'] <+: stream → EndsReply front →
    reply.length ≤ (front ++ ['\n']).length

/-- The stream is made up of the replies and what is left, and every reply is where it should
be. -/
structure Partition (stream : List Char) (replies : List String) (left : List Char) : Prop where
  append_eq : replies.flatMap String.toList ++ left = stream
  left_blank : ∀ c ∈ left, isBlank c
  content : ∀ reply ∈ replies, ∃ c ∈ reply.toList, isBlank c = false
  line : ∀ reply ∈ replies.dropLast, ∃ front, reply.toList = front ++ ['\n']
  /-- A reply is closed, or it is the last one and all that there is. -/
  closed : ∀ before reply after, replies = before ++ reply :: after →
    ClosedReply ((reply :: after).flatMap String.toList ++ left) reply.toList ∨
      after = [] ∧ left = [] ∧ Unbroken reply.toList

theorem Unbroken.closedReply {front rest : List Char} (h : Unbroken front)
    (hends : EndsReply front) : ClosedReply (front ++ '\n' :: rest) (front ++ ['\n']) where
  begins := ⟨rest, by simp⟩
  ends := ⟨front, rfl, hends⟩
  shortest := by
    intro shorter hshorter hshorterEnds
    by_contra hlength
    rw [not_le] at hlength
    have hwithin : (shorter ++ ['\n']).length ≤ front.length := by
      rw [List.length_append, List.length_append, List.length_singleton] at hlength
      rw [List.length_append, List.length_singleton]
      omega
    have hbegins : shorter ++ ['\n'] <+: front :=
      List.prefix_of_prefix_length_le hshorter (List.prefix_append _ _) hwithin
    exact h shorter hbegins hshorterEnds

namespace Partition

theorem blank {left : List Char} (h : ∀ c ∈ left, isBlank c) : Partition left [] left where
  append_eq := rfl
  left_blank := h
  content := by simp
  line := by simp
  closed := by simp

/-- The stream ends before its only reply is closed. -/
theorem single {chars : List Char} (h : Unbroken chars)
    (hcontent : ∃ c ∈ chars, isBlank c = false) : Partition chars [String.ofList chars] [] where
  append_eq := by simp
  left_blank := by simp
  content := by simpa using hcontent
  line := by simp
  closed := by
    intro before reply after hreplies
    cases before with
    | nil =>
        obtain ⟨rfl, rfl⟩ := List.cons_eq_cons.mp hreplies
        exact .inr ⟨rfl, rfl, by simpa using h⟩
    | cons first before => simp at hreplies

/-- A closed reply comes first. -/
theorem cons {front rest left : List Char} {replies : List String} (h : Partition rest replies left)
    (hfront : Unbroken front) (hends : EndsReply front) :
    Partition (front ++ '\n' :: rest) (String.ofList (front ++ ['\n']) :: replies) left where
  append_eq := by simp [h.append_eq]
  left_blank := h.left_blank
  content := by
    obtain ⟨c, hc, hcontent⟩ := hends.content
    refine List.forall_mem_cons.mpr ⟨⟨c, by simp [hc], hcontent⟩, h.content⟩
  line := by
    intro reply hreply
    cases replies with
    | nil => simp at hreply
    | cons next replies =>
        rw [List.dropLast_cons_cons, List.mem_cons] at hreply
        rcases hreply with rfl | hreply
        · exact ⟨front, String.toList_ofList⟩
        · exact h.line reply hreply
  closed := by
    intro before reply after hreplies
    cases before with
    | nil =>
        obtain ⟨rfl, rfl⟩ := List.cons_eq_cons.mp hreplies
        left
        simpa [h.append_eq] using hfront.closedReply hends
    | cons first before =>
        obtain ⟨-, rfl⟩ := List.cons_eq_cons.mp hreplies
        exact h.closed before reply after rfl

end Partition

/-- **Cutting a stream into replies loses and repeats nothing.**  From every stream of characters
finitely many replies are read, and then the end of the stream is reported.  The replies and blanks
that are left make up the stream.  Every reply has something in it, all but the last end with a
line break, and each is the shortest beginning of what is left that a line break may end, unless it
is all that is left and no line break may end it. -/
theorem exists_partition (stream : List Char) :
    ∃ replies left, Yields (stream.map Except.ok) replies closedOutput ∧
      Partition stream replies left := by
  induction hlength : stream.length using Nat.strong_induction_on generalizing stream with
  | _ length ih =>
      obtain hunbroken | ⟨front, rest, rfl, hfront, hends⟩ := unbroken_or_exists stream
      · by_cases hcontent : ∃ c ∈ stream, isBlank c = false
        · exact ⟨_, [], .reply (hunbroken.readReply_end hcontent) (.stop rfl),
            .single hunbroken hcontent⟩
        · have hblank : ∀ c ∈ stream, isBlank c := by simpa using hcontent
          exact ⟨[], stream, .stop (readReply_blank hblank), .blank hblank⟩
      · have hshorter : rest.length < length := by
          rw [← hlength, List.length_append, List.length_cons]
          omega
        obtain ⟨replies, left, hyields, hpartition⟩ := ih rest.length hshorter rest rfl
        refine ⟨_, left, .reply ?_ hyields, hpartition.cons hfront hends⟩
        rw [List.map_append, List.map_cons]
        exact hfront.readReply_line hends _

end SmtSession
