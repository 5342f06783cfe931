import SmtSession.Proofs.SExpr.Extent
import SmtSession.Proofs.Token.Written

/-!
# Reading comes to an end

A reader that goes on after every error still comes to the end of its source,
whatever the source is and wherever getting a character fails.  For a call that
returns a token or an error has taken something from the source, and so has an
attempt to read an expression (`reading_ends`).

## Strategy

* **A lexeme is made of what it takes.**  These are its blanks, its characters
  and, if it is the error of a failure, this failure; they make up the source
  together with the rest (`nextLexeme_consumed`).  No element of the source is
  taken twice or left out, so a failure that one scanner comes upon while it
  looks ahead is not met again by the next one.
* **No lexeme is empty.**  A word is read from the character on that told what
  it is, and would be empty if that character belonged to no word.  It does
  belong to one: blanks and comments end at none of their own characters, and
  separators are read apart (`nextLexeme_rest_lt`).
* **Calls in a row.**  If every call takes something, a run of calls takes at
  least one element for each of them (`Reader.Calls.consumes`), so there is a last
  one, and what the calls return is what the source as a whole is read as
  (`Reader.ends_of_consumes`).
-/

namespace SmtSession

/-! ## What a lexeme takes -/

/-- The failure that a lexeme tells of. -/
def Lexeme.failure? (lexeme : Lexeme) : Option Failure :=
  match lexeme.token with
  | .error (.read failure) => some failure
  | _ => none

/-- The elements of the source that a lexeme takes. -/
def Lexeme.consumed (lexeme : Lexeme) : Source :=
  lexeme.taken.map .ok ++ lexeme.failure?.toList.map .error

theorem Token.ofRadix_ne_read (word : List Char) (failure : Failure) :
    Token.ofRadix word ≠ .error (.read failure) := by
  unfold Token.ofRadix
  repeat' split
  all_goals simp

theorem Token.ofNumber_ne_read (word : List Char) (failure : Failure) :
    Token.ofNumber word ≠ .error (.read failure) := by
  unfold Token.ofNumber
  dsimp only
  repeat' split
  all_goals simp

namespace Lexeme

/-- A word takes its characters, and a failure that comes right after it. -/
theorem consumed_ofWord {word : List Char} {read : Except SyntaxError Token} {rest : Source}
    (hread : ∀ failure, read ≠ .error (.read failure)) :
    (ofWord word read rest).consumed ++ (ofWord word read rest).rest = word.map .ok ++ rest := by
  unfold ofWord
  split
  · simp [consumed, taken, failure?]
  · have hfailure : (Lexeme.mk [] word read rest).failure? = none := by
      unfold failure?
      split
      · next failure hfailure => exact absurd hfailure (hread failure)
      · rfl
    simp [consumed, hfailure, taken]

theorem consumed_ofBars (source : Source) :
    (ofBars source).consumed ++ (ofBars source).rest = .ok '|' :: source := by
  have hsource := source.map_takeChars_append_dropChars (· != '|')
  unfold ofBars
  cases hdrop : source.dropChars (· != '|') with
  | nil => simpa [consumed, taken, failure?, hdrop] using hsource
  | cons element rest =>
      cases element with
      | error failure => simpa [consumed, taken, failure?, hdrop] using hsource
      | ok d =>
          have hhalts : (source.dropChars (· != '|')).halts (· != '|') :=
            Source.halts_dropChars (by simp [hdrop])
          have hd : d = '|' := by simpa [hdrop, Source.halts] using hhalts
          subst hd
          simpa [consumed, taken, failure?, hdrop] using hsource

end Lexeme

/-- What ends the body of a string in the source. -/
def StringTail.stop (tail : StringTail) : Source :=
  match tail.closed with
  | .ok () => [.ok '"']
  | .error (.read failure) => [.error failure]
  | .error _ => []

theorem StringTail.consumed_find (escaped : Bool) (source : Source) :
    (find escaped source).body.map .ok ++ (find escaped source).stop ++
      (find escaped source).rest = source := by
  fun_induction find escaped source with
  | case1 escaped => rfl
  | case2 escaped failure rest => rfl
  | case3 rest c ih => simpa [cons, stop] using ih
  | case4 escaped rest hescaped ih => simpa [cons, stop] using ih
  | case5 escaped hescaped => rfl
  | case6 escaped hescaped failure rest => rfl
  | case7 escaped hescaped rest _ ih => simpa [cons, stop] using ih
  | case8 escaped hescaped d rest hquote => rfl
  | case9 escaped rest c hescaped hbackslash hquote ih => simpa [cons, stop] using ih

namespace Lexeme

theorem consumed_ofQuote (source : Source) :
    (ofQuote source).consumed ++ (ofQuote source).rest = .ok '"' :: source := by
  have hfind := StringTail.consumed_find false source
  unfold ofQuote
  generalize StringTail.find false source = tail at hfind
  obtain ⟨body, closed, rest⟩ := tail
  cases closed with
  | ok closed => simpa [StringTail.stop, consumed, taken, failure?] using hfind
  | error error =>
      cases error <;> simpa [StringTail.stop, consumed, taken, failure?] using hfind

theorem consumed_ofRadix (source : Source) :
    (ofRadix source).consumed ++ (ofRadix source).rest = .ok '#' :: source := by
  rw [ofRadix, consumed_ofWord (Token.ofRadix_ne_read _), List.map_cons, List.cons_append,
    source.map_takeChars_append_dropChars]

theorem consumed_starting (c : Char) (source : Source) :
    (starting c source).consumed ++ (starting c source).rest = .ok c :: source := by
  have hword {read : Except SyntaxError Token} (hread : ∀ failure, read ≠ .error (.read failure)) :
      let word := Source.takeChars isWordChar (.ok c :: source)
      let after := Source.dropChars isWordChar (.ok c :: source)
      (ofWord word read after).consumed ++ (ofWord word read after).rest = .ok c :: source := by
    dsimp only
    rw [consumed_ofWord hread, Source.map_takeChars_append_dropChars]
  unfold starting
  dsimp only
  split_ifs with hopening hclosing hquote hbar hradix hcolon hdigit
  · rfl
  · rfl
  · subst hquote
    exact consumed_ofQuote source
  · subst hbar
    exact consumed_ofBars source
  · subst hradix
    exact consumed_ofRadix source
  · exact hword (by simp)
  · exact hword (Token.ofNumber_ne_read _)
  · exact hword (by simp)

end Lexeme

/-- **A lexeme and the rest make up the source.** -/
theorem nextLexeme_consumed {source : Source} {lexeme : Lexeme}
    (h : nextLexeme source = some lexeme) : source = lexeme.consumed ++ lexeme.rest := by
  have hblanks := source.map_splitBlanks_append false
  unfold nextLexeme at h
  rcases hsplit : source.splitBlanks false with ⟨blanks, rest⟩
  rw [hsplit] at h hblanks
  subst hblanks
  cases rest with
  | nil => cases h
  | cons element rest =>
      cases element with
      | error failure =>
          cases h
          simp [Lexeme.consumed, Lexeme.taken, Lexeme.failure?]
      | ok c =>
          cases h
          have hconsumed : ({ Lexeme.starting c rest with blanks } : Lexeme).consumed =
              blanks.map .ok ++ (Lexeme.starting c rest).consumed := by
            simp [Lexeme.consumed, Lexeme.taken, Lexeme.failure?, Lexeme.blanks_starting]
          rw [hconsumed, List.append_assoc, Lexeme.consumed_starting]

theorem consumed_ne_nil {source : Source} {lexeme : Lexeme}
    (h : nextLexeme source = some lexeme) : lexeme.consumed ≠ [] := by
  intro hnil
  have hlt := nextLexeme_rest_lt h
  rw [nextLexeme_consumed h, hnil] at hlt
  exact Nat.lt_irrefl _ hlt

/-! ## Calls -/

/-- Where a reader stands in its source. -/
structure Reader where
  source : Source
  cursor : Cursor

namespace Reader

/-- The reader that has taken nothing. -/
def opened (source : Source) (start : Position) : Reader :=
  ⟨source, .reset start⟩

/-- The next token or error, unless the source is at its end. -/
def next? (reader : Reader) : Option (Item × Reader) :=
  match nextLexeme reader.source with
  | none => none
  | some lexeme =>
    let cursor := reader.cursor.past lexeme
    some (lexeme.item cursor.span, ⟨lexeme.rest, cursor⟩)

section Calls

variable {α : Type} {call? : Reader → Option (α × Reader)}

/-- Calls in a row that have returned something. -/
inductive Calls (call? : Reader → Option (α × Reader)) : Reader → List α → Reader → Prop
  | nil {reader : Reader} : Calls call? reader [] reader
  | cons {reader after last : Reader} {value : α} {values : List α}
      (hcall : call? reader = some (value, after)) (hcalls : Calls call? after values last) :
      Calls call? reader (value :: values) last

/-- Every call that returns something takes something from the source. -/
def Consumes (call? : Reader → Option (α × Reader)) : Prop :=
  ∀ {reader value after}, call? reader = some (value, after) →
    ∃ taken, taken ≠ [] ∧ reader.source = taken ++ after.source

/-- What the source is read as, call by call. -/
structure Reads (call? : Reader → Option (α × Reader)) (outputs : Reader → List α) : Prop where
  ended : ∀ {reader}, call? reader = none → outputs reader = []
  returned : ∀ {reader value after}, call? reader = some (value, after) →
    outputs reader = value :: outputs after

/-- Calls take at least one element each. -/
theorem Calls.consumes (hconsumes : Consumes call?) {reader last : Reader} {values : List α}
    (h : Calls call? reader values last) :
    ∃ taken, reader.source = taken ++ last.source ∧ values.length ≤ taken.length := by
  induction h with
  | nil => exact ⟨[], rfl, Nat.le_refl 0⟩
  | cons hcall _ ih =>
      obtain ⟨first, hfirst, hsource⟩ := hconsumes hcall
      obtain ⟨taken, hrest, hlength⟩ := ih
      refine ⟨first ++ taken, ?_, ?_⟩
      · rw [hsource, hrest, List.append_assoc]
      · have hpos : 0 < first.length := List.length_pos_iff.mpr hfirst
        rw [List.length_cons, List.length_append]
        omega

theorem Consumes.length_lt (hconsumes : Consumes call?) {reader after : Reader} {value : α}
    (hcall : call? reader = some (value, after)) :
    after.source.length < reader.source.length := by
  obtain ⟨taken, htaken, hsource⟩ := hconsumes hcall
  have hpos : 0 < taken.length := List.length_pos_iff.mpr htaken
  rw [hsource, List.length_append]
  omega

/-- **If every call takes something, calls come to an end.** -/
theorem exists_calls (hconsumes : Consumes call?) {outputs : Reader → List α}
    (hreads : Reads call? outputs) (reader : Reader) :
    ∃ last, Calls call? reader (outputs reader) last ∧ call? last = none := by
  induction hlength : reader.source.length using Nat.strongRecOn generalizing reader with
  | ind length ih =>
      cases hcall : call? reader with
      | none =>
          rw [hreads.ended hcall]
          exact ⟨reader, .nil, hcall⟩
      | some result =>
          obtain ⟨value, after⟩ := result
          have hlt : after.source.length < length := hlength ▸ hconsumes.length_lt hcall
          obtain ⟨last, hcalls, hlast⟩ := ih _ hlt after rfl
          rw [hreads.returned hcall]
          exact ⟨last, .cons hcall hcalls, hlast⟩

/-- The calls of a reader come to an end, having returned the given values. -/
structure Ends (call? : Reader → Option (α × Reader)) (reader : Reader) (values : List α) :
    Prop where
  /-- Going on after every value, the calls return these ones and then nothing. -/
  ended : ∃ last, Calls call? reader values last ∧ call? last = none
  /-- Each call that returns something takes something from the source. -/
  takes : ∀ {seen between value after}, Calls call? reader seen between →
    call? between = some (value, after) →
      ∃ taken, taken ≠ [] ∧ between.source = taken ++ after.source
  /-- No more calls return something than the source has elements. -/
  bounded : ∀ {seen between}, Calls call? reader seen between →
    seen.length ≤ reader.source.length

theorem ends_of_consumes (hconsumes : Consumes call?) {outputs : Reader → List α}
    (hreads : Reads call? outputs) (reader : Reader) :
    Ends call? reader (outputs reader) where
  ended := exists_calls hconsumes hreads reader
  takes _ hcall := hconsumes hcall
  bounded h := by
    obtain ⟨taken, hsource, hlength⟩ := h.consumes hconsumes
    rw [hsource, List.length_append]
    omega

end Calls

/-! ## Tokens -/

/-- The tokens and errors that are left. -/
def remaining (reader : Reader) : List Item :=
  place reader.cursor (lexemes reader.source)

theorem consumes_next? : Consumes next? := by
  intro reader item after h
  unfold next? at h
  cases hnext : nextLexeme reader.source with
  | none => simp [hnext] at h
  | some lexeme =>
      rw [hnext] at h
      cases h
      exact ⟨lexeme.consumed, consumed_ne_nil hnext, nextLexeme_consumed hnext⟩

theorem reads_next? : Reads next? remaining where
  ended {reader} h := by
    unfold next? at h
    cases hnext : nextLexeme reader.source with
    | none => rw [remaining, lexemes_eq, hnext]; rfl
    | some lexeme => simp [hnext] at h
  returned {reader item after} h := by
    unfold next? at h
    cases hnext : nextLexeme reader.source with
    | none => simp [hnext] at h
    | some lexeme =>
        rw [hnext] at h
        cases h
        rw [remaining, lexemes_eq, hnext]
        rfl

/-! ## Expressions -/

/-- Reads one expression while the given lists are open, asking for one item after the other. -/
def readWithin (stack : List OpenList) (reader : Reader) :
    Except (Located SyntaxError) Tree × Reader :=
  match _ : reader.next? with
  | none => (.error (Progress.unfinished stack), reader)
  | some (item, after) =>
    match Progress.next stack item with
    | .within stack => readWithin stack after
    | .done result => (result, after)
termination_by reader.source.length
decreasing_by exact consumes_next?.length_lt ‹_›

/-- Reads the next expression, unless the source is at its end. -/
def attempt? (reader : Reader) : Option (Except (Located SyntaxError) Tree × Reader) :=
  match reader.next? with
  | none => none
  | some _ => some (reader.readWithin [])

/-- Asking for the items that are needed leads to the same as having all of them. -/
theorem readWithin_spec (stack : List OpenList) (reader : Reader) :
    parseWithin stack reader.remaining =
        ((readWithin stack reader).1, (readWithin stack reader).2.remaining) ∧
      ∃ taken, (reader.next?.isSome → taken ≠ []) ∧
        reader.source = taken ++ (readWithin stack reader).2.source := by
  fun_induction readWithin stack reader with
  | case1 stack reader hnext =>
      rw [reads_next?.ended hnext]
      exact ⟨rfl, [], by simp [hnext], rfl⟩
  | case2 stack reader item after hnext more hprogress ih =>
      obtain ⟨hparse, taken, -, hsource⟩ := ih
      obtain ⟨first, hne, hfirst⟩ := consumes_next? hnext
      rw [reads_next?.returned hnext, parseWithin_cons, hprogress]
      exact ⟨hparse, first ++ taken, fun _ => by simp [hne],
        by rw [hfirst, hsource, List.append_assoc]⟩
  | case3 stack reader item after hnext result hprogress =>
      obtain ⟨first, hne, hfirst⟩ := consumes_next? hnext
      rw [reads_next?.returned hnext, parseWithin_cons, hprogress]
      exact ⟨rfl, first, fun _ => hne, hfirst⟩

/-- An attempt is made unless the source is at its end. -/
theorem attempt?_eq_some_iff {reader after : Reader} {result : Except (Located SyntaxError) Tree} :
    reader.attempt? = some (result, after) ↔
      reader.next?.isSome ∧ reader.readWithin [] = (result, after) := by
  unfold attempt?
  cases reader.next? <;> simp

theorem consumes_attempt? : Consumes attempt? := by
  intro reader result after h
  obtain ⟨hsome, hread⟩ := attempt?_eq_some_iff.mp h
  obtain ⟨-, taken, htaken, hsource⟩ := readWithin_spec [] reader
  rw [hread] at hsource
  exact ⟨taken, htaken hsome, hsource⟩

theorem reads_attempt? : Reads attempt? fun reader => parseEach reader.remaining where
  ended {reader} h := by
    have hnext : reader.next? = none := by
      unfold attempt? at h
      cases hnext : reader.next? with
      | none => rfl
      | some returned => simp [hnext] at h
    rw [reads_next?.ended hnext, parseEach]
  returned {reader result after} h := by
    obtain ⟨hsome, hread⟩ := attempt?_eq_some_iff.mp h
    obtain ⟨⟨item, next⟩, hnext⟩ := Option.isSome_iff_exists.mp hsome
    have hparse := (readWithin_spec [] reader).1
    rw [hread, reads_next?.returned hnext] at hparse
    rw [reads_next?.returned hnext, parseEach, hparse]

end Reader

/-- **Reading comes to an end.**  Whatever the characters and failures of a source are, the calls
that ask for one item after the other return the tokens and errors of the source and then nothing.
Each of them takes at least one element of the source, so there are at most as many as there are
elements.  The same holds for the attempts to read one expression after the other. -/
theorem reading_ends (source : Source) (start : Position) :
    Reader.Ends Reader.next? (.opened source start) (items source start) ∧
      Reader.Ends Reader.attempt? (.opened source start) (parseEach (items source start)) :=
  ⟨Reader.ends_of_consumes Reader.consumes_next? Reader.reads_next? (.opened source start),
    Reader.ends_of_consumes Reader.consumes_attempt? Reader.reads_attempt? (.opened source start)⟩

end SmtSession
