import SelectRouting.Proofs.Agreement

/-!
# Tokens by their numbers

Two texts are compared token by token, whatever the offsets of the tokens: tokens have the same number
(`Token.SameNumber`), and places are the same where tokens of the same number begin or end
(`SamePlace`). The tokens of a text stand in the order of their numbers, so places are in the same order
in texts of equally many tokens (`SamePlace.le_iff`).
-/

namespace SelectRouting

namespace Token
variable {text : String} {i j : Nat} {token other : Token}

theorem tokenize_pairwise (text : String) :
    (tokenize text).Pairwise fun first second => first.span.stop ≤ second.start := by
  refine List.pairwise_append.mpr ⟨(tiles_list text).pairwise, List.pairwise_singleton _ _, ?_⟩
  intro token member last isLast
  obtain rfl := List.mem_singleton.mp isLast
  obtain ⟨before, after, split, start⟩ := (tiles_list text).within token member
  have size := congrArg Text.width split
  rw [Text.width_append, Text.width_append, Text.width_toList, Text.width_toList] at size
  change token.start + token.lexeme.utf8ByteSize ≤ text.utf8ByteSize
  omega

theorem getElem?_tokenize (inside : i < (list text).length) :
    (tokenize text)[i]? = some (list text)[i] := by
  rw [tokenize, List.getElem?_append_left inside, List.getElem?_eq_getElem inside]

/-- A token before the end of the input is one of the text. -/
theorem mem_list_of_tokenize (found : (tokenize text)[i]? = some token)
    (inside : i < (list text).length) : token ∈ list text := by
  rw [tokenize, List.getElem?_append_left inside] at found
  exact List.mem_of_getElem? found

theorem lt_length_tokenize (found : (tokenize text)[i]? = some token) :
    i ≤ (list text).length := by
  have inside := (List.getElem?_eq_some_iff.mp found).1
  simpa [tokenize, Nat.lt_succ_iff] using inside

theorem stop_le_start_of_lt (found : (tokenize text)[i]? = some token)
    (foundOther : (tokenize text)[j]? = some other) (before : i < j) :
    token.span.stop ≤ other.start := by
  obtain ⟨_, rfl⟩ := List.getElem?_eq_some_iff.mp found
  obtain ⟨_, rfl⟩ := List.getElem?_eq_some_iff.mp foundOther
  exact List.pairwise_iff_getElem.mp (tokenize_pairwise text) i j _ _ before

theorem start_lt_start_of_lt (found : (tokenize text)[i]? = some token)
    (foundOther : (tokenize text)[j]? = some other) (before : i < j) : token.start < other.start := by
  have inside := Nat.lt_of_lt_of_le before (lt_length_tokenize foundOther)
  have member := mem_list_of_tokenize found inside
  have apart := stop_le_start_of_lt found foundOther before
  exact Nat.lt_of_lt_of_le (areLexed_list text token member).start_lt_stop apart

/-- The tokens begin in the order of their numbers. -/
theorem start_le_start_iff (found : (tokenize text)[i]? = some token)
    (foundOther : (tokenize text)[j]? = some other) : token.start ≤ other.start ↔ i ≤ j := by
  constructor
  · intro before
    apply Nat.le_of_not_lt
    intro behind
    have := start_lt_start_of_lt foundOther found behind
    omega
  · intro before
    rcases Nat.lt_or_eq_of_le before with before | rfl
    · exact Nat.le_of_lt (start_lt_start_of_lt found foundOther before)
    · exact Nat.le_of_eq (congrArg start (Option.some.inj (found.symm.trans foundOther)))

/-- Tokens that begin at the same place have the same number. -/
theorem number_eq (found : (tokenize text)[i]? = some token)
    (foundOther : (tokenize text)[j]? = some other) (same : token.start = other.start) : i = j :=
  Nat.le_antisymm ((start_le_start_iff found foundOther).mp (Nat.le_of_eq same))
    ((start_le_start_iff foundOther found).mp (Nat.le_of_eq same.symm))

/-- A token ends where or before another one begins if that has a greater number; the end of the input
has no width. -/
theorem stop_le_start_iff (found : (tokenize text)[i]? = some token)
    (foundOther : (tokenize text)[j]? = some other) :
    token.span.stop ≤ other.start ↔ i < j ∨ i = j ∧ i = (list text).length := by
  constructor
  · intro before
    rcases Nat.lt_trichotomy i j with less | rfl | greater
    · exact .inl less
    · refine .inr ⟨rfl, ?_⟩
      obtain rfl := Option.some.inj (found.symm.trans foundOther)
      apply Nat.le_antisymm (lt_length_tokenize found)
      apply Nat.le_of_not_lt
      intro inside
      have := (areLexed_list text token (mem_list_of_tokenize found inside)).start_lt_stop
      omega
    · have apart := start_lt_start_of_lt foundOther found greater
      rw [span_stop] at before
      omega
  · rintro (before | ⟨rfl, last⟩)
    · exact stop_le_start_of_lt found foundOther before
    · obtain rfl := Option.some.inj (found.symm.trans foundOther)
      rw [last, tokenize, List.getElem?_append_right (Nat.le_refl _), Nat.sub_self] at found
      obtain rfl : eof text.utf8ByteSize = token := Option.some.inj found
      exact Nat.le_refl _

/-- The tokens have the same number in their texts; the end of the input is the last token. -/
def SameNumber (text text' : String) (token other : Token) : Prop :=
  ∃ n : Nat, (tokenize text)[n]? = some token ∧ (tokenize text')[n]? = some other

end Token

/-- The places are where tokens of the same number begin or end, or where the texts begin. -/
inductive SamePlace (text text' : String) : Nat → Nat → Prop where
  | front : SamePlace text text' 0 0
  | start {token other : Token} : Token.SameNumber text text' token other →
      SamePlace text text' token.start other.start
  | stop {token other : Token} : Token.SameNumber text text' token other →
      SamePlace text text' token.span.stop other.span.stop

section Numbers
variable {text text' : String}

/-- In texts of equally many tokens, places are in the same order as the beginnings of tokens of the same
number. -/
theorem SamePlace.le_iff (length : (Token.list text').length = (Token.list text).length)
    {place place' : Nat} {token token' : Token} (places : SamePlace text text' place place')
    (number : Token.SameNumber text text' token token') : place ≤ token.start ↔ place' ≤ token'.start := by
  obtain ⟨j, found, found'⟩ := number
  cases places with
  | front => simp
  | start number =>
    obtain ⟨i, inText, inOther⟩ := number
    rw [Token.start_le_start_iff inText found, Token.start_le_start_iff inOther found']
  | stop number =>
    obtain ⟨i, inText, inOther⟩ := number
    rw [Token.stop_le_start_iff inText found, Token.stop_le_start_iff inOther found', length]

/-- The cursors before the first tokens of two texts are alike where the tokens of the same number are
alike, and where those behind a point are alike as names. -/
theorem Cursor.like_of_numbers {like : Likeness}
    (length : (Token.list text').length = (Token.list text).length)
    (alike : ∀ {token other : Token}, Token.SameNumber text text' token other →
      Token.Like like token other)
    (points : ∀ {n : Nat} {point token other : Token}, (Token.tokenize text)[n]? = some point →
      point.kind = .symbol .dot → (Token.tokenize text)[n + 1]? = some token →
        (Token.tokenize text')[n + 1]? = some other → like.name token.lexeme other.lexeme)
    (front : like.place 0 0) (counted : like.count 0 0)
    (quotes : ∀ part part' : String, like.quote part part') :
    Cursor.Like like { text, rest := Token.list text } { text := text', rest := Token.list text' } := by
  have peeked (text : String) {n : Nat} (inside : n ≤ (Token.list text).length) :
      (Token.tokenize text)[n]? = some (peek { text, rest := Token.list text } n) := by
    rcases Nat.lt_or_eq_of_le inside with inside | rfl
    · rw [Token.getElem?_tokenize inside, peek, List.getElem?_eq_getElem inside, Option.getD_some]
    · rw [Token.tokenize, List.getElem?_append_right (Nat.le_refl _), Nat.sub_self, peek,
        List.getElem?_eq_none (Nat.le_refl _), Option.getD_none]
      rfl
  have ended : Token.Like like (.eof text.utf8ByteSize) (.eof text'.utf8ByteSize) :=
    alike ⟨(Token.list text).length, by simp [Token.tokenize], by simp [Token.tokenize, ← length]⟩
  refine ⟨?_, fun n isPoint => ?_, ⟨front, front⟩, counted, ended, fun _ => quotes _ _⟩
  · exact List.forall₂_iff_get.mpr ⟨length.symm, fun i inside inside' =>
      alike ⟨i, Token.getElem?_tokenize inside, Token.getElem?_tokenize inside'⟩⟩
  · have inside : n < (Token.list text).length := by
      apply Nat.lt_of_not_le
      intro behind
      rw [peek, List.getElem?_eq_none behind] at isPoint
      cases isPoint
    exact points (peeked text (Nat.le_of_lt inside)) isPoint (peeked text inside)
      (peeked text' (length.symm ▸ inside))

end Numbers

end SelectRouting
