import SelectRouting.Proofs.Spliced
import SelectRouting.Proofs.TokenBoundary

/-!
# Text that spells tokens

A text that ends with a token spells its tokens in front of the text behind it
(`Token.Spells`). What it spells stays the same when the text behind it or a name in it is replaced
by text that continues no token before it (`Token.Spells.rewritten`).
-/

namespace SelectRouting

namespace Token
open Text

section Lengths

theorem readQuoted_length_le {close : Char} {doubling : Bool} {cs value : List Char} {length : Nat}
    (found : readQuoted? close doubling cs = some (value, length)) : length ≤ cs.length := by
  fun_induction readQuoted? close doubling cs generalizing value length with
  | case1 => cases found
  | case2 => simp_all
  | case3 => cases found
  | case4 c d cs closes twice ih =>
    obtain ⟨⟨_, inner⟩, found, same⟩ := Option.map_eq_some_iff.mp found
    have bound := ih found
    obtain ⟨_, rfl⟩ := Prod.mk.inj same
    simp only [List.length_cons]
    omega
  | case5 => simp_all
  | case6 c d cs other ih =>
    obtain ⟨⟨_, inner⟩, found, same⟩ := Option.map_eq_some_iff.mp found
    have bound := ih found
    obtain ⟨_, rfl⟩ := Prod.mk.inj same
    simp only [List.length_cons] at bound ⊢
    omega

theorem takeWhile_length_le (p : Char → Bool) (cs : List Char) :
    (cs.takeWhile p).length ≤ cs.length :=
  (List.takeWhile_sublist p).length_le

theorem readText_length_le {close : Char} {doubling : Bool} {kind : String → TokenKind}
    {error : LexicalError} (cs : List Char) :
    (readText close doubling kind error cs).2 ≤ cs.length := by
  unfold readText
  split
  · next found => exact readQuoted_length_le found
  · exact Nat.le_refl _

theorem readBlob_length_le (cs : List Char) : (readBlob cs).2 ≤ cs.length := by
  have whole := congrArg List.length (@List.takeWhile_append_dropWhile _ isHexDigit cs)
  rw [List.length_append] at whole
  unfold readBlob
  dsimp only
  split
  · exact takeWhile_length_le _ _
  · next first =>
    obtain ⟨behind, dropped⟩ := List.head?_eq_some_iff.mp first
    rw [dropped, List.length_cons] at whole
    dsimp only
    omega

theorem exponentPart_length_le {cs : List Char} {exponent : ExponentPart}
    (found : exponentPart? cs = some exponent) : exponent.length ≤ cs.length := by
  unfold exponentPart? at found
  split at found
  · next e c cs =>
    have digits := takeWhile_length_le Char.isDigit cs
    split at found
    · split at found
      · obtain rfl := Option.some.inj found
        simp only [List.length_cons]
        omega
      split at found
      · obtain rfl := Option.some.inj found
        simp only [List.length_cons]
        omega
      · cases found
    · cases found
  · cases found

theorem fractionDigits_length_lt {cs : List Char} (some : fractionDigits cs ≠ []) :
    (fractionDigits cs).length < cs.length := by
  unfold fractionDigits at some ⊢
  split
  · exact Nat.lt_succ_of_le (takeWhile_length_le _ _)
  · simp at some

theorem readNumber_length_le (c : Char) (cs : List Char) : (readNumber c cs).2 ≤ cs.length := by
  have whole := congrArg List.length (@List.takeWhile_append_dropWhile _ Char.isDigit cs)
  rw [List.length_append] at whole
  unfold readNumber
  dsimp only
  generalize cs.dropWhile Char.isDigit = behind at whole ⊢
  have fraction : (if (fractionDigits behind).isEmpty = true then 0
      else (fractionDigits behind).length + 1) ≤ behind.length := by
    split
    · exact Nat.zero_le _
    · next some => exact fractionDigits_length_lt (by simpa using some)
  generalize (if (fractionDigits behind).isEmpty = true then 0
    else (fractionDigits behind).length + 1) = length at fraction ⊢
  split
  · next exponent found =>
    have bound := exponentPart_length_le found
    simp only [List.length_cons, List.length_drop] at bound ⊢
    omega
  · simp only [List.length_cons]
    omega

/-- A token lies in its text. -/
theorem read_length_le (c : Char) (cs : List Char) : (read c cs).2 ≤ cs.length := by
  unfold read
  split
  · next found =>
    obtain ⟨d, first, _⟩ := Option.bind_eq_some_iff.mp found
    obtain ⟨rest, rfl⟩ := List.head?_eq_some_iff.mp first
    simp
  split
  · exact readText_length_le cs
  split
  · exact readText_length_le cs
  split
  · exact readText_length_le cs
  split
  · next blob =>
    simp only [Bool.and_eq_true, beq_iff_eq] at blob
    obtain ⟨rest, rfl⟩ := List.head?_eq_some_iff.mp blob.2
    exact Nat.succ_le_succ (readBlob_length_le rest)
  split
  · exact readNumber_length_le c cs
  split
  · exact takeWhile_length_le _ cs
  split <;> exact Nat.zero_le _

end Lengths

/-- The text `front`, behind which `rest` stands, is the tokens with the gaps before them. -/
inductive Spells (rest : List Char) : (offset : Nat) → (front : List Char) → List Token → Prop where
  | nil {offset : Nat} : Spells rest offset [] []
  | cons {offset : Nat} {gap tail front : List Char} {c : Char} {kind : TokenKind}
      {tokens : List Token} :
      Trivia.between.length (gap ++ c :: (tail ++ (front ++ rest))) = gap.length →
        read c (tail ++ (front ++ rest)) = (kind, tail.length) →
        Spells rest (offset + width gap + width (c :: tail)) front tokens →
        Spells rest offset (gap ++ c :: (tail ++ front))
          (⟨kind, offset + width gap, String.ofList (c :: tail)⟩ :: tokens)

variable {offset : Nat} {front rest cs : List Char} {tokens behind : List Token}

/-- No token begins in a gap. -/
theorem listFrom_gap {gap : List Char} (trivia : Trivia.between.length (gap ++ cs) = gap.length) :
    listFrom offset 0 (gap ++ cs) = listFrom (offset + width gap) 0 cs := by
  cases gap with
  | nil => simp
  | cons g gap =>
    rw [List.cons_append] at trivia ⊢
    rw [listFrom, trivia, List.length_cons]
    dsimp only
    rw [listFrom_skip, List.take_left, List.drop_left, width_cons, Nat.add_assoc]

/-- Skipping trivia skips no token. -/
theorem listFrom_trivia :
    listFrom offset (Trivia.between.length cs) cs = listFrom offset 0 cs := by
  have covers := Trivia.length_le .between cs
  obtain ⟨gap, behind, rfl, length⟩ : ∃ gap behind, cs = gap ++ behind ∧
      Trivia.between.length cs = gap.length :=
    ⟨cs.take _, cs.drop _, (List.take_append_drop _ cs).symm, (List.length_take_of_le covers).symm⟩
  rw [listFrom_skip, length, listFrom_gap length, List.take_left, List.drop_left]

/-- No token begins in trivia that are closed. -/
theorem listFrom_closed {gap : List Char}
    (closed : Trivia.between.length (gap ++ cs) = gap.length + Trivia.between.length cs) :
    listFrom offset 0 (gap ++ cs) = listFrom (offset + width gap) 0 cs := by
  rw [← listFrom_trivia, closed, listFrom_skip, List.take_length_add_append,
    List.drop_length_add_append, width_append, ← Nat.add_assoc, ← listFrom_skip, listFrom_trivia]

/-- A text without tokens is all trivia. -/
theorem listFrom_eq_nil : listFrom offset 0 cs = [] ↔ Trivia.between.length cs = cs.length := by
  have covers := Trivia.length_le .between cs
  constructor
  · intro none
    obtain ⟨gap, behind, rfl, length⟩ : ∃ gap behind, cs = gap ++ behind ∧
        Trivia.between.length cs = gap.length :=
      ⟨cs.take _, cs.drop _, (List.take_append_drop _ cs).symm, (List.length_take_of_le covers).symm⟩
    rw [listFrom_gap length] at none
    cases behind with
    | nil => rw [length, List.append_nil]
    | cons c behind =>
      rw [listFrom, Trivia.length_behind (List.cons_ne_nil c behind) length] at none
      cases none
  · intro all
    rw [← List.append_nil cs] at all ⊢
    rw [listFrom_gap (by simpa using all)]
    rfl

theorem listFrom_blank {c : Char} (blank : isBlank c = true) :
    listFrom offset 0 (c :: cs) = listFrom (offset + c.utf8Size) 0 cs := by
  rw [listFrom, Trivia.length, if_pos blank]
  exact listFrom_trivia

theorem listFrom_token {c : Char} {tail : List Char} {kind : TokenKind}
    (noTrivia : Trivia.between.length (c :: (tail ++ rest)) = 0)
    (reads : read c (tail ++ rest) = (kind, tail.length)) :
    listFrom offset 0 (c :: (tail ++ rest)) = ⟨kind, offset, String.ofList (c :: tail)⟩ ::
      listFrom (offset + width (c :: tail)) 0 rest := by
  rw [listFrom, noTrivia]
  dsimp only
  rw [reads, listFrom_skip]
  simp [Nat.add_assoc]

/-- The tokens of a text are those that its front spells and those of the text behind it. -/
theorem Spells.listFrom_append (spells : Spells rest offset front tokens) :
    listFrom offset 0 (front ++ rest) = tokens ++ listFrom (offset + width front) 0 rest := by
  induction spells with
  | nil => simp
  | @cons offset gap tail front c kind tokens trivia reads _ ih =>
    have noTrivia := Trivia.length_behind (by simp) trivia
    rw [List.append_assoc, List.cons_append, List.append_assoc, listFrom_gap trivia,
      listFrom_token noTrivia reads, ih]
    simp [Nat.add_assoc]

/-- The first token of a text stands behind a gap. -/
theorem exists_first {token : Token} (are : listFrom offset 0 cs = token :: tokens) :
    ∃ gap c tail rest, cs = gap ++ c :: (tail ++ rest) ∧
      Trivia.between.length cs = gap.length ∧
      read c (tail ++ rest) = (token.kind, tail.length) ∧ token.start = offset + width gap ∧
      token.lexeme = String.ofList (c :: tail) ∧
      listFrom (offset + width gap + width (c :: tail)) 0 rest = tokens := by
  have covers := Trivia.length_le .between cs
  obtain ⟨gap, behind, rfl, length⟩ : ∃ gap behind, cs = gap ++ behind ∧
      Trivia.between.length cs = gap.length :=
    ⟨cs.take _, cs.drop _, (List.take_append_drop _ cs).symm, (List.length_take_of_le covers).symm⟩
  rw [listFrom_gap length] at are
  cases behind with
  | nil => cases are
  | cons c behind =>
    have noTrivia := Trivia.length_behind (by simp) length
    have bound := read_length_le c behind
    obtain ⟨tail, rest, rfl, reach⟩ : ∃ tail rest, behind = tail ++ rest ∧
        (read c behind).2 = tail.length :=
      ⟨behind.take _, behind.drop _, (List.take_append_drop _ behind).symm,
        (List.length_take_of_le bound).symm⟩
    have reads : read c (tail ++ rest) = ((read c (tail ++ rest)).1, tail.length) := by
      rw [← reach]
    rw [listFrom_token noTrivia reads] at are
    obtain ⟨rfl, more⟩ := List.cons.inj are
    exact ⟨gap, c, tail, rest, rfl, length, reads, rfl, rfl, more⟩

/-- The first tokens of a text are spelled by its front. -/
theorem exists_spells (are : listFrom offset 0 cs = tokens ++ behind) :
    ∃ front rest, cs = front ++ rest ∧ Spells rest offset front tokens ∧
      listFrom (offset + width front) 0 rest = behind := by
  induction tokens generalizing offset cs with
  | nil => exact ⟨[], cs, rfl, .nil, by simpa using are⟩
  | cons token tokens ih =>
    obtain ⟨gap, c, tail, later, rfl, trivia, reads, start, lexeme, more⟩ := exists_first are
    obtain ⟨front, rest, rfl, spells, last⟩ := ih more
    obtain ⟨kind, _, _⟩ := token
    obtain ⟨rfl, rfl⟩ : _ = _ ∧ _ = _ := ⟨start, lexeme⟩
    refine ⟨gap ++ c :: (tail ++ front), rest, by simp, .cons trivia reads spells, ?_⟩
    simpa [Nat.add_assoc] using last

end Token

end SelectRouting
