import SelectRouting.Text.Bytes
import SelectRouting.Text.Quotes
import SelectRouting.Token.Scan

/-!
# How tokens lie in a text

Every token of a text is read at the place that it starts at (`Token.tiles_list`): the tokens stand
one after the other, with text between them that belongs to none. Their starts ascend, and each is
found in the text between its own two offsets.
-/

namespace SelectRouting

/-- The kind has a text of its own: a word or a literal. -/
def TokenKind.isWritten (kind : TokenKind) : Bool :=
  !kind.isSymbol && kind != .endOfInput

theorem TokenKind.isWritten_iff {kind : TokenKind} :
    kind.isWritten = true ↔ kind.isSymbol = false ∧ kind ≠ .endOfInput := by
  simp [isWritten]

/-- The kind is a keyword or a name. -/
def TokenKind.isWord : TokenKind → Bool
  | .keyword _ | .identifier _ => true
  | _ => false

namespace Token

@[simp] theorem span_start (token : Token) : token.span.start = token.start := rfl

@[simp] theorem span_stop (token : Token) :
    token.span.stop = token.start + token.lexeme.utf8ByteSize := rfl

/-- The tokens of a text that begins at `offset`: behind a gap each is what is read there, and the
next ones are those of the text behind it. -/
inductive Tiles : (offset : Nat) → List Char → List Token → Prop where
  | gap {offset : Nat} {cs : List Char} : Tiles offset cs []
  | token {offset : Nat} {gap : List Char} {c : Char} {cs : List Char} {tokens : List Token} :
      Tiles (offset + Text.width gap + Text.width (c :: cs.take (read c cs).2))
          (cs.drop (read c cs).2) tokens →
        Tiles offset (gap ++ c :: cs)
          (⟨(read c cs).1, offset + Text.width gap, String.ofList (c :: cs.take (read c cs).2)⟩ ::
            tokens)

/-- Characters that are accounted for make no tokens. -/
theorem listFrom_skip (offset skip : Nat) (cs : List Char) :
    listFrom offset skip cs = listFrom (offset + Text.width (cs.take skip)) 0 (cs.drop skip) := by
  induction skip generalizing offset cs with
  | zero => simp
  | succ skip ih =>
    cases cs with
    | nil => simp [listFrom]
    | cons c cs =>
      rw [listFrom, ih]
      simp [Nat.add_assoc]

/-- More text in front of the first gap changes nothing but the offsets. -/
theorem Tiles.prepend {offset : Nat} {front cs : List Char} {tokens : List Token}
    (tiles : Tiles (offset + Text.width front) cs tokens) : Tiles offset (front ++ cs) tokens := by
  cases tiles with
  | gap => exact .gap
  | @token _ gap c cs tokens rest =>
    have start : offset + Text.width front + Text.width gap = offset + Text.width (front ++ gap) := by
      rw [Text.width_append, Nat.add_assoc]
    rw [start] at rest ⊢
    rw [← List.append_assoc]
    exact .token rest

/-- The first token stands behind a gap, and the next ones behind it. -/
theorem Tiles.uncons {offset : Nat} {cs : List Char} {token : Token} {tokens : List Token}
    (tiles : Tiles offset cs (token :: tokens)) :
    ∃ gap rest, cs = gap ++ (token.lexeme.toList ++ rest) ∧
      token.start = offset + Text.width gap ∧
      Tiles token.start (token.lexeme.toList ++ rest) (token :: tokens) ∧
      Tiles token.span.stop rest tokens := by
  cases tiles with
  | @token _ gap c cs _ rest =>
    have written : (String.ofList (c :: cs.take (read c cs).2)).toList ++ cs.drop (read c cs).2 =
        c :: cs := by
      rw [String.toList_ofList, List.cons_append, List.take_append_drop]
    refine ⟨gap, cs.drop (read c cs).2, by rw [written], rfl, ?_, ?_⟩
    · rw [written]
      exact @Tiles.token _ [] _ _ _ rest
    · rw [span_stop, ← Text.width_toList, String.toList_ofList]
      exact rest

/-- The tokens that are read in a text lie in it. -/
theorem tiles_listFrom (offset : Nat) (cs : List Char) :
    Tiles offset cs (listFrom offset 0 cs) := by
  match cs with
  | [] => exact .gap
  | c :: cs =>
    rw [listFrom]
    split
    · next skip _ =>
      rw [listFrom_skip]
      have rest := tiles_listFrom (offset + Text.width (c :: cs.take skip)) (cs.drop skip)
      have whole := rest.prepend
      rw [List.cons_append, List.take_append_drop, Text.width_cons, ← Nat.add_assoc] at whole
      exact whole
    · change Tiles offset ([] ++ c :: cs) (⟨(read c cs).1, offset + Text.width [],
        String.ofList (c :: cs.take (read c cs).2)⟩ ::
          listFrom (offset + c.utf8Size) (read c cs).2 cs)
      rw [listFrom_skip, Nat.add_assoc offset]
      exact .token (tiles_listFrom _ _)
termination_by cs.length
decreasing_by all_goals simp only [List.length_drop, List.length_cons]; omega

theorem tiles_list (text : String) : Tiles 0 text.toList (list text) :=
  tiles_listFrom 0 text.toList

/-- The token is read somewhere in some text. -/
def IsLexed (token : Token) : Prop :=
  ∃ c cs, token.kind = (read c cs).1 ∧ token.lexeme = String.ofList (c :: cs.take (read c cs).2)

/-- The tokens are read somewhere in some text. -/
def AreLexed (tokens : List Token) : Prop :=
  ∀ token ∈ tokens, token.IsLexed

theorem AreLexed.left {first second : List Token} (lexed : AreLexed (first ++ second)) :
    AreLexed first := fun token member => lexed token (List.mem_append_left _ member)

theorem AreLexed.right {first second : List Token} (lexed : AreLexed (first ++ second)) :
    AreLexed second := fun token member => lexed token (List.mem_append_right _ member)

theorem AreLexed.of_mem_flatMap {α : Type} {tokensOf : α → List Token} {parts : List α} {part : α}
    (lexed : AreLexed (parts.flatMap tokensOf)) (member : part ∈ parts) :
    AreLexed (tokensOf part) := fun token inside =>
  lexed token (List.mem_flatMap.mpr ⟨part, member, inside⟩)

theorem Tiles.areLexed {offset : Nat} {cs : List Char} {tokens : List Token}
    (tiles : Tiles offset cs tokens) : AreLexed tokens := by
  induction tiles with
  | gap => simp [AreLexed]
  | token _ ih =>
    intro token member
    rcases List.mem_cons.mp member with rfl | member
    · exact ⟨_, _, rfl, rfl⟩
    · exact ih token member

theorem areLexed_list (text : String) : AreLexed (list text) :=
  (tiles_list text).areLexed

/-- A token covers at least one byte. -/
theorem IsLexed.start_lt_stop {token : Token} (lexed : token.IsLexed) :
    token.start < token.span.stop := by
  obtain ⟨c, cs, _, written⟩ := lexed
  have := c.utf8Size_pos
  rw [span_stop, written, ← Text.width_toList, String.toList_ofList, Text.width_cons]
  omega

/-- The text of a token stands between its two offsets, which lie in the text. -/
theorem Tiles.within {offset : Nat} {cs : List Char} {tokens : List Token}
    (tiles : Tiles offset cs tokens) :
    ∀ token ∈ tokens, ∃ before after, cs = before ++ token.lexeme.toList ++ after ∧
      token.start = offset + Text.width before := by
  induction tiles with
  | gap => simp
  | @token offset gap c cs tokens _ ih =>
    intro token member
    rcases List.mem_cons.mp member with rfl | member
    · refine ⟨gap, cs.drop (read c cs).2, ?_, rfl⟩
      simp
    · obtain ⟨before, after, split, start⟩ := ih token member
      refine ⟨gap ++ (c :: cs.take (read c cs).2) ++ before, after, ?_, ?_⟩
      · have whole := congrArg (fun tail => gap ++ (c :: cs.take (read c cs).2) ++ tail) split
        simpa using whole
      · rw [start]
        simp only [Text.width_append]
        omega

theorem Tiles.start_le {offset : Nat} {cs : List Char} {tokens : List Token}
    (tiles : Tiles offset cs tokens) {token : Token} (member : token ∈ tokens) :
    offset ≤ token.start := by
  obtain ⟨_, _, _, start⟩ := tiles.within token member
  omega

/-- The tokens of a text follow one another without touching the same byte. -/
theorem Tiles.pairwise {offset : Nat} {cs : List Char} {tokens : List Token}
    (tiles : Tiles offset cs tokens) :
    tokens.Pairwise fun first second => first.span.stop ≤ second.start := by
  induction tiles with
  | gap => exact .nil
  | token rest ih =>
    refine .cons ?_ ih
    intro second member
    have behind := rest.start_le member
    simpa [← Text.width_toList] using behind

/-- The starts of the tokens of a text ascend. -/
theorem pairwise_start_lt (text : String) :
    (list text).Pairwise fun first second => first.start < second.start := by
  refine (tiles_list text).pairwise.imp_of_mem ?_
  intro first second member _ before
  exact Nat.lt_of_lt_of_le (areLexed_list text first member).start_lt_stop before

/-- The text of a token is found between its two offsets. -/
theorem slice?_of_mem_list {text : String} {token : Token} (member : token ∈ list text) :
    Text.slice? token.start token.span.stop text.toList = some token.lexeme.toList := by
  obtain ⟨before, after, split, start⟩ := (tiles_list text).within token member
  rw [Nat.zero_add] at start
  have size : token.span.stop - token.start = Text.width token.lexeme.toList := by
    rw [span_stop, Text.width_toList]
    omega
  rw [Text.slice?, if_pos (by rw [span_stop]; omega), split, size, start, List.append_assoc]
  simp only [Option.bind_eq_bind, Text.splitAt?_width, Option.bind_some]
  rfl

section Readers
variable (c : Char) (cs : List Char)

/-- The characters that belong to a word. -/
theorem take_readWord : cs.take (readWord c cs).2 = cs.takeWhile isWordCharacter :=
  (List.prefix_iff_eq_take.mp (List.takeWhile_prefix _)).symm

theorem isWritten_readWord : (readWord c cs).1.isWritten = true := by
  unfold readWord
  dsimp only
  split <;> rfl

theorem isWritten_readNumber : (readNumber c cs).1.isWritten = true := by
  unfold readNumber
  dsimp only
  split
  · split <;> rfl
  · split
    · split <;> rfl
    · rfl

theorem isWritten_readText {close : Char} {doubling : Bool} {kind : String → TokenKind}
    {error : LexicalError} (named : ∀ text, (kind text).isWritten = true) :
    (readText close doubling kind error cs).1.isWritten = true := by
  unfold readText
  split
  · exact named _
  · rfl

theorem isWritten_readBlob : (readBlob cs).1.isWritten = true := by
  unfold readBlob
  dsimp only
  split
  · rfl
  · split
    · rfl
    · split <;> rfl

theorem not_isWord_readNumber : (readNumber c cs).1.isWord = false := by
  unfold readNumber
  dsimp only
  split
  · split <;> rfl
  · split
    · split <;> rfl
    · rfl

theorem not_isWord_readBlob : (readBlob cs).1.isWord = false := by
  unfold readBlob
  dsimp only
  split
  · rfl
  · split
    · rfl
    · split <;> rfl

/-- What is read is a word, a literal or an error, or else a symbol that begins with the
character. -/
theorem read_cases :
    (read c cs).1.isWritten = true ∨ ∃ mark, (read c cs).1 = .symbol mark ∧
      ((∃ d, Symbol.double? c d = some mark) ∨ Symbol.single? c = some mark) := by
  unfold read
  split
  · next mark found =>
    obtain ⟨d, _, doubled⟩ := Option.bind_eq_some_iff.mp found
    exact .inr ⟨mark, rfl, .inl ⟨d, doubled⟩⟩
  · split
    · exact .inl (isWritten_readText cs fun _ => rfl)
    split
    · exact .inl (isWritten_readText cs fun _ => rfl)
    split
    · exact .inl (isWritten_readText cs fun _ => rfl)
    split
    · exact .inl (isWritten_readBlob (cs.drop 1))
    split
    · exact .inl (isWritten_readNumber c cs)
    split
    · exact .inl (isWritten_readWord c cs)
    split
    · next mark found => exact .inr ⟨mark, rfl, .inr found⟩
    · exact .inl rfl

end Readers

/-- No symbol begins with a letter. -/
theorem not_isAlpha_of_symbol {c : Char} {mark : Symbol}
    (symbol : (∃ d, Symbol.double? c d = some mark) ∨ Symbol.single? c = some mark) :
    c.toLower.isAlpha = false := by
  rcases symbol with ⟨d, doubled⟩ | single
  · unfold Symbol.double? at doubled
    split at doubled <;> first | rfl | cases doubled
  · unfold Symbol.single? at single
    split at single <;> first | rfl | cases single

/-- A token of the text is no end of input. -/
theorem IsLexed.kind_ne_endOfInput {token : Token} (lexed : token.IsLexed) :
    token.kind ≠ .endOfInput := by
  obtain ⟨c, cs, named, _⟩ := lexed
  rw [named]
  rcases read_cases c cs with written | ⟨mark, symbol, _⟩
  · exact (TokenKind.isWritten_iff.mp written).2
  · simp [symbol]

/-- A token that spells a word is no symbol. -/
theorem IsLexed.isWritten_of_word {token : Token} {word : String} (lexed : token.IsLexed)
    (spelled : Text.sameIgnoringCase token.lexeme word = true)
    (letter : (word.toList.head?.map Char.toLower).any Char.isAlpha = true) :
    token.kind.isWritten = true := by
  obtain ⟨c, cs, named, written⟩ := lexed
  rw [named]
  rcases read_cases c cs with isWritten | ⟨mark, _, symbol⟩
  · exact isWritten
  · have first := not_isAlpha_of_symbol symbol
    rw [Text.sameIgnoringCase, written, String.toList_ofList, List.map_cons, beq_iff_eq] at spelled
    rw [← List.head?_map, ← spelled] at letter
    simp [first] at letter

/-- Only words are keywords. -/
theorem read_of_keyword {c : Char} {cs : List Char} {word : Keyword}
    (is : (read c cs).1 = .keyword word) : read c cs = readWord c cs := by
  have noText {close : Char} {doubling : Bool} {kind : String → TokenKind} {error : LexicalError}
      (named : ∀ text, kind text ≠ .keyword word) :
      (readText close doubling kind error cs).1 ≠ .keyword word := by
    unfold readText
    split
    · exact named _
    · simp
  revert is
  unfold read
  split
  · simp
  split
  · exact fun is => absurd is (noText fun _ => by simp)
  split
  · exact fun is => absurd is (noText fun _ => by simp)
  split
  · exact fun is => absurd is (noText fun _ => by simp)
  split
  · exact fun is => absurd ((not_isWord_readBlob _).symm.trans (congrArg TokenKind.isWord is)) nofun
  split
  · exact fun is => absurd ((not_isWord_readNumber c cs).symm.trans (congrArg TokenKind.isWord is)) nofun
  split
  · exact fun _ => rfl
  split <;> simp

/-- A name is a word, or text between quoting characters. -/
theorem read_of_identifier {c : Char} {cs : List Char} {name : String}
    (is : (read c cs).1 = .identifier name) :
    read c cs = readWord c cs ∨ Text.isQuote c = true ∧ ∃ close doubling, Text.isQuote close = true ∧
      read c cs = readText close doubling .identifier .unterminatedIdentifier cs := by
  have noString : (readText c true .string .unterminatedString cs).1 ≠ .identifier name := by
    unfold readText
    split <;> simp
  revert is
  unfold read
  split
  · simp
  split
  · exact fun is => absurd is noString
  split
  · next quote =>
    have isQuote : Text.isQuote c = true := by simp_all [Text.isQuote]
    exact fun _ => .inr ⟨isQuote, c, true, isQuote, rfl⟩
  split
  · next quote => exact fun _ => .inr ⟨by simp_all [Text.isQuote], ']', false, by decide, rfl⟩
  split
  · exact fun is => absurd ((not_isWord_readBlob _).symm.trans (congrArg TokenKind.isWord is)) nofun
  split
  · exact fun is => absurd ((not_isWord_readNumber c cs).symm.trans (congrArg TokenKind.isWord is)) nofun
  split
  · exact fun _ => .inl rfl
  split <;> simp

/-- A keyword is written as it is spelled, up to case. -/
theorem IsLexed.spells_keyword {token : Token} {word : Keyword} (lexed : token.IsLexed)
    (is : token.kind = .keyword word) :
    Text.sameIgnoringCase word.spelling token.lexeme = true := by
  obtain ⟨c, cs, named, written⟩ := lexed
  rw [is] at named
  have reads := read_of_keyword named.symm
  rw [reads] at named written
  rw [take_readWord] at written
  unfold readWord at named
  dsimp only at named
  rw [written]
  split at named
  · next found =>
    obtain rfl := TokenKind.keyword.inj named
    unfold Keyword.lookup? at found
    have spelled := List.find?_some found
    exact spelled
  · cases named

/-- A symbol that is a star without its quotes is a star. -/
theorem IsLexed.eq_star_of_symbol {token : Token} {mark : Symbol} (lexed : token.IsLexed)
    (is : token.kind = .symbol mark) (star : Text.stripQuotes token.lexeme = "*") :
    mark = .star := by
  obtain ⟨c, cs, named, written⟩ := lexed
  rw [is] at named
  have kept : ∀ d ∈ token.lexeme.toList, Text.isQuote d = false → d = '*' := by
    intro d member unquoted
    have among : d ∈ (Text.stripQuotes token.lexeme).toList := by
      simp [Text.stripQuotes, member, unquoted]
    simpa [star] using among
  have first := kept c (by simp [written])
  rcases read_cases c cs with isWritten | ⟨_, symbol, symbols⟩
  · simp [← named, TokenKind.isWritten, TokenKind.isSymbol] at isWritten
  · obtain rfl := TokenKind.symbol.inj (named.trans symbol)
    rcases symbols with ⟨d, doubled⟩ | single
    · unfold Symbol.double? at doubled
      split at doubled <;> first | cases first rfl | cases doubled
    · unfold Symbol.single? at single
      split at single <;>
        first | exact (Option.some.inj single).symm | cases first rfl | cases single

/-- No keyword is a star without its quotes. -/
theorem IsLexed.ne_star_of_keyword {token : Token} {word : Keyword} (lexed : token.IsLexed)
    (is : token.kind = .keyword word) : Text.stripQuotes token.lexeme ≠ "*" := by
  intro star
  have written := lexed.spells_keyword is
  have among : '*' ∈ token.lexeme.toList := by
    have kept : '*' ∈ (Text.stripQuotes token.lexeme).toList := by simp [star]
    rw [Text.stripQuotes, String.toList_ofList] at kept
    exact (List.mem_filter.mp kept).1
  have spelled : '*' ∈ word.spelling.toList.map Char.toLower := by
    rw [Text.sameIgnoringCase, beq_iff_eq] at written
    rw [written]
    exact List.mem_map.mpr ⟨'*', among, rfl⟩
  revert spelled
  cases word <;> decide

end Token

end SelectRouting
