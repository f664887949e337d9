import SelectRouting.Proofs.Spelling

/-!
# Names put in place of tokens

A text that is one name may be put in place of a token. It is read there as that name, and the tokens
beside it as before, unless one of the texts that touch runs into the other (`Text.runsInto`).
-/

namespace SelectRouting

/-- The text is a word: a letter or an underscore, and characters that continue a word. -/
def Text.IsWord (word : String) : Prop :=
  ∃ c tail, word.toList = c :: tail ∧ (isAlphabetic c || c == '_') = true ∧
    ∀ d ∈ tail, Token.isWordCharacter d = true

instance {word : String} : Decidable (Text.IsWord word) :=
  match chars : word.toList with
  | [] => isFalse fun ⟨_, _, same, _⟩ => by cases chars.symm.trans same
  | c :: tail =>
    decidable_of_iff ((Text.isAlphabetic c || c == '_') = true ∧
        tail.all Token.isWordCharacter = true) <| by
      rw [List.all_eq_true]
      constructor
      · rintro ⟨start, word⟩
        exact ⟨c, tail, chars, start, word⟩
      · rintro ⟨_, _, same, start, word⟩
        obtain ⟨rfl, rfl⟩ := List.cons.inj (chars.symm.trans same)
        exact ⟨start, word⟩

/-- The text is a name that needs no quotes, and no keyword. -/
def Text.IsName (name : String) : Prop :=
  IsWord name ∧ Keyword.lookup? name = none

instance {name : String} : Decidable (Text.IsName name) :=
  inferInstanceAs (Decidable (_ ∧ _))

/-- The kind of the token that a word is. -/
def Token.wordKind (word : String) : TokenKind :=
  match Keyword.lookup? word with
  | some keyword => .keyword keyword
  | none => .identifier word

namespace Token
open Text

section Words
variable {c : Char}

theorem isWordCharacter_of_isStart (start : (isAlphabetic c || c == '_') = true) :
    isWordCharacter c = true := by
  rw [Bool.or_eq_true] at start
  rcases start with letter | line
  · simp [isWordCharacter, letter]
  · simp [isWordCharacter, line]

theorem not_isDigit_of_isStart (start : (isAlphabetic c || c == '_') = true) :
    c.isDigit = false := by
  refine Bool.eq_false_iff.mpr fun digit => ?_
  have range := digit
  simp only [Char.isDigit, ge_iff_le, UInt32.le_iff_toNat_le, Bool.and_eq_true,
    decide_eq_true_eq] at range
  have among : c.toNat ∈ [48, 49, 50, 51, 52, 53, 54, 55, 56, 57] := by
    have bottom : 48 ≤ c.toNat := range.1
    have top : c.toNat ≤ 57 := range.2
    simp only [List.mem_cons, List.not_mem_nil, or_false]
    omega
  have all : ∀ n ∈ [48, 49, 50, 51, 52, 53, 54, 55, 56, 57],
      (isAlphabetic (Char.ofNat n) || Char.ofNat n == '_') = false := by
    decide
  have at_c := all c.toNat among
  rw [Char.ofNat_toNat, start] at at_c
  cases at_c

/-- No character of a word quotes names. -/
theorem isQuote_of_isWordCharacter (word : isWordCharacter c = true) : isQuote c = false := by
  refine Bool.eq_false_iff.mpr fun quote => ?_
  simp only [isQuote, Bool.or_eq_true, beq_iff_eq, or_assoc] at quote
  rcases quote with rfl | rfl | rfl | rfl | rfl <;> exact absurd word (by decide)

theorem noTrivia_iff {cs : List Char} : Trivia.between.length (c :: cs) = 0 ↔
    isBlank c = false ∧ (c = '-' → cs.head? ≠ some '-') ∧ (c = '/' → cs.head? ≠ some '*') := by
  unfold Trivia.length
  split
  · next blank => simp [blank]
  next noBlank =>
  split
  · next line =>
    obtain ⟨rfl, second⟩ := by simpa using line
    simp [second]
  next noLine =>
  split
  · next block =>
    obtain ⟨rfl, second⟩ := by simpa using block
    simp [second]
  next noBlock =>
  simpa using ⟨by simpa using noBlank, by simpa using noLine, by simpa using noBlock⟩

/-- No trivia begin with a character of words. -/
theorem noTrivia_of_isWordCharacter (word : isWordCharacter c = true) (cs : List Char) :
    Trivia.between.length (c :: cs) = 0 := by
  refine noTrivia_iff.mpr ⟨?_, ?_, ?_⟩
  · refine Bool.eq_false_iff.mpr fun blank => ?_
    have ends := (isDelimiter_of_isBlank blank).1
    simp [isDelimiter, word] at ends
  · rintro rfl
    exact absurd word (by decide)
  · rintro rfl
    exact absurd word (by decide)

theorem noTrivia_of_isStart (start : (isAlphabetic c || c == '_') = true) (cs : List Char) :
    Trivia.between.length (c :: cs) = 0 :=
  noTrivia_of_isWordCharacter (isWordCharacter_of_isStart start) cs

/-- What begins as a word and is no blob is read as a word. -/
theorem read_of_isStart {cs : List Char} (start : (isAlphabetic c || c == '_') = true)
    (noBlob : c = 'X' ∨ c = 'x' → cs.head? ≠ some '\x27') : read c cs = readWord c cs := by
  have noDouble : cs.head?.bind (Symbol.double? c) = none := by
    refine Option.bind_eq_none_iff.mpr fun d _ => ?_
    unfold Symbol.double?
    split <;> first | rfl | cases start
  have noQuote : isQuote c = false := isQuote_of_isWordCharacter (isWordCharacter_of_isStart start)
  simp only [isQuote, Bool.or_eq_false_iff] at noQuote
  obtain ⟨⟨⟨⟨noDouble', noBacktick⟩, noSingle⟩, noBracket⟩, _⟩ := noQuote
  unfold read
  rw [noDouble]
  dsimp only
  rw [if_neg (by simp [noSingle]), if_neg (by simp [noDouble', noBacktick]),
    if_neg (by simp [noBracket]), if_neg (by simpa using noBlob),
    if_neg (by simp [not_isDigit_of_isStart start]), if_pos start]

/-- A word is read where no word goes on behind it. -/
theorem read_word {tail rest : List Char} (start : (isAlphabetic c || c == '_') = true)
    (word : ∀ d ∈ tail, isWordCharacter d = true)
    (ends : ∀ d ∈ rest.head?, isDelimiter d = true) :
    read c (tail ++ rest) = (wordKind (String.ofList (c :: tail)), tail.length) := by
  have noBlob : (tail ++ rest).head? ≠ some '\x27' := by
    intro quote
    cases tail with
    | nil =>
      have delimits := ends '\x27' quote
      cases delimits
    | cons d tail =>
      obtain rfl := Option.some.inj quote
      have continues := word '\x27' List.mem_cons_self
      cases continues
  have stops : ∀ d ∈ rest.head?, isWordCharacter d = false := by
    intro d first
    have delimits := ends d first
    simp only [isDelimiter, Bool.and_eq_true, Bool.not_eq_true'] at delimits
    exact delimits.1
  rw [read_of_isStart start fun _ => noBlob]
  unfold readWord
  dsimp only
  rw [(takeWhile_append_stop word stops).1]
  rfl

end Words

section Running
variable {c d : Char} {tail rest rest' : List Char} {kind : TokenKind}

/-- The token written as `lexeme` goes on with the character behind it: quoted text with its quote, a
number with the letter of an exponent, a word with a character of words or the quote of a blob. -/
def goesOn (lexeme : List Char) (d : Char) : Bool :=
  match lexeme with
  | [] => false
  | c :: tail =>
    if isQuote c then c != '[' && d == c
    else if c.isDigit then d == 'e' || d == 'E'
    else (isAlphabetic c || c == '_') && tail.head? != some '\x27' && isWordCharacter d ||
      (c == 'X' || c == 'x') && tail.isEmpty && d == '\x27'

/-- The token written as `lexeme` goes on in the text behind it, or a comment that begins there would
be read as a part of it: behind a hyphen, or behind the letter of an exponent. -/
def runsOn (lexeme behind : List Char) : Bool :=
  behind.head?.any (goesOn lexeme) ||
    [['-'], ['e'], ['E']].contains lexeme && ['-', '-'].isPrefixOf behind

theorem goesOn_of_isDelimiter (delimits : isDelimiter d = true) : goesOn (c :: tail) d = false := by
  simp only [isDelimiter, Bool.and_eq_true, Bool.not_eq_true'] at delimits
  obtain ⟨noWord, noQuote⟩ := delimits
  unfold goesOn
  dsimp only
  split
  · next quote =>
    have other : (d == c) = false := by
      refine beq_eq_false_iff_ne.mpr ?_
      rintro rfl
      rw [quote] at noQuote
      cases noQuote
    rw [other, Bool.and_false]
  split
  · refine Bool.eq_false_iff.mpr fun letter => ?_
    rw [Bool.or_eq_true, beq_iff_eq, beq_iff_eq] at letter
    rcases letter with rfl | rfl <;> cases noWord
  · have noBlob : (d == '\x27') = false := by
      refine beq_eq_false_iff_ne.mpr ?_
      rintro rfl
      cases noQuote
    rw [noWord, noBlob, Bool.and_false, Bool.and_false]
    rfl

/-- No word goes on with a symbol. -/
theorem isDelimiter_of_symbol {cs : List Char} (symbol : (read c cs).1.isSymbol = true) :
    isDelimiter c = true := by
  rcases read_cases c cs with written | ⟨mark, _, ⟨d, double⟩ | single⟩
  · rw [(TokenKind.isWritten_iff.mp written).1] at symbol
    cases symbol
  · unfold Symbol.double? at double
    split at double <;> first | rfl | cases double
  · unfold Symbol.single? at single
    split at single <;> first | rfl | cases single

/-- A token ends before any text that it does not go on in. -/
theorem Ends.of_stops (stops : ∀ d ∈ rest'.head?, goesOn (c :: tail) d = false)
    (number : c.isDigit = true → ∀ d ∈ rest'.head?, d.isDigit = false ∧ d ≠ '.') :
    Ends c tail rest rest' := by
  cases rest' with
  | nil => exact (Boundary.of_delimiter (by simp)).ends
  | cons d rest' =>
    have stop := stops d rfl
    refine ⟨fun digit => ?_, fun start noBlob _ => ?_, fun quote noBracket _ => ?_,
      fun letter alone _ => ?_⟩
    · obtain ⟨noDigit, noPoint⟩ := number digit d rfl
      have noQuote := isQuote_of_isWordCharacter (isWordCharacter_of_isDigit digit)
      have noExponent : (d == 'e' || d == 'E') = false := by simpa [goesOn, noQuote, digit] using stop
      exact ⟨fun _ => by simpa using noDigit, fun _ => by simp [fractionDigits, noPoint],
        fun _ => exponentPart?_of_head (by simpa using noExponent)⟩
    · have noQuote := isQuote_of_isWordCharacter (isWordCharacter_of_isStart start)
      have noWord : isWordCharacter d = false := by
        refine Bool.eq_false_iff.mpr fun word => ?_
        have on : goesOn (c :: tail) d = true := by
          simp only [goesOn, noQuote, not_isDigit_of_isStart start, start, word, Bool.false_eq_true,
            if_false, Bool.true_and, Bool.and_true, Bool.or_eq_true]
          exact .inl (by simpa using noBlob)
        rw [stop] at on
        cases on
      simpa using noWord
    · simpa [goesOn, quote, noBracket] using stop
    · have start : (isAlphabetic c || c == '_') = true := by
        rw [Bool.or_eq_true, beq_iff_eq, beq_iff_eq] at letter
        rcases letter with rfl | rfl <;> decide
      have noQuote := isQuote_of_isWordCharacter (isWordCharacter_of_isStart start)
      subst alone
      simp only [goesOn, noQuote, not_isDigit_of_isStart start, letter, Bool.false_eq_true, if_false,
        List.isEmpty_nil, Bool.true_and, Bool.or_eq_false_iff] at stop
      simpa using stop.2

/-- A token is read alone as it is read in a text. -/
theorem list_lexeme (noTrivia : Trivia.between.length (c :: (tail ++ rest)) = 0)
    (reads : read c (tail ++ rest) = (kind, tail.length))
    (valid : ∀ error, kind ≠ .invalid error) :
    list (String.ofList (c :: tail)) = [⟨kind, 0, String.ofList (c :: tail)⟩] := by
  have alone : read c (tail ++ []) = (kind, tail.length) :=
    read_before reads (fun _ => valid) (fun _ => rfl) fun _ => (Boundary.of_delimiter (by simp)).ends
  have bare : Trivia.between.length (c :: (tail ++ [])) = 0 := by
    rw [noTrivia_iff] at noTrivia ⊢
    cases tail with
    | nil => exact ⟨noTrivia.1, by simp, by simp⟩
    | cons d tail => exact noTrivia
  have whole := @listFrom_token 0 [] c tail kind bare alone
  rw [List.append_nil] at whole
  rw [list, String.toList_ofList, whole]
  rfl

/-- A token of a text is read alone as it is read there. -/
theorem Spells.list_lexeme {offset : Nat} {front : List Char} {tokens : List Token}
    (spells : Spells rest offset front tokens)
    (valid : ∀ token ∈ tokens, ∀ error, token.kind ≠ .invalid error) {token : Token}
    (member : token ∈ tokens) : list token.lexeme = [⟨token.kind, 0, token.lexeme⟩] := by
  induction spells with
  | nil => cases member
  | @cons offset gap tail front c kind tokens trivia reads _ ih =>
    rcases List.mem_cons.mp member with rfl | later
    · have noTrivia := Trivia.length_behind (by simp) trivia
      exact Token.list_lexeme noTrivia reads (valid _ List.mem_cons_self)
    · exact ih (fun token member => valid token (List.mem_cons_of_mem _ member)) later

end Running

section Names
variable {text : String} {gap tail last : List Char} {c : Char} {name : String}

/-- The text is one name: the token of the characters `c` and `tail` between trivia, those behind it
closed. -/
structure NameParts (text : String) (gap : List Char) (c : Char) (tail last : List Char)
    (name : String) : Prop where
  split : text.toList = gap ++ c :: (tail ++ last)
  before : Trivia.between.length (gap ++ c :: (tail ++ last)) = gap.length
  reads : read c (tail ++ last) = (.identifier name, tail.length)
  closed (cs : List Char) :
    Trivia.between.length (last ++ cs) = last.length + Trivia.between.length cs

/-- The text is one name, and no comment is open behind it. -/
def IsPlaceable (text : String) : Prop :=
  ∃ gap c tail last name, NameParts text gap c tail last name

/-- A name begins with a quote or as a word. -/
theorem opens_of_read {cs : List Char} (reads : (read c cs).1 = .identifier name) :
    (c = '"' ∨ c = '\x60' ∨ c = '[') ∨ (isAlphabetic c || c == '_') = true := by
  unfold read at reads
  split at reads
  · cases reads
  split at reads
  · unfold readText at reads
    split at reads <;> cases reads
  split at reads
  · next quote =>
    rw [Bool.or_eq_true, beq_iff_eq, beq_iff_eq] at quote
    exact .inl (quote.imp_right .inl)
  split at reads
  · next bracket => exact .inl (.inr (.inr (beq_iff_eq.mp bracket)))
  split at reads
  · unfold readBlob at reads
    dsimp only at reads
    split at reads
    · cases reads
    · split at reads
      · cases reads
      · split at reads <;> cases reads
  split at reads
  · unfold readNumber at reads
    dsimp only at reads
    split at reads
    · split at reads <;> cases reads
    · split at reads
      · split at reads <;> cases reads
      · cases reads
  split at reads
  · next start => exact .inr start
  · split at reads <;> cases reads

/-- The character may begin a text that is one name. -/
def opensName (d : Char) : Bool :=
  !d.isDigit && !(['.', '*', '+', '=', '<', '>', '|', ':'].contains d)

theorem opensName_of_read {cs : List Char} (reads : (read c cs).1 = .identifier name) :
    opensName c = true ∧ c ≠ '-' ∧ c.isDigit = false ∧
      (∀ cs, Trivia.between.length (c :: cs) = 0) ∧ ∀ d, Symbol.double? c d = none := by
  rcases opens_of_read reads with quote | start
  · rcases quote with rfl | rfl | rfl <;>
      exact ⟨by decide, by decide, by decide, fun cs => noTrivia_iff.mpr ⟨by decide, nofun, nofun⟩,
        fun _ => rfl⟩
  · have noDigit := not_isDigit_of_isStart start
    refine ⟨?_, ?_, noDigit, noTrivia_of_isStart start, fun d => ?_⟩
    · rw [opensName, noDigit]
      simp only [Bool.not_false, Bool.true_and, Bool.not_eq_true', List.contains_eq_mem,
        decide_eq_false_iff_not, List.mem_cons, List.not_mem_nil, or_false]
      rintro (rfl | rfl | rfl | rfl | rfl | rfl | rfl | rfl) <;> cases start
    · rintro rfl
      cases start
    · unfold Symbol.double?
      split <;> first | rfl | cases start

theorem opensName_of_trivia {cs : List Char} (trivia : Trivia.between.length (c :: cs) ≠ 0) :
    opensName c = true ∧ (c = '-' → cs.head? = some '-') := by
  unfold Trivia.length at trivia
  split at trivia
  · next blank =>
    have noWord := (isDelimiter_of_isBlank blank).1
    simp only [isDelimiter, Bool.and_eq_true, Bool.not_eq_true'] at noWord
    have noDigit : c.isDigit = false := by
      refine Bool.eq_false_iff.mpr fun digit => ?_
      rw [isWordCharacter_of_isDigit digit] at noWord
      cases noWord.1
    refine ⟨?_, ?_⟩
    · rw [opensName, noDigit]
      simp only [Bool.not_false, Bool.true_and, Bool.not_eq_true', List.contains_eq_mem,
        decide_eq_false_iff_not, List.mem_cons, List.not_mem_nil, or_false]
      rintro (rfl | rfl | rfl | rfl | rfl | rfl | rfl | rfl) <;> cases blank
    · rintro rfl
      cases blank
  split at trivia
  · next line =>
    obtain ⟨rfl, second⟩ := by simpa using line
    exact ⟨by decide, fun _ => second⟩
  split at trivia
  · next block =>
    obtain ⟨rfl, _⟩ := by simpa using block
    exact ⟨by decide, fun hyphen => absurd hyphen (by decide)⟩
  · exact absurd rfl trivia

/-- How a text that is one name begins. -/
theorem NameParts.front (parts : NameParts text gap c tail last name) : ∃ d ds,
    text.toList = d :: ds ∧ opensName d = true ∧ (d = '-' → ds.head? = some '-') := by
  obtain ⟨split, before, reads, _⟩ := parts
  rw [split]
  cases gap with
  | nil =>
    obtain ⟨opens, noHyphen, _⟩ := opensName_of_read (congrArg Prod.fst reads)
    exact ⟨_, _, rfl, opens, fun is => absurd is noHyphen⟩
  | cons g gap =>
    rw [List.cons_append] at before
    exact ⟨g, gap ++ c :: (tail ++ last), rfl, opensName_of_trivia (by rw [before]; simp)⟩

/-- The one token of a text that is one name. -/
theorem NameParts.list_eq (parts : NameParts text gap c tail last name) :
    list text = [⟨.identifier name, width gap, String.ofList (c :: tail)⟩] := by
  obtain ⟨split, before, reads, closed⟩ := parts
  have noTrivia := (opensName_of_read (congrArg Prod.fst reads)).2.2.2.1 (tail ++ last)
  have behind : Trivia.between.length (last ++ []) = last.length := closed []
  have empty (offset : Nat) : listFrom offset 0 (last ++ []) = [] := by
    rw [listFrom_gap behind]
    rfl
  rw [list, split, listFrom_gap before, listFrom_token noTrivia reads, Nat.zero_add]
  rw [List.append_nil] at empty
  rw [empty]

/-- A name that needs no quotes is placeable. -/
theorem nameParts_of_isName (isName : IsName name) :
    ∃ c tail, (isAlphabetic c || c == '_') = true ∧ NameParts name [] c tail [] name := by
  obtain ⟨⟨c, tail, chars, start, word⟩, free⟩ := isName
  refine ⟨c, tail, start, by simpa using chars, noTrivia_of_isStart start _, ?_, fun cs => by simp⟩
  rw [read_word start word (by simp), ← chars, String.ofList_toList, wordKind, free]

end Names

end Token

/-- With `behind` put directly behind `front`, the last token of `front` runs on, where no trivia
follow it. -/
def Text.runsInto (front behind : String) : Bool :=
  (Token.list front).getLast?.any fun token =>
    token.span.stop == front.utf8ByteSize && Token.runsOn token.lexeme.toList behind.toList

namespace Token
open Text

theorem runsInto_of_token {kind : TokenKind} {front : String} (are : list front = [⟨kind, 0, front⟩])
    (behind : String) : runsInto front behind = runsOn front.toList behind.toList := by
  simp [runsInto, are, span]

theorem NameParts.runsInto_eq {text : String} {gap tail : List Char} {c : Char} {name : String}
    (parts : NameParts text gap c tail [] name) (behind : String) :
    runsInto text behind = runsOn (c :: tail) behind.toList := by
  have stop : (Token.mk (.identifier name) (width gap) (String.ofList (c :: tail))).span.stop =
      text.utf8ByteSize := by
    rw [span_stop, ← width_toList, ← width_toList, parts.split, String.toList_ofList]
    simp
  rw [runsInto, parts.list_eq, List.getLast?_singleton, Option.any_some, stop, beq_self_eq_true,
    Bool.true_and, String.toList_ofList]

theorem runsOn_eq_false {lexeme behind : List Char} : runsOn lexeme behind = false ↔
    (∀ d ∈ behind.head?, goesOn lexeme d = false) ∧
      (lexeme ∈ [['-'], ['e'], ['E']] → ['-', '-'].isPrefixOf behind = false) := by
  simp [runsOn, Option.any_eq_false]

end Token

end SelectRouting
