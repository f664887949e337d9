import Mathlib.Data.List.TakeWhile
import SelectRouting.Proofs.DerivedAliases
import SelectRouting.Proofs.LetterCase

/-!
# Which item a key is found in

A key is looked up in the projection list by its text, and of both texts every quote is dropped
before they are compared. `Statement.keys_projected` says which items are found so. What an item is
read from can be told from what is left of it when no other token than a name has quotes
(`Token.AreEvident`); then an item that is found for a column is that column
(`Column.IsUnquoted.isReference`). A literal has quotes, and `Statement.literal_taken_for_key` is
one that is found for a column.
-/

namespace SelectRouting

namespace Text
open Token

/-- The characters that are left without quotes and without case. -/
def bare (cs : List Char) : List Char :=
  (cs.filter fun c => !isQuote c).map Char.toLower

@[simp] theorem bare_nil : bare [] = [] := rfl

@[simp] theorem bare_append (first second : List Char) :
    bare (first ++ second) = bare first ++ bare second := by
  simp [bare]

theorem bare_cons {c : Char} (kept : isQuote c = false) (cs : List Char) :
    bare (c :: cs) = c.toLower :: bare cs := by
  simp [bare, kept]

theorem bare_stripQuotes (text : String) : bare (stripQuotes text).toList = bare text.toList := by
  rw [bare, stripQuotes, String.toList_ofList, List.filter_filter, bare]
  simp

theorem mem_bare {c : Char} {cs : List Char} (member : c ∈ cs) (kept : isQuote c = false) :
    c.toLower ∈ bare cs :=
  List.mem_map_of_mem (List.mem_filter.mpr ⟨member, by rw [kept]; rfl⟩)

/-- Texts are found to be the same by what is left of them. -/
theorem same_iff_bare {first second : String} :
    sameIgnoringCase (stripQuotes first) (stripQuotes second) = true ↔
      bare first.toList = bare second.toList := by
  rw [sameIgnoringCase, beq_iff_eq, stripQuotes, stripQuotes, String.toList_ofList,
    String.toList_ofList]
  rfl

example : bare "`T`.\"a\"".toList = "t.a".toList := by decide +kernel

theorem eq_nil_of_width {cs : List Char} (none : width cs = 0) : cs = [] := by
  cases cs with
  | nil => rfl
  | cons c cs =>
    have size := c.utf8Size_pos
    rw [width_cons] at none
    omega

section Case

/-- What begins with a delimiter does so also without quotes and case. -/
theorem bare_stops {cs : List Char} (delimits : ∀ d ∈ cs.head?, isDelimiter d = true) :
    ∀ d ∈ (bare cs).head?, isWordCharacter d = false := by
  cases cs with
  | nil => simp
  | cons c cs =>
    have delimiter := delimits c rfl
    simp only [isDelimiter, Bool.and_eq_true, Bool.not_eq_true'] at delimiter
    rw [bare_cons delimiter.2]
    simpa [isWordCharacter_toLower] using delimiter.1

theorem eq_point_of_toLower {c : Char} (point : c.toLower = '.') : c = '.' :=
  (IsCaseless.toLower_eq_iff (by decide)).mp point

end Case

section Words
variable {word : String}

theorem IsWord.isWordCharacter_bare (isWord : IsWord word) :
    ∀ d ∈ bare word.toList, isWordCharacter d = true := by
  obtain ⟨first, tail, chars, start, more⟩ := isWord
  intro d member
  obtain ⟨c, inside, rfl⟩ := List.mem_map.mp member
  rw [isWordCharacter_toLower]
  have among := List.mem_of_mem_filter inside
  rw [chars] at among
  rcases List.mem_cons.mp among with rfl | among
  · exact isWordCharacter_of_isStart start
  · exact more c among

/-- A text that reads as a word up to quotes and case does not begin with a delimiter, and without a
quote it begins as a word does. -/
theorem IsWord.first {c : Char} {cs more : List Char} (isWord : IsWord word)
    (same : bare (c :: cs) = bare word.toList ++ more) :
    isDelimiter c = false ∧ (isQuote c = false → (isAlphabetic c || c == '_') = true) := by
  have starts (kept : isQuote c = false) : (isAlphabetic c || c == '_') = true := by
    obtain ⟨first, tail, chars, start, _⟩ := isWord
    have noQuote := isQuote_of_isWordCharacter (isWordCharacter_of_isStart start)
    rw [bare_cons kept, chars, bare_cons noQuote] at same
    obtain ⟨letter, _⟩ := List.cons.inj same
    rw [← isStart_toLower, letter, isStart_toLower, start]
  refine ⟨Bool.eq_false_iff.mpr fun delimits => ?_, starts⟩
  simp only [isDelimiter, Bool.and_eq_true, Bool.not_eq_true'] at delimits
  rw [isWordCharacter_of_isStart (starts delimits.2)] at delimits
  cases delimits.1

end Words

end Text

namespace Token
open Text

theorem isSymbol_of_isIdentifier {kind : TokenKind} (identifier : kind.isIdentifier = true) :
    kind.isSymbol = false := by
  cases kind <;> first | rfl | cases identifier

theorem isSymbol_wordKind (word : String) : (wordKind word).isSymbol = false := by
  unfold wordKind
  split <;> rfl

section Reading
variable {c : Char} {cs tail rest : List Char} {kind : TokenKind}

/-- A word without quotes is read as far as it goes. -/
theorem word_of_read (start : (isAlphabetic c || c == '_') = true)
    (unquoted : ∀ d ∈ tail, isQuote d = false)
    (reads : read c (tail ++ rest) = (kind, tail.length)) :
    kind = wordKind (String.ofList (c :: tail)) ∧ (∀ d ∈ tail, isWordCharacter d = true) ∧
      ∀ d ∈ rest.head?, isWordCharacter d = false := by
  have noBlob : c = 'X' ∨ c = 'x' → (tail ++ rest).head? ≠ some '\x27' := by
    intro letter quote
    cases tail with
    | nil =>
      -- The token of a blob would have the quote.
      have length := congrArg Prod.snd reads
      rw [read, quote] at length
      rcases letter with rfl | rfl <;> cases length
    | cons d tail =>
      obtain rfl := Option.some.inj quote
      have noQuote := unquoted '\x27' List.mem_cons_self
      cases noQuote
  rw [read_of_isStart start noBlob] at reads
  unfold readWord at reads
  obtain ⟨named, length⟩ := Prod.mk.inj reads
  have same : (tail ++ rest).takeWhile isWordCharacter = tail := by
    have front := List.prefix_iff_eq_take.mp
      (List.takeWhile_prefix isWordCharacter : (tail ++ rest).takeWhile isWordCharacter <+: _)
    rwa [length, List.take_left] at front
  have behind : (tail ++ rest).dropWhile isWordCharacter = rest := by
    have whole := @List.takeWhile_append_dropWhile _ isWordCharacter (tail ++ rest)
    rw [same] at whole
    exact List.append_cancel_left whole
  refine ⟨?_, fun d member => ?_, fun d first => ?_⟩
  · rw [same] at named
    exact named.symm
  · rw [← same] at member
    exact List.mem_takeWhile_imp member
  · have stops := List.head?_dropWhile_not isWordCharacter (tail ++ rest)
    rw [behind, show rest.head? = some d from first] at stops
    exact stops

/-- What is read at no quote and is no symbol begins as a word goes on. -/
theorem isWordCharacter_of_read (reads : (read c cs).1 = kind) (written : kind.isWritten = true)
    (valid : ∀ error, kind ≠ .invalid error) (unquoted : isQuote c = false) :
    isWordCharacter c = true := by
  simp only [isQuote, Bool.or_eq_false_iff] at unquoted
  obtain ⟨⟨⟨⟨noDouble, noBacktick⟩, noSingle⟩, noBracket⟩, _⟩ := unquoted
  have noSymbol := (TokenKind.isWritten_iff.mp written).1
  unfold read at reads
  split at reads
  · rw [← reads] at noSymbol
    cases noSymbol
  rw [if_neg (by simp [noSingle]), if_neg (by simp [noDouble, noBacktick]),
    if_neg (by simp [noBracket])] at reads
  split at reads
  · next blob =>
    simp only [Bool.and_eq_true, Bool.or_eq_true, beq_iff_eq] at blob
    rcases blob.1 with rfl | rfl <;> decide
  split at reads
  · next digit => exact isWordCharacter_of_isDigit digit
  split at reads
  · next start => exact isWordCharacter_of_isStart start
  split at reads
  · rw [← reads] at noSymbol
    cases noSymbol
  · exact absurd reads.symm (valid _)

end Reading

/-- The token has a quote. -/
def isQuoted (token : Token) : Bool :=
  token.lexeme.toList.any isQuote

/-- The tokens do not touch, or one of them is a symbol where the other one is quoted. -/
def Apart (first second : Token) : Prop :=
  first.span.stop = second.start →
    (first.isQuoted = true → second.kind.isSymbol = true) ∧
      (second.isQuoted = true → first.kind.isSymbol = true)

instance {first second : Token} : Decidable (Apart first second) :=
  inferInstanceAs (Decidable (_ = _ → _ ∧ _))

/-- The tokens can be told from what is left of them without quotes: only names are quoted, which
are words also without their quotes, and a quoted name touches no other word. -/
structure AreEvident (tokens : List Token) : Prop where
  names : ∀ token ∈ tokens, token.isQuoted = true →
    token.kind.isIdentifier = true ∧ IsWord (stripQuotes token.lexeme)
  apart : tokens.IsChain Apart

theorem AreEvident.tail {token : Token} {tokens : List Token}
    (evident : AreEvident (token :: tokens)) : AreEvident tokens where
  names other member := evident.names other (List.mem_cons_of_mem _ member)
  apart := evident.apart.tail

/-- The token is the name, ignoring quotes and case. -/
structure Names (word : String) (token : Token) : Prop where
  kind : token.kind.isIdentifier = true ∨ token.kind = wordKind word
  spelled : sameIgnoringCase (stripQuotes token.lexeme) word = true

/-- A word is a keyword in any case of its letters. -/
theorem wordKind_cases {first second : String} (same : sameIgnoringCase first second = true) :
    (wordKind first).isIdentifier = true ∨ wordKind first = wordKind second := by
  have found : Keyword.lookup? first = Keyword.lookup? second := by
    unfold Keyword.lookup? sameIgnoringCase
    rw [beq_iff_eq.mp same]
  unfold wordKind
  rw [← found]
  cases Keyword.lookup? first with
  | none => exact .inl rfl
  | some word => exact .inr rfl

section Spelled
variable {offset : Nat} {front rest : List Char} {token : Token} {tokens : List Token}

theorem isDelimiter_of_gap {g : Char} {gap cs : List Char}
    (trivia : Trivia.between.length (g :: gap ++ cs) = (g :: gap).length) :
    isDelimiter g = true ∧ g ≠ '.' := by
  apply isDelimiter_of_trivia
  rw [← List.cons_append, trivia]
  simp

/-- A text begins with a delimiter, unless its first token begins there and is no symbol. -/
theorem Spells.delimits (spells : Spells rest offset front tokens)
    (symbol : ∀ next ∈ tokens.head?, next.start = offset → next.kind.isSymbol = true) :
    ∀ d ∈ front.head?, isDelimiter d = true := by
  cases spells with
  | nil => simp
  | @cons _ gap tail front c kind tokens trivia reads _ =>
    cases gap with
    | nil =>
      have is : kind.isSymbol = true := symbol _ rfl (by simp)
      simpa using isDelimiter_of_symbol (c := c) (by rw [reads]; exact is)
    | cons g gap => simpa using (isDelimiter_of_gap trivia).1

/-- Behind a word a delimiter stands. -/
theorem Spells.delimits_behind (spells : Spells rest offset front tokens)
    (evident : AreEvident (token :: tokens))
    (valid : ∀ token ∈ tokens, ∀ error, token.kind ≠ .invalid error)
    (stop : token.span.stop = offset) (noSymbol : token.kind.isSymbol = false)
    (ends : token.isQuoted = false → ∀ d ∈ (front ++ rest).head?, isWordCharacter d = false) :
    ∀ d ∈ front.head?, isDelimiter d = true := by
  apply spells.delimits
  intro next first begins
  obtain ⟨others, rfl⟩ := List.head?_eq_some_iff.mp first
  obtain ⟨behindQuoted, beforeQuoted⟩ :=
    (List.isChain_cons_cons.mp evident.apart).1 (stop.trans begins.symm)
  by_cases quoted : token.isQuoted = true
  · exact behindQuoted quoted
  · have nextUnquoted : next.isQuoted = false := by
      refine Bool.eq_false_iff.mpr fun nextQuoted => ?_
      rw [beforeQuoted nextQuoted] at noSymbol
      cases noSymbol
    cases spells with
    | @cons _ gap tail front c kind _ _ reads _ =>
      have kept : isQuote c = false := by
        simp only [isQuoted, String.toList_ofList, List.any_cons, Bool.or_eq_false_iff]
          at nextUnquoted
        exact nextUnquoted.1
      obtain rfl : gap = [] := eq_nil_of_width (Nat.add_eq_left.mp begins)
      have noWord := ends (Bool.eq_false_iff.mpr quoted) c rfl
      rcases read_cases c (tail ++ (front ++ rest)) with written | ⟨mark, is, _⟩
      · -- A word without quotes is read up to its end.
        rw [reads] at written
        have word := isWordCharacter_of_read (congrArg Prod.fst reads) written
          (valid _ List.mem_cons_self) kept
        rw [word] at noWord
        cases noWord
      · rw [reads] at is
        exact congrArg TokenKind.isSymbol is

/-- What is left without quotes and case tells the first token when it begins with a word. -/
theorem Spells.exists_behind_word (spells : Spells rest offset front (token :: tokens))
    (begins : token.start = offset) (evident : AreEvident (token :: tokens))
    (valid : ∀ other ∈ token :: tokens, ∀ error, other.kind ≠ .invalid error) {word : String}
    (isWord : IsWord word) {more : List Char} (stops : ∀ d ∈ more.head?, isWordCharacter d = false)
    (same : bare front = bare word.toList ++ more) :
    token.Names word ∧ ∃ behind, Spells rest token.span.stop behind tokens ∧ bare behind = more ∧
      ∀ d ∈ behind.head?, isDelimiter d = true := by
  cases spells with
  | @cons _ gap tail behind c kind _ trivia reads spells =>
    obtain rfl : gap = [] := eq_nil_of_width (Nat.add_eq_left.mp begins)
    obtain ⟨text, isText, alike, noSymbol, named, ends⟩ : ∃ text : String, IsWord text ∧
        bare text.toList = bare (c :: tail) ∧ kind.isSymbol = false ∧
        (kind.isIdentifier = true ∨ kind = wordKind text) ∧
        (Token.isQuoted ⟨kind, offset + width [], String.ofList (c :: tail)⟩ = false →
          ∀ d ∈ (behind ++ rest).head?, isWordCharacter d = false) := by
      by_cases quoted : Token.isQuoted ⟨kind, offset + width [], String.ofList (c :: tail)⟩ = true
      · obtain ⟨identifier, content⟩ := evident.names _ List.mem_cons_self quoted
        refine ⟨_, content, ?_, ?_, .inl identifier, fun unquoted => ?_⟩
        · rw [bare_stripQuotes, String.toList_ofList]
        · exact isSymbol_of_isIdentifier identifier
        · rw [quoted] at unquoted
          cases unquoted
      · have unquoted : ∀ d ∈ c :: tail, isQuote d = false := by
          simpa [isQuoted] using quoted
        have start := (isWord.first same).2 (unquoted c List.mem_cons_self)
        obtain ⟨rfl, words, ends⟩ :=
          word_of_read start (fun d member => unquoted d (List.mem_cons_of_mem _ member)) reads
        refine ⟨String.ofList (c :: tail), ⟨c, tail, String.toList_ofList, start, words⟩, ?_, ?_,
          .inr rfl, fun _ => ends⟩
        · rw [String.toList_ofList]
        · exact isSymbol_wordKind _
    have stop : (⟨kind, offset + width [], String.ofList (c :: tail)⟩ : Token).span.stop =
        offset + width [] + width (c :: tail) := by
      rw [span_stop, ← width_toList, String.toList_ofList]
    have delimits := spells.delimits_behind evident
      (fun other member => valid other (List.mem_cons_of_mem _ member)) stop noSymbol ends
    rw [← stop] at spells
    have split : bare text.toList ++ bare behind = bare word.toList ++ more := by
      rw [alike, ← bare_append, ← same]
      rfl
    obtain ⟨front, back⟩ := takeWhile_append_stop isText.isWordCharacter_bare (bare_stops delimits)
    obtain ⟨front', back'⟩ := takeWhile_append_stop isWord.isWordCharacter_bare stops
    rw [split] at front back
    have same : bare text.toList = bare word.toList := front.symm.trans front'
    have spelled : sameIgnoringCase (stripQuotes text) (stripQuotes word) = true :=
      same_iff_bare.mpr same
    rw [stripQuotes_eq_iff.mpr isText.isQuote_eq_false,
      stripQuotes_eq_iff.mpr isWord.isQuote_eq_false] at spelled
    refine ⟨⟨?_, ?_⟩, behind, spells, back.symm.trans back', delimits⟩
    · rcases named with identifier | rfl
      · exact .inl identifier
      · exact wordKind_cases spelled
    · have whole : bare (String.ofList (c :: tail)).toList = bare word.toList := by
        rw [String.toList_ofList, ← alike, same]
      have alike := same_iff_bare.mpr whole
      rwa [stripQuotes_eq_iff.mpr isWord.isQuote_eq_false] at alike

theorem Spells.eq_nil (spells : Spells rest offset front tokens) (none : front = []) :
    tokens = [] := by
  cases spells with
  | nil => rfl
  | cons => simp at none

/-- A word that is left without quotes and case begins where the text does. -/
theorem Spells.word_begins (spells : Spells rest offset front tokens) {word : String}
    (isWord : IsWord word) {more : List Char} (same : bare front = bare word.toList ++ more) :
    ∃ token others, tokens = token :: others ∧ token.start = offset := by
  cases spells with
  | nil =>
    obtain ⟨first, tail, chars, start, _⟩ := isWord
    rw [chars, bare_cons (isQuote_of_isWordCharacter (isWordCharacter_of_isStart start))] at same
    cases same
  | @cons _ gap tail front c kind others trivia reads spells =>
    refine ⟨_, _, rfl, ?_⟩
    cases gap with
    | nil => rfl
    | cons g gap =>
      have delimiter := (isDelimiter_of_gap trivia).1
      rw [(isWord.first same).1] at delimiter
      cases delimiter

/-- A point that is left without quotes and case is the point that stands there. -/
theorem Spells.exists_behind_point (spells : Spells rest offset front tokens)
    (delimits : ∀ d ∈ front.head?, isDelimiter d = true) {more : List Char}
    (same : bare front = '.' :: more) :
    ∃ point others behind, tokens = point :: others ∧ point.kind = .symbol .dot ∧
      Spells rest point.span.stop behind others ∧ bare behind = more := by
  have first {c : Char} {cs : List Char} (delimiter : isDelimiter c = true)
      (same : bare (c :: cs) = '.' :: more) : c = '.' ∧ bare cs = more := by
    simp only [isDelimiter, Bool.and_eq_true, Bool.not_eq_true'] at delimiter
    rw [bare_cons delimiter.2] at same
    obtain ⟨point, rest⟩ := List.cons.inj same
    exact ⟨eq_point_of_toLower point, rest⟩
  cases spells with
  | nil => cases same
  | @cons _ gap tail behind c kind others trivia reads spells =>
    cases gap with
    | nil =>
      obtain ⟨rfl, left⟩ := first (delimits c rfl) same
      rw [(read_point _).2] at reads
      obtain ⟨rfl, length⟩ := Prod.mk.inj reads
      obtain rfl := List.eq_nil_of_length_eq_zero length.symm
      exact ⟨_, _, behind, rfl, rfl, spells, left⟩
    | cons g gap =>
      obtain ⟨delimiter, noPoint⟩ := isDelimiter_of_gap trivia
      exact absurd (first delimiter same).1 noPoint

end Spelled

end Token

namespace Column
open Token Text

/-- The column can be written without quotes. -/
structure IsUnquoted (column : Column) : Prop extends column.IsPlain where
  starts : Expr.startsColumn (wordKind (column.owner.getD column.name)) = true

/-- The tokens are the column: its name, behind its owner and a point if it has an owner. -/
inductive IsReference (column : Column) : List Token → Prop where
  | name {token : Token} : column.owner = none → Expr.startsColumn token.kind = true →
      token.Names column.name → IsReference column [token]
  | owned {word : String} {owner point token : Token} : column.owner = some word →
      Expr.startsColumn owner.kind = true → owner.Names word → point.kind = .symbol .dot →
      token.Names column.name → IsReference column [owner, point, token]

theorem startsColumn_of_names {word : String} {token : Token} (names : token.Names word)
    (starts : Expr.startsColumn (wordKind word) = true) : Expr.startsColumn token.kind = true := by
  rcases names.kind with identifier | same
  · cases named : token.kind <;> simp_all [TokenKind.isIdentifier, Expr.startsColumn]
  · rw [same]
    exact starts

/-- Tokens that can be told are the column when the column is left of them without quotes and
case. -/
theorem IsUnquoted.isReference {column : Column} (unquoted : column.IsUnquoted) {offset : Nat}
    {front rest : List Char} {tokens : List Token} (spells : Spells rest offset front tokens)
    (evident : AreEvident tokens) (valid : ∀ token ∈ tokens, ∀ error, token.kind ≠ .invalid error)
    (same : bare front = bare column.text.toList) : column.IsReference tokens := by
  have ended {offset : Nat} {behind : List Char} {others : List Token}
      (spells : Spells rest offset behind others) (none : bare behind = [])
      (delimits : ∀ d ∈ behind.head?, isDelimiter d = true) : others = [] := by
    apply spells.eq_nil
    cases behind with
    | nil => rfl
    | cons c cs =>
      have delimiter := delimits c rfl
      simp only [isDelimiter, Bool.and_eq_true, Bool.not_eq_true'] at delimiter
      rw [bare_cons delimiter.2] at none
      cases none
  have starts := unquoted.starts
  have isName := unquoted.name
  cases owned : column.owner with
  | none =>
    rw [owned] at starts
    have whole : bare front = bare column.name.toList ++ [] := by
      rw [same, Column.text, owned, List.append_nil]
    obtain ⟨token, others, rfl, begins⟩ := spells.word_begins isName whole
    obtain ⟨names, behind, spells, none, delimits⟩ :=
      spells.exists_behind_word begins evident valid isName (by simp) whole
    obtain rfl := ended spells none delimits
    exact .name owned (startsColumn_of_names names starts) names
  | some word =>
    rw [owned] at starts
    have isOwner := unquoted.owner word owned
    have point : isQuote '.' = false := by decide
    have whole : bare front = bare word.toList ++ '.' :: bare column.name.toList := by
      rw [same, Column.text, owned]
      simp [bare_cons point]
    obtain ⟨token, others, rfl, begins⟩ := spells.word_begins isOwner whole
    obtain ⟨owner, behind, spells, left, delimits⟩ :=
      spells.exists_behind_word begins evident valid isOwner (by simp; decide) whole
    have valid : ∀ other ∈ others, ∀ error, other.kind ≠ .invalid error :=
      fun other member => valid other (List.mem_cons_of_mem _ member)
    obtain ⟨point, others, behind, rfl, isPoint, spells, left⟩ :=
      spells.exists_behind_point delimits left
    have whole : bare behind = bare column.name.toList ++ [] := by
      rw [left, List.append_nil]
    obtain ⟨last, others, rfl, begins⟩ := spells.word_begins isName whole
    obtain ⟨names, behind, spells, none, delimits⟩ :=
      spells.exists_behind_word begins evident.tail.tail
        (fun other member => valid other (List.mem_cons_of_mem _ member)) isName (by simp) whole
    obtain rfl := ended spells none delimits
    exact .owned owned (startsColumn_of_names owner starts) owner isPoint names

theorem IsUnquoted.of_mem_bare {column : Column} (unquoted : column.IsUnquoted) {d : Char}
    (member : d ∈ bare column.text.toList) : isWordCharacter d = true ∨ d = '.' := by
  have inName : d ∈ bare column.name.toList → isWordCharacter d = true :=
    unquoted.name.isWordCharacter_bare d
  have point : bare ".".toList = ['.'] := by decide
  unfold Column.text at member
  split at member
  · next owner owned =>
    rw [String.toList_append, String.toList_append, bare_append, bare_append, point] at member
    simp only [List.mem_append, List.mem_singleton] at member
    rcases member with (inOwner | isPoint) | inside
    · exact .inl ((unquoted.owner owner owned).isWordCharacter_bare d inOwner)
    · exact .inr isPoint
    · exact .inl (inName inside)
  · exact .inl (inName member)

end Column

namespace Projected
open Token Text

/-- The tokens of an expression stand together. -/
theorem Gives.infix {text : String} {projected : Projected} {tokens : List Token} {item : Item}
    (gives : projected.Gives text tokens item) : tokens <:+: projected.tokens := by
  have whole : projected.call ++ projected.text <:+: projected.tokens :=
    ⟨projected.comma, projected.named, by simp [Projected.tokens]⟩
  refine List.IsInfix.trans ?_ whole
  cases gives with
  | star | call => exact List.infix_append' [] _ _
  | plain _ are => exact are ▸ List.infix_refl _
  | aliased _ _ are =>
    rw [are]
    exact List.infix_append' [] _ _

/-- An item that is found for a column that needs no quotes is the column, if its tokens can be
told. -/
theorem Gives.isReference {text : String} {projected : Projected} {tokens : List Token}
    {item : Item} (gives : projected.Gives text tokens item) (among : tokens <:+: list text)
    (valid : ∀ token ∈ list text, ∀ error, token.kind ≠ .invalid error) {column : Column}
    (unquoted : column.IsUnquoted) (evident : AreEvident tokens)
    (same : bare item.expression.toList = bare column.text.toList) : column.IsReference tokens := by
  have ofSource (some : tokens ≠ [])
      (source : bare ((cover tokens).slice text).toList = bare column.text.toList) :
      column.IsReference tokens := by
    obtain ⟨token, others, rfl⟩ := List.exists_cons_of_ne_nil some
    obtain ⟨c, tail, after, quoted, spells, _⟩ := exists_piece among
    rw [quoted, String.toList_ofList] at source
    exact unquoted.isReference spells evident
      (fun token member => valid token (among.subset member)) source
  cases gives with
  | star =>
    have member : '*' ∈ bare "*".toList := by decide
    exact absurd (unquoted.of_mem_bare (same ▸ member)) (by decide)
  | @call call function group word is _ _ _ isGroup quotes _ =>
    -- The parenthesis of the arguments is no part of a column.
    obtain ⟨opening, others, rfl⟩ := List.exists_cons_of_ne_nil (Closing.ne_nil isGroup)
    have inside : opening :: others <:+: list text := by
      rw [is] at among
      exact List.IsInfix.trans ⟨[function], [], by simp⟩ among
    obtain ⟨c, tail, _, quoted, _, cs, reads⟩ := exists_piece inside
    obtain rfl := eq_of_read_leftParen (reads.trans isGroup.frontKind)
    have member : '(' ∈ bare (Item.aggregation call).expression.toList := by
      apply mem_bare (c := '(') ?_ (by decide)
      rw [Item.expression, Aggregation.expression, quotes, quoted, String.toList_append,
        String.toList_ofList]
      exact List.mem_append_right _ List.mem_cons_self
    exact absurd (unquoted.of_mem_bare (same ▸ member)) (by decide)
  | plain some => exact ofSource some (by rw [← same]; exact (bare_stripQuotes _).symm)
  | aliased some => exact ofSource some (by rw [← same]; exact (bare_stripQuotes _).symm)

/-- Which parts an average has is told by no token of its item. -/
theorem Tells.splitAverage {text : String} {projected : Projected} {item : Item}
    (tells : projected.Tells text item) (before : Nat) :
    projected.Tells text (item.splitAverage before).1 := by
  obtain ⟨tokens, gives⟩ := tells
  cases gives with
  | star isStar none => exact ⟨_, .star isStar none⟩
  | @call call _ _ _ is none function aggregate group argument named =>
    rw [Item.splitAverage]
    split
    · exact ⟨_, .call is none function aggregate group argument named⟩
    · exact ⟨_, .call is none function aggregate group argument named⟩
  | plain some are => exact ⟨_, .plain some are⟩
  | aliased some unnamed are => exact ⟨_, .aliased some unnamed are⟩

/-- Each item stands at the place of the tokens that it is read from. -/
theorem exists_mem_zip {text : String} {projecteds : List Projected} {items : List Item}
    (tell : List.Forall₂ (Tells text) projecteds items) {item : Item} (member : item ∈ items) :
    ∃ projected, (projected, item) ∈ projecteds.zip items ∧ projected ∈ projecteds ∧
      projected.Tells text item := by
  induction tell with
  | nil => cases member
  | @cons projected _ projecteds items tells _ ih =>
    rw [List.zip_cons_cons]
    rcases List.mem_cons.mp member with rfl | member
    · exact ⟨projected, List.mem_cons_self, List.mem_cons_self, tells⟩
    · obtain ⟨other, paired, inside, told⟩ := ih member
      exact ⟨other, List.mem_cons_of_mem _ paired, List.mem_cons_of_mem _ inside, told⟩

theorem tells_splitAverages {text : String} {projecteds : List Projected} {items : List Item}
    (tell : List.Forall₂ (Tells text) projecteds items) (before : Nat) :
    List.Forall₂ (Tells text) projecteds (Item.splitAverages before items) := by
  induction tell generalizing before with
  | nil => exact .nil
  | cons tells _ ih => exact .cons (tells.splitAverage before) (ih _)

end Projected

/-- The items of an accepted query are read from the parts of its projection list. -/
theorem Query.Describes.items_told {query : Query} {dialect : Dialect} {text : String}
    {statement : Statement} (describes : query.Describes dialect text statement) :
    List.Forall₂ (Projected.Tells text) query.items statement.items := by
  obtain ⟨middle, head, told⟩ := describes.told
  obtain ⟨parsed, rfl, _, _, _, other, again, resolves⟩ := describes.derived
  obtain ⟨_, rfl⟩ := head.unique again
  rw [← resolves.items] at told
  exact Projected.tells_splitAverages told 0

/-- How an item is found for a column: under the alias that is the column, or by its expression,
whose tokens are the column when they can be told. -/
inductive Item.Projects (column : Column) (aliasName : String) (tokens : List Token) (item : Item) :
    Prop where
  | named {own : String} : item.aliasName = some own →
      Text.sameIgnoringCase own (Text.stripQuotes column.text) = true →
      aliasName = Text.stripQuotes column.text → Projects column aliasName tokens item
  | expression : item.aliasName = some aliasName →
      Text.sameIgnoringCase (Text.stripQuotes item.expression) (Text.stripQuotes column.text) =
        true →
      (column.IsUnquoted → Token.AreEvident tokens → column.IsReference tokens) →
      Projects column aliasName tokens item

namespace Statement

/-- The alias that is told for a column is found at an item. -/
theorem exists_item {statement : Statement} {name aliasName : String}
    (told : statement.aliasOf? name = some aliasName) : ∃ item ∈ statement.items,
      (Text.sameIgnoringCase (Text.stripQuotes item.expression) (Text.stripQuotes name) = true ∧
          item.aliasName = some aliasName) ∨
        ∃ own, item.aliasName = some own ∧
          Text.sameIgnoringCase own (Text.stripQuotes name) = true ∧
          aliasName = Text.stripQuotes name := by
  unfold aliasOf? at told
  split at told
  · cases told
  · obtain ⟨item, member, found⟩ :=
      List.exists_of_findSome?_eq_some (Option.join_eq_some_iff.mp told)
    refine ⟨item, member, ?_⟩
    split at found
    · next same => exact .inl ⟨same, Option.some.inj found⟩
    · split at found
      · next named =>
        obtain ⟨own, is, same⟩ := (Option.any_eq_true _ _).mp named
        exact .inr ⟨own, is, same, (Option.some.inj (Option.some.inj found)).symm⟩
      · cases found

/-- A key has the alias that is told for its column. -/
theorem IsCompleted.aliasName_of_told {statement : Statement} (completed : statement.IsCompleted)
    {key : ColumnKey} (member : key ∈ statement.columnKeys) {aliasName : String}
    (told : statement.aliasOf? key.qualifiedName = some aliasName) :
    key.aliasName = some aliasName := by
  have noStar : statement.containsStar = false := by
    refine Bool.eq_false_iff.mpr fun star => ?_
    rw [aliasOf?_of_star star] at told
    cases told
  have given (stem : String) (others : List ColumnKey) :
      statement.keyAlias stem others key = some aliasName := by
    rw [keyAlias, noStar, told]
    rfl
  rcases List.mem_append.mp member with inOrder | inGroup
  · obtain ⟨ordered, inside, is⟩ := List.mem_filterMap.mp inOrder
    obtain ⟨front, behind, split⟩ := List.append_of_mem inside
    have found := completed.orderBy front ordered behind split
    cases ordered with
    | column other =>
      obtain rfl := Option.some.inj is
      exact found.trans (given _ _)
    | position => cases is
  · obtain ⟨front, behind, split⟩ := List.append_of_mem inGroup
    exact (completed.groupBy front key behind split).trans (given _ _)

/-- **A key is found in the item that it names.** A key that has its alias from the projection list
has it from an item with the alias that the key is, or from an item whose expression is left as the
key without quotes and case. Of the latter the tokens are the column of the key, with its owner if
it has one, wherever the key needs no quotes and the tokens can be told without theirs. -/
theorem keys_projected {dialect : Dialect} (shipped : dialect ∈ Dialect.shipped) {text : String}
    {statement : Statement} (accepted : ofText dialect text = .ok statement) :
    ∃ query : Query, query.Describes dialect text statement ∧
      query.items.length = statement.items.length ∧
      ∀ key ∈ statement.columnKeys, ∀ aliasName,
        statement.aliasOf? key.qualifiedName = some aliasName →
          key.aliasName = some aliasName ∧ ∃ projected item tokens,
            (projected, item) ∈ query.items.zip statement.items ∧
            projected.Gives text tokens item ∧ item.Projects key.column aliasName tokens := by
  have plain := Dialect.isPlain_of_shipped shipped
  obtain ⟨opened, _⟩ := ofText_ok accepted
  have valid := Cursor.valid_of_ofText opened
  obtain ⟨query, describes⟩ := exists_query plain accepted
  have tell := describes.items_told
  have completed := describes.isCompleted plain
  refine ⟨query, describes, tell.length_eq, ?_⟩
  intro key member aliasName told
  refine ⟨completed.aliasName_of_told member told, ?_⟩
  obtain ⟨item, among, found⟩ := exists_item told
  obtain ⟨projected, paired, inside, tokens, gives⟩ := Projected.exists_mem_zip tell among
  refine ⟨projected, item, tokens, paired, gives, ?_⟩
  rcases found with ⟨same, given⟩ | ⟨own, given, same, is⟩
  · refine .expression given same fun unquoted evident => ?_
    have inQuery : projected.tokens <:+: query.tokens :=
      (Token.infix_flatMap inside).trans
        ⟨query.opening ++ query.distinctOn, query.behind, by simp [Query.tokens, Query.projection]⟩
    have stands := gives.infix.trans inQuery
    rw [← describes.tokens] at stands
    exact gives.isReference stands valid unquoted evident (Text.same_iff_bare.mp same)
  · exact .named given same is

/-- A key is found in the item that names its column with quotes, and has the alias of that item. -/
theorem keys_projected_of_quoted :
    let text := "SELECT t.\"a\" AS b FROM t ORDER BY t.a"
    let key : ColumnKey := ⟨some "t", "a", .ascending, some "b"⟩
    Dialect.generic ∈ Dialect.shipped ∧ ∃ statement, ofText .generic text = .ok statement ∧
      statement.columnKeys = [key] ∧ statement.aliasOf? key.qualifiedName = some "b" ∧
      ∃ projected : Projected, ∃ tokens, projected.Gives text tokens (.plain "t.a" (some "b")) ∧
        Item.Projects key.column "b" tokens (.plain "t.a" (some "b")) := by
  have shipped : Dialect.generic ∈ Dialect.shipped := by simp [Dialect.shipped]
  have accepted : ofText .generic "SELECT t.\"a\" AS b FROM t ORDER BY t.a" = .ok
      { items := [.plain "t.a" (some "b")]
        tables := [⟨"t", none⟩]
        orderBy := [.column ⟨some "t", "a", .ascending, some "b"⟩]
        projectionEnd := 18
        edits := [.tableName 7 "t", .tableName 23 "t", .tableName 34 "t"] } := by
    decide +kernel
  obtain ⟨query, _, _, keys⟩ := keys_projected shipped accepted
  obtain ⟨_, projected, item, tokens, paired, gives, projects⟩ :=
    keys ⟨some "t", "a", .ascending, some "b"⟩ List.mem_cons_self "b" (by decide)
  obtain rfl : item = .plain "t.a" (some "b") := by
    simpa using (List.of_mem_zip paired).2
  exact ⟨shipped, _, accepted, rfl, by decide, projected, tokens, gives, projects⟩

/-- A literal is taken for the column that is left of it without quotes, and the key has the alias
of the literal. -/
theorem literal_taken_for_key :
    let text := "SELECT 'x' AS y FROM t ORDER BY x"
    let literal : Token := ⟨.string "x", 7, "'x'"⟩
    (Token.list text).take 3 =
        [⟨.keyword .SELECT, 0, "SELECT"⟩, literal, ⟨.keyword .AS, 11, "AS"⟩] ∧
      ofText .generic text = .ok
        { items := [.plain "x" (some "y")]
          tables := [⟨"t", none⟩]
          orderBy := [.column ⟨none, "x", .ascending, some "y"⟩]
          projectionEnd := 16
          edits := [.tableName 21 "t"] } ∧
      ¬ Column.IsReference ⟨none, "x"⟩ [literal] := by
  refine ⟨by decide, by decide +kernel, fun reference => ?_⟩
  cases reference with
  | name _ starts _ => cases starts

end Statement

end SelectRouting
