import SelectRouting.Proofs.DecodedNames
import SelectRouting.Proofs.Pieces
import SelectRouting.Proofs.TokenNumbers

/-!
# String literals in a text

The tokens around a string literal do not see what is written in it: with another literal in its place
a text has the same tokens before it, and behind it the same tokens further on
(`StringLiteral.exists_around`). A text that has no quotes and stands nowhere in the query can always be
written in the place of a literal (`StringLiteral.exists_fresh`).
-/

namespace SelectRouting

namespace Token
open Text

section Reading
variable {c : Char} {cs tail : List Char} {value : String} {length : Nat}

/-- Only what stands between single quotes is read as a string. -/
theorem read_of_string (reads : read c cs = (.string value, length)) :
    c = '\x27' ∧ readQuoted? '\x27' true cs = some (value.toList, length) := by
  have noName {close : Char} {doubling : Bool} :
      (readText close doubling .identifier .unterminatedIdentifier cs).1 ≠ .string value := by
    unfold readText
    split <;> simp
  have noBlob (cs : List Char) : (readBlob cs).1 ≠ .string value := by
    unfold readBlob
    dsimp only
    split
    · simp
    · split
      · simp
      · split <;> simp
  have noNumber : (readNumber c cs).1 ≠ .string value := by
    unfold readNumber
    dsimp only
    split
    · split <;> simp
    · split
      · split <;> simp
      · simp
  have noWord : (readWord c cs).1 ≠ .string value := by
    unfold readWord
    dsimp only
    split <;> simp
  unfold read at reads
  split at reads
  · cases congrArg Prod.fst reads
  split at reads
  · next quote =>
    refine ⟨beq_iff_eq.mp quote, ?_⟩
    rw [beq_iff_eq.mp quote] at reads
    unfold readText at reads
    split at reads
    · next inner _ found =>
      obtain ⟨is, rfl⟩ := Prod.mk.inj reads
      rw [found, ← TokenKind.string.inj is, String.toList_ofList]
    · cases congrArg Prod.fst reads
  split at reads
  · exact absurd (congrArg Prod.fst reads) noName
  split at reads
  · exact absurd (congrArg Prod.fst reads) noName
  split at reads
  · exact absurd (congrArg Prod.fst reads) (noBlob _)
  split at reads
  · exact absurd (congrArg Prod.fst reads) noNumber
  split at reads
  · exact absurd (congrArg Prod.fst reads) noWord
  split at reads
  · cases congrArg Prod.fst reads
  · cases congrArg Prod.fst reads

/-- A string as it is written and its value have the same characters besides quotes. -/
theorem IsLexed.stripQuotes_string {token : Token} (lexed : token.IsLexed)
    (is : token.kind = .string value) : stripQuotes token.lexeme = stripQuotes value := by
  obtain ⟨c, cs, named, written⟩ := lexed
  obtain ⟨rfl, quoted⟩ := read_of_string (Prod.ext (named.symm.trans is) rfl)
  rw [written, stripQuotes_ofList, stripQuotes, List.filter_cons_of_neg (by decide),
    filter_of_readQuoted (by decide) quoted]

/-- Characters without a quote up to a quote, behind which no other one stands, are quoted text. -/
theorem readQuoted?_append {close : Char} {doubling : Bool} {inner rest : List Char}
    (none : ∀ d ∈ inner, d ≠ close) (stops : rest.head? ≠ some close) :
    readQuoted? close doubling (inner ++ close :: rest) = some (inner, inner.length + 1) := by
  have absent : close ∉ inner := fun member => none close member rfl
  have found := @readQuoted?_escaped close doubling inner rest (.inr absent) fun _ => stops
  rwa [escaped_of_not_mem absent] at found

/-- Quoted text is read as a string. -/
theorem read_quote {inner rest : List Char} (none : ∀ d ∈ inner, d ≠ '\x27')
    (stops : rest.head? ≠ some '\x27') : read '\x27' ((inner ++ ['\x27']) ++ rest) =
      (.string (String.ofList inner), (inner ++ ['\x27']).length) := by
  have noDouble (cs : List Char) : cs.head?.bind (Symbol.double? '\x27') = .none :=
    Option.bind_eq_none_iff.mpr fun _ _ => rfl
  rw [read, noDouble, List.append_assoc]
  change readText '\x27' true .string .unterminatedString (inner ++ '\x27' :: rest) = _
  have length : (inner ++ ['\x27']).length = inner.length + 1 := List.length_append
  rw [readText, readQuoted?_append none stops, length]

theorem noTrivia_quote (cs : List Char) : Trivia.between.length ('\x27' :: cs) = 0 :=
  noTrivia_iff.mpr ⟨by decide, nofun, nofun⟩

/-- What ends before a single quote ends before each text that begins with one. -/
theorem Boundary.quotes (cs ds : List Char) : Boundary ('\x27' :: cs) ('\x27' :: ds) :=
  ⟨⟨fun _ => by simp, fun _ => rfl, fun _ => exponentPart?_of_head (by simp)⟩,
    fun stops => by simpa using stops, fun _ _ other => by simpa using other⟩

end Reading

end Token

/-- A string literal between two parts of a text. -/
structure StringLiteral (front back : String) where
  /-- The value of the literal. -/
  content : String
  /-- The literal as it is written. -/
  lexeme : String
  among : ⟨.string content, front.utf8ByteSize, lexeme⟩ ∈ Token.list (front ++ lexeme ++ back)

namespace StringLiteral
open Text Token

variable {front back : String}

/-- The text with the literal in it. -/
def text (literal : StringLiteral front back) : String :=
  front ++ literal.lexeme ++ back

/-- The token of the literal. -/
def token (literal : StringLiteral front back) : Token :=
  ⟨.string literal.content, front.utf8ByteSize, literal.lexeme⟩

theorem token_mem (literal : StringLiteral front back) : literal.token ∈ Token.list literal.text :=
  literal.among

theorem isLexed (literal : StringLiteral front back) : literal.token.IsLexed :=
  areLexed_list _ _ literal.token_mem

theorem stripQuotes_lexeme (literal : StringLiteral front back) :
    stripQuotes literal.lexeme = stripQuotes literal.content :=
  literal.isLexed.stripQuotes_string rfl

/-- How the literal is read: behind tokens that are spelled in front of it, up to a gap, and from its
quote up to what stands behind it. -/
structure Parts (literal : StringLiteral front back) where
  before : List Token
  start : List Char
  gap : List Char
  tail : List Char
  split : front.toList = start ++ gap
  lexeme_eq : literal.lexeme.toList = '\x27' :: tail
  spells : Spells (gap ++ '\x27' :: (tail ++ back.toList)) 0 start before
  trivia : Trivia.between.length (gap ++ '\x27' :: (tail ++ back.toList)) = gap.length
  reads : read '\x27' (tail ++ back.toList) = (.string literal.content, tail.length)

theorem exists_parts (literal : StringLiteral front back) : Nonempty literal.Parts := by
  obtain ⟨before, behind, are⟩ := List.append_of_mem literal.token_mem
  obtain ⟨start, rest, split, spells, more⟩ := exists_spells are
  obtain ⟨gap, c, tail, last, rfl, trivia, reads, begins, written, -⟩ := exists_first more
  obtain ⟨rfl, -⟩ := read_of_string reads
  have lexeme : literal.lexeme.toList = '\x27' :: tail := by
    rw [show literal.lexeme = _ from written, String.toList_ofList]
  have whole : front.toList ++ (literal.lexeme.toList ++ back.toList) =
      (start ++ gap) ++ '\x27' :: (tail ++ last) := by
    rw [← List.append_assoc, ← String.toList_append, ← String.toList_append, List.append_assoc start]
    exact split
  have place : width front.toList = width (start ++ gap) := by
    rw [width_toList, width_append, ← Nat.zero_add (width start)]
    exact begins
  have cut := splitAt?_width front.toList (literal.lexeme.toList ++ back.toList)
  rw [whole, place, splitAt?_width] at cut
  obtain ⟨same, behind⟩ := Prod.mk.inj (Option.some.inj cut)
  rw [lexeme] at behind
  obtain rfl : last = back.toList := by simpa using behind
  exact ⟨before, start, gap, tail, same.symm, lexeme, spells, trivia, reads⟩

section Parts
variable {literal : StringLiteral front back} {tail : List Char} {value : String}

theorem Parts.lexeme_ofList (parts : literal.Parts) :
    literal.lexeme = String.ofList ('\x27' :: parts.tail) := by
  rw [← parts.lexeme_eq, String.ofList_toList]

/-- With another literal in its place the same tokens stand before it. -/
theorem Parts.list_of_reads (parts : literal.Parts)
    (reads : read '\x27' (tail ++ back.toList) = (.string value, tail.length)) :
    Token.list (front ++ String.ofList ('\x27' :: tail) ++ back) =
      parts.before ++ ⟨.string value, front.utf8ByteSize, String.ofList ('\x27' :: tail)⟩ ::
        listFrom (front.utf8ByteSize + width ('\x27' :: tail)) 0 back.toList := by
  have place : front.utf8ByteSize = 0 + width parts.start + width parts.gap := by
    rw [← width_toList, parts.split, width_append, Nat.zero_add]
  have trivia := Trivia.length_before (by simp) parts.trivia (noTrivia_quote (tail ++ back.toList))
  have spells := (parts.spells.kept (by simp) (@Follows.behind_gap Token.lexeme (fun _ => false)
    (0 + width parts.start) [⟨.string value, front.utf8ByteSize, String.ofList ('\x27' :: tail)⟩]
    ('\x27' :: (parts.tail ++ back.toList)) ('\x27' :: (tail ++ back.toList)) parts.gap parts.trivia
    (by simp [place]) (by
      intro none
      exact .of_touching (by simp [place, none]) String.toList_ofList fun _ => ⟨rfl, .quotes _ _⟩))).1
  have whole : (front ++ String.ofList ('\x27' :: tail) ++ back).toList =
      parts.start ++ (parts.gap ++ '\x27' :: (tail ++ back.toList)) := by
    simp [parts.split]
  rw [Token.list, whole, spells.listFrom_append, listFrom_gap trivia,
    listFrom_token (noTrivia_quote _) reads, place]

end Parts

theorem quoted (literal : StringLiteral front back) :
    literal.lexeme.toList.head? = some '\x27' := by
  obtain ⟨parts⟩ := literal.exists_parts
  rw [parts.lexeme_eq, List.head?_cons]

/-- Two literals in the same place have the same tokens before them, and the same ones further on behind
them. -/
theorem exists_around (literal literal' : StringLiteral front back) : ∃ before behind behind',
    Token.list literal.text = before ++ literal.token :: behind ∧
      Token.list literal'.text = before ++ literal'.token :: behind' ∧
        behind.map Token.content = behind'.map Token.content := by
  obtain ⟨parts⟩ := literal.exists_parts
  obtain ⟨parts'⟩ := literal'.exists_parts
  have own := parts.list_of_reads parts.reads
  have other := parts.list_of_reads parts'.reads
  rw [← parts.lexeme_ofList] at own
  rw [← parts'.lexeme_ofList] at other
  exact ⟨parts.before, _, _, own, other, listFrom_content _ _ 0 back.toList⟩

/-- In the place of a literal another one can stand whose value is that of no other token and no star. -/
theorem exists_fresh (literal : StringLiteral front back) : ∃ fresh : StringLiteral front back,
    stripQuotes fresh.content ≠ "*" ∧ ∀ token ∈ Token.list fresh.text,
      stripQuotes token.lexeme = stripQuotes fresh.content → token = fresh.token := by
  obtain ⟨parts⟩ := literal.exists_parts
  let inner := List.replicate (literal.text.toList.length + 1) 'x'
  have plain : ∀ c ∈ inner, c = 'x' := fun c member => List.eq_of_mem_replicate member
  have reads := read_quote (fun c member => by rw [plain c member]; decide)
    (readQuoted_stops parts.tail (read_of_string parts.reads).2)
  obtain ⟨fresh, is⟩ : ∃ fresh : StringLiteral front back, fresh.content = String.ofList inner := by
    refine ⟨⟨_, String.ofList ('\x27' :: (inner ++ ['\x27'])), ?_⟩, rfl⟩
    rw [parts.list_of_reads reads]
    exact List.mem_append_right _ List.mem_cons_self
  have bare : stripQuotes fresh.content = String.ofList inner := by
    rw [is, stripQuotes_eq_iff, String.toList_ofList]
    intro c member
    rw [plain c member]
    decide
  refine ⟨fresh, ?_⟩
  rw [bare]
  refine ⟨fun star => ?_, fun token among same => ?_⟩
  · have first : 'x' ∈ (String.ofList inner).toList := by simp [inner]
    rw [star] at first
    revert first
    decide
  · -- Every other token is one of the text with the first literal too, and shorter than the new value.
    obtain ⟨before, behind, behind', own, other, shifted⟩ := literal.exists_around fresh
    by_contra apart
    obtain ⟨twin, inside, written⟩ : ∃ twin ∈ Token.list literal.text, twin.lexeme = token.lexeme := by
      rw [other] at among
      rw [own]
      rcases List.mem_append.mp among with member | member
      · exact ⟨token, List.mem_append_left _ member, rfl⟩
      · rcases List.mem_cons.mp member with rfl | member
        · exact absurd rfl apart
        · have content : token.content ∈ behind.map Token.content :=
            shifted ▸ List.mem_map_of_mem member
          obtain ⟨twin, inside, same⟩ := List.mem_map.mp content
          exact ⟨twin, List.mem_append_right _ (List.mem_cons_of_mem _ inside), congrArg Prod.snd same⟩
    obtain ⟨_, _, split, -⟩ := (tiles_list literal.text).within twin inside
    have size := congrArg List.length split
    have stripped := congrArg (fun text => text.toList.length) same
    have kept := List.length_filter_le (fun c => !isQuote c) token.lexeme.toList
    rw [List.length_append, List.length_append, written] at size
    simp only [stripQuotes, String.toList_ofList, inner, List.length_replicate] at stripped
    omega

end StringLiteral

end SelectRouting
