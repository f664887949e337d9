import SelectRouting.Proofs.AddedColumns
import SelectRouting.Proofs.Pieces

/-!
# Arguments of calls

The argument of a call in the projection list is quoted as it is written. It is a group of the tokens
of the query, and it spells the tokens of that group wherever else it is put
(`Query.Describes.isGroupText_of_part`).
-/

namespace SelectRouting

namespace Token
open Text

section Groups
variable {tokens others : List Token}

/-- Whether parentheses close does not depend on where they stand. -/
theorem Closing.of_content {depth : Nat} (closing : Closing depth tokens)
    (same : tokens.map content = others.map content) : Closing depth others := by
  induction closing generalizing others with
  | last closing =>
    obtain ⟨other, rest, rfl, is, none⟩ := List.map_eq_cons_iff.mp same.symm
    obtain rfl := List.map_eq_nil_iff.mp none
    exact .last ((kind_eq_of_content is).trans closing)
  | opens opening _ ih =>
    obtain ⟨other, rest, rfl, is, more⟩ := List.map_eq_cons_iff.mp same.symm
    exact .opens ((kind_eq_of_content is).trans opening) (ih more.symm)
  | closes closing _ ih =>
    obtain ⟨other, rest, rfl, is, more⟩ := List.map_eq_cons_iff.mp same.symm
    exact .closes ((kind_eq_of_content is).trans closing) (ih more.symm)
  | @other depth token tokens noOpening noClosing _ ih =>
    obtain ⟨other, rest, rfl, is, more⟩ := List.map_eq_cons_iff.mp same.symm
    have kind := kind_eq_of_content is
    exact .other (by rwa [kind]) (by rwa [kind]) (ih more.symm)

end Groups

section Places
variable {offset : Nat} {front rest : List Char} {tokens : List Token}

/-- A text ends where its last token does. -/
theorem Spells.stop (spells : Spells rest offset front tokens) :
    ∀ last ∈ tokens.getLast?, last.span.stop = offset + width front := by
  induction spells with
  | nil => simp
  | @cons offset gap tail front c kind tokens _ _ more ih =>
    cases tokens with
    | nil =>
      cases more
      simp [← width_toList]
      omega
    | cons token tokens =>
      rw [List.getLast?_cons_of_ne_nil (List.cons_ne_nil _ _)]
      simpa [Nat.add_assoc] using ih

/-- A text ends before a place that is behind all of its tokens. -/
theorem Spells.width_le {place : Nat} (spells : Spells rest offset front tokens)
    (least : offset ≤ place) (behind : ∀ token ∈ tokens, token.span.stop ≤ place) :
    offset + width front ≤ place := by
  cases last : tokens.getLast? with
  | none =>
    rw [List.getLast?_eq_none_iff.mp last] at spells
    cases spells
    exact least
  | some token =>
    rw [← spells.stop token last]
    exact behind token (List.mem_of_getLast? last)

/-- The only symbol that is read as an opening parenthesis. -/
theorem eq_of_read_leftParen {c : Char} {cs : List Char}
    (opens : (read c cs).1 = .symbol .leftParen) : c = '(' := by
  rcases read_cases c cs with written | ⟨mark, is, symbol⟩
  · rw [opens] at written
    cases written
  · obtain rfl := TokenKind.symbol.inj (is.symm.trans opens)
    rcases symbol with ⟨d, double⟩ | single
    · unfold Symbol.double? at double
      split at double <;> cases double
    · unfold Symbol.single? at single
      split at single <;> first | rfl | cases single

/-- No token ends behind the text that spells it. -/
theorem Spells.stop_le (spells : Spells rest offset front tokens) :
    ∀ token ∈ tokens, token.span.stop ≤ offset + width front := by
  induction spells with
  | nil => simp
  | @cons offset gap tail front c kind tokens _ _ _ ih =>
    intro token member
    simp only [width_append, width_cons]
    rcases List.mem_cons.mp member with rfl | member
    · rw [span_stop, ← width_toList, String.toList_ofList, width_cons]
      dsimp only
      omega
    · have bound := ih token member
      simp only [width_cons] at bound
      omega

/-- Without trivia in front the first token begins where the text does. -/
theorem Spells.start_eq {token : Token} (spells : Spells rest offset front (token :: tokens))
    (noTrivia : Trivia.between.length (front ++ rest) = 0) : token.start = offset := by
  cases spells with
  | @cons _ gap tail front c kind _ trivia _ _ =>
    rw [List.append_assoc, List.cons_append, List.append_assoc, trivia] at noTrivia
    rw [List.length_eq_zero_iff.mp noTrivia, width_nil, Nat.add_zero]

/-- What is quoted from the first of the tokens to the last one is the text that spells them. -/
theorem Spells.cover_slice {text : String} {before : List Char} {token : Token}
    (split : text.toList = before ++ (front ++ rest))
    (spells : Spells rest (width before) front (token :: tokens)) (begins : token.start = width before) :
    (cover (token :: tokens)).slice text = String.ofList front := by
  have covered : cover (token :: tokens) = ⟨width before, width before + width front⟩ := by
    obtain ⟨last, is⟩ := Option.isSome_iff_exists.mp
      (List.getLast?_isSome.mpr (List.cons_ne_nil token tokens))
    have ends := spells.stop last is
    rw [cover, is]
    simp only [List.head?_cons, Option.map_some, Option.getD_some, ends, begins]
  rw [covered, Span.slice, split, slice?_append]

/-- Tokens that stand together in a text are spelled by the part of the text that they cover. -/
theorem exists_piece {text : String} {token : Token} (among : token :: tokens <:+: list text) :
    ∃ c tail after, (cover (token :: tokens)).slice text = String.ofList (c :: tail) ∧
      Spells after token.start (c :: tail) (token :: tokens) ∧
      ∃ cs, (read c cs).1 = token.kind := by
  obtain ⟨first, behind, are⟩ := among
  rw [List.append_assoc] at are
  obtain ⟨before, cs, split, _, later⟩ := exists_spells are.symm
  obtain ⟨piece, after, rfl, spells, _⟩ := exists_spells later
  cases spells with
  | @cons _ gap tail front c kind _ trivia reads more =>
    rw [Nat.zero_add] at more ⊢
    have begins : Spells after (width (before ++ gap)) (c :: (tail ++ front))
        (⟨kind, width before + width gap, String.ofList (c :: tail)⟩ :: tokens) := by
      rw [width_append]
      exact .token (Trivia.length_behind (by simp) trivia) reads more
    have quoted := begins.cover_slice (show text.toList = _ by simp [split]) (width_append _ _).symm
    rw [width_append] at begins
    exact ⟨c, tail ++ front, after, quoted, begins, tail ++ (front ++ after), by rw [reads]⟩

end Places

/-- The text is a group of tokens, wherever it stands. -/
structure IsGroupText (text : String) : Prop where
  opens : text.toList.head? = some '('
  isGroup : IsGroup (list text)
  stands : Stands text.toList (list text)
  valid : ∀ token ∈ list text, ∀ error, token.kind ≠ .invalid error

/-- What is quoted of a group is the text of a group. -/
theorem IsGroup.isGroupText {text : String} {group : List Token} (isGroup : IsGroup group)
    (among : group <:+: list text)
    (valid : ∀ token ∈ list text, ∀ error, token.kind ≠ .invalid error) :
    IsGroupText ((cover group).slice text) := by
  obtain ⟨token, tokens, rfl⟩ := List.exists_cons_of_ne_nil (Closing.ne_nil isGroup)
  obtain ⟨c, tail, after, quoted, spells, cs, is⟩ := exists_piece among
  have stands := Stands.of_spells spells fun token member => valid token (among.subset member)
  rw [quoted]
  rw [← @String.toList_ofList (c :: tail)] at stands
  refine ⟨?_, Closing.of_content isGroup stands.list_eq.symm, stands.of_content stands.list_eq.symm,
    valid_of_content (fun token member => valid token (among.subset member)) stands.list_eq⟩
  have opens : (read c cs).1 = .symbol .leftParen := is.trans isGroup.frontKind
  rw [eq_of_read_leftParen opens, String.toList_ofList, List.head?_cons]

end Token

/-- The argument of the item, if it is a call, is a group of tokens of the text. -/
def Item.Quotes (text : String) (item : Item) : Prop :=
  ∀ call, item = .aggregation call → ∃ group, Token.IsGroup group ∧ group <:+: Token.list text ∧
    call.argument = (Token.cover group).slice text

/-- All tokens of a text that a cursor is opened on are valid. -/
theorem Cursor.valid_of_ofText {text : String} {cursor : Cursor} (opened : ofText text = .ok cursor) :
    ∀ token ∈ Token.list text, ∀ error, token.kind ≠ .invalid error := by
  intro token member error invalid
  unfold ofText at opened
  dsimp only at opened
  split at opened
  · cases opened
  · next none =>
    have passed := List.findSome?_eq_none_iff.mp none token member
    simp [invalid] at passed

namespace AnalysisStep
open Scan Step Cursor Analysis

variable {before after : Analysis} {dialect : Dialect} {position : Nat} {text : String}

/-- The argument of a call is quoted from the text. -/
theorem item_quotes (noWord : dialect.itemWord = none) {answer : Item}
    (same : before.cursor.text = text) (left : before.cursor.rest <:+ Token.list text)
    (answers : Yields (item dialect position) before answer after) : answer.Quotes text := by
  rintro call rfl
  obtain ⟨function, argument, behind, found, grouped, rfl⟩ : ∃ function argument behind,
      aggregateAt? before.cursor = some function ∧
        Yields group before.cursor.advance argument behind ∧ call.argument = argument := by
    generalize is : Item.aggregation call = answer at answers
    cases (yields_item noWord).mp answers with
    | call _ found grouped _ _ =>
      cases is
      exact ⟨_, _, _, found, grouped, rfl⟩
    | callInText _ _ _ _ plain =>
      obtain ⟨_, _, _, _, _, _, rfl, _⟩ := yields_plainItem.mp plain
      cases is
    | text _ _ _ plain =>
      obtain ⟨_, _, _, _, _, _, rfl, _⟩ := yields_plainItem.mp plain
      cases is
    | star => cases is
  obtain ⟨_, token, group, _, _, first, isGroup, second, quoted⟩ := group_of_call found grouped
  refine ⟨group, isGroup, ?_, by rw [quoted, Cursor.source, same]⟩
  have whole := (first.trans second).rest
  rw [List.append_assoc] at whole
  refine List.IsInfix.trans ?_ left.isInfix
  rw [whole]
  exact ⟨[token], behind.rest, by simp⟩

/-- The arguments of all calls in the projection list are quoted from the text. -/
theorem itemRounds_quote (noWord : dialect.itemWord = none)
    (same : before.cursor.text = text) (left : before.cursor.rest <:+ Token.list text)
    {answer : Unit} (ran : Rounds (itemRound dialect) position before answer after)
    (quoted : ∀ item ∈ before.statement.items, item.Quotes text) :
    ∀ item ∈ after.statement.items, item.Quotes text := by
  have step {position : Nat} {before after : Analysis} {round : Round Nat Unit}
      (same : before.cursor.text = text) (left : before.cursor.rest <:+ Token.list text)
      (quoted : ∀ item ∈ before.statement.items, item.Quotes text)
      (answers : Yields (itemRound dialect position) before round after) :
      ∀ item ∈ after.statement.items, item.Quotes text := by
    obtain ⟨value, between, first, items, _⟩ := itemRound_cases noWord answers
    intro item member
    rw [items] at member
    rcases List.mem_append.mp member with old | new
    · exact quoted item old
    · rw [List.mem_singleton.mp new]
      exact item_quotes noWord same left first
  induction ran with
  | done answers => exact step same left quoted answers
  | next answers _ ih =>
    obtain ⟨_, _, _, _, _, _, ⟨_, _, ended⟩ | ⟨_, _, _, reads, _⟩⟩ := itemRound_reads noWord answers
    · cases ended
    · refine ih (reads.moves.text.trans same) ?_ (step same left quoted answers)
      rw [reads.moves.rest] at left
      exact (List.suffix_append _ _).trans left

theorem head_quotes (plain : dialect.IsPlain)
    (answers : Yields (head dialect) { cursor := { text, rest := Token.list text } } () after) :
    ∀ item ∈ after.statement.items, item.Quotes text := by
  obtain ⟨token, cursor, opening, last, passes, _, words, ran, rfl⟩ := head_cases answers
  obtain ⟨_, _, _, reads⟩ := distinct_reads words
  have none : Keeps (fun s => s.items = []) (distinct dialect) := distinct_keeps (fun _ => id) dialect
  have start : opening.cursor.rest <:+ Token.list text := by
    have whole := passes.rest
    rw [reads.moves.rest] at whole
    dsimp only at whole
    rw [whole, ← List.append_assoc]
    exact List.suffix_append _ _
  have quoted : ∀ item ∈ last.statement.items, item.Quotes text :=
    itemRounds_quote plain.itemWord (reads.moves.text.trans passes.text) start ran (by
      rw [none.of_yields words rfl]
      simp)
  exact quoted

end AnalysisStep

/-- The parts of the averages are those of their calls. -/
theorem Item.exists_call_of_part {before : Nat} {items : List Item} {part : DerivedColumn}
    (member : part ∈ averageParts before items) :
    ∃ call number, .aggregation call ∈ items ∧ part ∈ call.parts number := by
  induction items generalizing before with
  | nil => cases member
  | cons item items ih =>
    have later {before : Nat} (member : part ∈ averageParts before items) :
        ∃ call number, .aggregation call ∈ item :: items ∧ part ∈ call.parts number := by
      obtain ⟨call, number, inside, own⟩ := ih member
      exact ⟨call, number, List.mem_cons_of_mem _ inside, own⟩
    cases item with
    | aggregation call =>
      rw [averageParts] at member
      split at member
      · rcases List.mem_append.mp member with own | others
        · exact ⟨call, before, List.mem_cons_self, own⟩
        · exact later others
      · exact later member
    | star | plain => exact later member

/-- The parts of a call are its count and its sum. -/
theorem Aggregation.part_cases {call : Aggregation} {number : Nat} {part : DerivedColumn}
    (member : part ∈ call.parts number) :
    part = ⟨.count, call.argument, "AVG_DERIVED_COUNT_" ++ toString number⟩ ∨
      part = ⟨.sum, call.argument, "AVG_DERIVED_SUM_" ++ toString number⟩ := by
  simp only [parts, List.mem_cons, List.not_mem_nil, or_false] at member
  exact member

namespace Query.Describes
variable {query : Query} {dialect : Dialect} {text : String} {statement : Statement}

/-- The arguments of the parts that are added are groups of the text. -/
theorem isGroupText_of_part (describes : query.Describes dialect text statement)
    (plain : dialect.IsPlain)
    (valid : ∀ token ∈ Token.list text, ∀ error, token.kind ≠ .invalid error) {part : DerivedColumn}
    (added : part ∈ statement.addedParts) : Token.IsGroupText part.argument := by
  obtain ⟨parsed, rfl, _, _, _, middle, head, resolves⟩ := describes.derived
  rw [Statement.addedParts_withDerivedColumns] at added
  obtain ⟨call, number, member, own⟩ := Item.exists_call_of_part (List.mem_of_mem_filter added)
  have argument : part.argument = call.argument := by
    rcases Aggregation.part_cases own with rfl | rfl <;> rfl
  rw [resolves.items] at member
  obtain ⟨group, isGroup, among, quoted⟩ := AnalysisStep.head_quotes plain head _ member call rfl
  rw [argument, quoted]
  exact isGroup.isGroupText among valid

end Query.Describes

end SelectRouting
