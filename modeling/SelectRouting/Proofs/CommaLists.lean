import SelectRouting.Proofs.QueryFronts
import SelectRouting.Proofs.QueryPassage

/-!
# Lists between commas

A list in a query is cut by the commas outside of parentheses into parts (`Token.parts`). The items of
the projection list are these parts: each item is read from the tokens of its part, all of them and no
others (`AnalysisStep.projection_parted`).
-/

namespace SelectRouting

namespace Token

/-- The tokens between the commas outside of parentheses, of which `depth` are open before the first
token. -/
def parts : (depth : Nat) → List Token → List (List Token)
  | _, [] => [[]]
  | depth, token :: tokens =>
    if depth = 0 ∧ token.kind = .symbol .comma then [] :: parts 0 tokens
    else (parts ((deepen? depth token).getD 0) tokens).modifyHead (token :: ·)

section Parts
variable {depth : Nat} {comma : Token} {tokens first rest : List Token}

/-- There is one part more than there are commas outside of parentheses. -/
theorem length_parts (depth : Nat) (tokens : List Token) :
    (parts depth tokens).length = (outside depth tokens).countP (·.kind == .symbol .comma) + 1 := by
  induction tokens generalizing depth with
  | nil => simp [parts]
  | cons token tokens ih =>
    unfold parts
    split
    · next stands =>
      obtain ⟨rfl, is⟩ := stands
      rw [outside, deepen?_of_other (by simp [is]) (by simp [is]), List.length_cons, ih,
        List.countP_cons_of_pos (by simp [is])]
      rfl
    · next elsewhere =>
      rw [List.length_modifyHead, ih]
      cases depth with
      | zero =>
        have other : ¬ (token.kind == .symbol .comma) = true := by simpa using elsewhere
        simp [outside, other]
      | succ depth => rw [outside]

/-- Tokens without such a comma are one part. -/
theorem Level.parts_eq (level : Level depth tokens) : parts depth tokens = [tokens] := by
  induction level with
  | nil => rfl
  | opens opening _ ih => simp [parts, opening, deepen?_of_opening opening, ih]
  | closes closing _ ih => simp [parts, deepen?_of_closing closing, ih]
  | other noOpening noClosing noComma _ ih =>
    rw [parts, if_neg fun stands => noComma stands.1 stands.2, deepen?_of_other noOpening noClosing,
      Option.getD_some, ih]
    rfl

/-- The first such comma ends the first part. -/
theorem Level.parts_append (level : Level depth first) (is : comma.kind = .symbol .comma) :
    parts depth (first ++ comma :: rest) = first :: parts 0 rest := by
  induction level with
  | nil => rw [List.nil_append, parts, if_pos ⟨rfl, is⟩]
  | opens opening _ ih => simp [parts, opening, deepen?_of_opening opening, ih]
  | closes closing _ ih => simp [parts, deepen?_of_closing closing, ih]
  | other noOpening noClosing noComma _ ih =>
    rw [List.cons_append, parts, if_neg fun stands => noComma stands.1 stands.2,
      deepen?_of_other noOpening noClosing, Option.getD_some, ih]
    rfl

theorem Balanced.isNested_append (balanced : Balanced first) (is : comma.kind = .symbol .comma)
    (nested : IsNested rest) : IsNested (first ++ comma :: rest) := by
  have single : IsNested [comma] := .of_other (by simp [is])
  exact balanced.isNested.append (single.append nested)

/-- Words and literals do not disturb the balance. -/
theorem Balanced.of_noSymbol (words : ∀ token ∈ tokens, token.kind.isSymbol = false) :
    Balanced tokens := by
  induction tokens with
  | nil => exact .nil
  | cons token tokens ih =>
    obtain ⟨noSymbol, words⟩ := List.forall_mem_cons.mp words
    refine .other ?_ ?_ ?_ (ih words) <;>
    · intro is
      simp [is, TokenKind.isSymbol] at noSymbol

end Parts

end Token

/-- An item of the projection list has no comma outside of its parentheses. -/
theorem Projected.Fits.balanced {item : Projected} {rest : List Token} (fits : item.Fits rest)
    (lexed : Token.AreLexed item.tokens) (noComma : item.comma = []) :
    Token.Balanced item.tokens := by
  have call : Token.Balanced item.call := by
    rcases fits.call with none | ⟨⟨star, is, stands⟩, _⟩ | ⟨function, group, word, is, named, _, grouped⟩
    · rw [none]
      exact .nil
    · have noMark (mark : Symbol) (other : mark ≠ .star) : star.kind ≠ .symbol mark := by
        rcases stands with symbol | quoted
        · simpa [symbol] using other.symm
        · have isLexed := lexed.left.left.right star (by simp [is])
          exact fun is => other (isLexed.eq_star_of_symbol is quoted)
      rw [is]
      exact .single (noMark _ nofun) (noMark _ nofun) (noMark _ nofun)
    · rw [is]
      exact .other (by simp [named]) (by simp [named]) (by simp [named]) (.of_group grouped)
  have named : Token.Balanced item.named := by
    rcases fits.named with none | named
    · rw [none]
      exact .nil
    · exact .of_noSymbol named.noSymbol
  rw [Projected.tokens, noComma, List.nil_append]
  exact (call.append fits.text).append named

namespace AnalysisStep
open Scan Step Cursor

variable {before after : Analysis} {dialect : Dialect}

/-- The values are read from the parts by the readers at the positions from `position` on: each passes
the tokens of its part, and a comma is passed between two. -/
inductive ReadsParts {α : Type} (reader : Nat → AnalysisStep α) :
    (position : Nat) → Cursor → List (List Token) → List α → Cursor → Prop where
  | last {position : Nat} {start stop : Analysis} {part : List Token} {value : α} :
      Yields (reader position) start value stop → Moves start.cursor part stop.cursor →
        ReadsParts reader position start.cursor [part] [value] stop.cursor
  | more {position : Nat} {start stop : Analysis} {part : List Token} {value : α} {comma : Token}
      {next behind : Cursor} {parts : List (List Token)} {values : List α} :
      Yields (reader position) start value stop → Moves start.cursor part stop.cursor →
        comma.kind = .symbol .comma → Moves stop.cursor [comma] next →
          ReadsParts reader (position + 1) next parts values behind →
            ReadsParts reader position start.cursor (part :: parts) (value :: values) behind

theorem ReadsParts.length_eq {α : Type} {reader : Nat → AnalysisStep α} {position : Nat}
    {cursor behind : Cursor} {parts : List (List Token)} {values : List α}
    (reads : ReadsParts reader position cursor parts values behind) : values.length = parts.length := by
  induction reads with
  | last => rfl
  | more _ _ _ _ _ ih => rw [List.length_cons, ih, List.length_cons]

/-- What holds of the answer at every position holds of the values at theirs. -/
theorem ReadsParts.of_getElem? {α : Type} {reader : Nat → AnalysisStep α} {position : Nat}
    {cursor behind : Cursor} {parts : List (List Token)} {values : List α} {P : Nat → α → Prop}
    (reads : ReadsParts reader position cursor parts values behind)
    (each : ∀ {position : Nat} {start stop : Analysis} {value : α},
      Yields (reader position) start value stop → P position value) :
    ∀ k value, values[k]? = some value → P (position + k) value := by
  induction reads with
  | last answers =>
    intro k value found
    obtain ⟨rfl, rfl⟩ : k = 0 ∧ _ = value := by simpa [List.getElem?_singleton] using found
    exact each answers
  | @more position _ _ _ _ _ _ _ _ _ answers _ _ _ _ ih =>
    intro k value found
    cases k with
    | zero =>
      obtain rfl := Option.some.inj found
      exact each answers
    | succ k =>
      rw [Nat.add_comm k, ← Nat.add_assoc]
      exact ih k value found

section Projection

/-- A call that is read as an item has the position at which it is read. -/
theorem position_of_item (noWord : dialect.itemWord = none) {position : Nat} {value : Item}
    (answers : Yields (item dialect position) before value after) :
    ∀ call, value = .aggregation call → call.position = position := by
  have plain {start : Nat} {afterValue : Bool} {before : Analysis}
      (answers : Yields (plainItem start afterValue) before value after) (call : Aggregation) :
      value ≠ .aggregation call := by
    obtain ⟨_, _, _, _, _, _, rfl, _⟩ := yields_plainItem.mp answers
    exact nofun
  rintro call rfl
  cases (yields_item noWord).mp answers with
  | call => rfl
  | callInText _ _ _ _ ran | text _ _ _ ran => exact absurd rfl (plain ran call)

/-- The items are read from the parts of the tokens that are passed, and are added to the statement. -/
theorem itemRounds_parted (noWord : dialect.itemWord = none) {position : Nat} {answer : Unit}
    (lexed : Token.AreLexed before.cursor.rest)
    (ran : Rounds (itemRound dialect) position before answer after) :
    ∃ tokens values, Moves before.cursor tokens after.cursor ∧ Token.IsNested tokens ∧
      ReadsParts (item dialect) position before.cursor (Token.parts 0 tokens) values after.cursor ∧
      after.statement.items = before.statement.items ++ values ∧
      after.statement.containsStar = (before.statement.containsStar || values.any Item.isStar) := by
  -- an item is one part, and leaves the items before it as they are
  have single {position : Nat} {before between : Analysis} {value : Item}
      (lexed : Token.AreLexed before.cursor.rest)
      (answers : Yields (item dialect position) before value between) :
      (∃ part, Moves before.cursor part between.cursor ∧ Token.Balanced part) ∧
        between.statement.items = before.statement.items ∧
        between.statement.containsStar = before.statement.containsStar := by
    obtain ⟨projected, noComma, fits, _, _, reads⟩ := item_reads noWord answers
    rw [reads.moves.rest] at lexed
    refine ⟨⟨_, reads.moves, fits.balanced lexed.left noComma⟩, ?_, ?_⟩
    · exact (item_keeps (P := fun s => s.items = before.statement.items) (fun _ _ => id) noWord
        position).of_yields answers rfl
    · exact (item_keeps (P := fun s => s.containsStar = before.statement.containsStar)
        (fun _ _ => id) noWord position).of_yields answers rfl
  induction ran with
  | @done position start _ _ answers =>
    obtain ⟨value, between, first, ⟨_, _, rfl⟩ | ⟨_, next, _⟩⟩ := yields_itemRound.mp answers
    · obtain ⟨⟨part, moves, balanced⟩, items, starred⟩ := single lexed first
      refine ⟨part, [value], moves, balanced.isNested, ?_, congrArg (· ++ [value]) items, ?_⟩
      · rw [Token.Level.parts_eq balanced]
        have reads : ReadsParts (item dialect) position start.cursor [part] [value] between.cursor :=
          .last first moves
        exact reads
      · simp [Analysis.add, starred]
    · cases next
  | next answers _ ih =>
    obtain ⟨value, between, first, ⟨_, ended, _⟩ | ⟨stands, same, rfl⟩⟩ := yields_itemRound.mp answers
    · cases ended
    · cases same
      obtain ⟨⟨part, moves, balanced⟩, items, starred⟩ := single lexed first
      obtain ⟨comma, is, _, passes⟩ := passes_advance stands (by simp) (by simp)
      rw [moves.rest, passes.rest] at lexed
      obtain ⟨tokens, values, more, nested, reads, added, starredMore⟩ := ih lexed.right.right
      refine ⟨part ++ comma :: tokens, value :: values, moves.trans (passes.toMoves.trans more),
        balanced.isNested_append is nested, ?_, ?_, ?_⟩
      · rw [Token.Level.parts_append balanced is]
        exact .more first moves is passes.toMoves reads
      · rw [added, List.append_cons]
        exact congrArg (· ++ [value] ++ values) items
      · rw [starredMore, List.any_cons, ← Bool.or_assoc]
        exact congrArg (· || value.isStar || values.any Item.isStar) starred

/-- The projection list is parted at the commas outside of parentheses. Each item is read from its part
alone, a call has the position of its part, and the list ends where the next token starts. -/
theorem projection_parted (shipped : dialect ∈ Dialect.shipped)
    (lexed : Token.AreLexed before.cursor.rest) (answers : Yields (projection dialect) before () after) :
    ∃ tokens items, Moves before.cursor tokens after.cursor ∧ Token.IsNested tokens ∧
      ReadsParts (item dialect) 1 before.cursor (Token.parts 0 tokens) items after.cursor ∧
      items.length = 1 + (Token.outside 0 tokens).countP (·.kind == .symbol .comma) ∧
      after.statement.items = before.statement.items ++ items ∧
      (∀ k call, items[k]? = some (.aggregation call) → call.position = k + 1) ∧
      (after.statement.containsStar = true ↔
        before.statement.containsStar = true ∨ ∃ aliasName, .star aliasName ∈ items) ∧
      after.statement.projectionEnd = after.cursor.start := by
  have noWord := (Dialect.isPlain_of_shipped shipped).itemWord
  obtain ⟨_, between, repeated, rest⟩ := yields_bind.mp answers
  rw [Step.yields_look_bind] at rest
  obtain rfl := yields_change.mp rest
  obtain ⟨tokens, items, moves, nested, reads, added, starred⟩ :=
    itemRounds_parted noWord lexed (rounds_of_rounding repeated)
  refine ⟨tokens, items, moves, nested, reads, ?_, added, fun k call found => ?_, ?_, rfl⟩
  · rw [reads.length_eq, Token.length_parts, Nat.add_comm]
  · rw [Nat.add_comm]
    exact reads.of_getElem? (position_of_item noWord) k _ found call rfl
  · rw [starred, Bool.or_eq_true, Item.any_isStar_iff]

/-- Commas inside the parentheses of a call do not part the list. -/
theorem projection_parted_of_calls :
    let text := "SELECT a, COUNT(b, c) n, f(c, d) AS x FROM t"
    let before : Analysis := { cursor := { text, rest := (Token.list text).tail } }
    ∃ after tokens, Yields (projection .generic) before () after ∧
      before.cursor.Moves tokens after.cursor ∧
      ReadsParts (item .generic) 1 before.cursor (Token.parts 0 tokens)
        [.plain "a" none, .aggregation ⟨.count, "(b, c)", some "n", 2, []⟩, .plain "f(c, d)" (some "x")]
        after.cursor := by
  intro text before
  have lexed : Token.AreLexed before.cursor.rest :=
    fun token among => Token.areLexed_list text token (List.mem_of_mem_tail among)
  have outcome : (projection .generic before).1 = .ok () ∧
      (projection .generic before).2.statement.items =
        [.plain "a" none, .aggregation ⟨.count, "(b, c)", some "n", 2, []⟩,
          .plain "f(c, d)" (some "x")] := by
    decide +kernel
  have answers : Yields (projection .generic) before () (projection .generic before).2 :=
    Prod.ext outcome.1 rfl
  obtain ⟨tokens, items, moves, _, reads, _, added, _⟩ :=
    projection_parted (by decide) lexed answers
  obtain rfl := added.symm.trans outcome.2
  exact ⟨_, tokens, answers, moves, reads⟩

end Projection

end AnalysisStep

end SelectRouting
