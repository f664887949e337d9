import SelectRouting.Proofs.AgreeingClauses
import SelectRouting.Proofs.LetterCase

/-!
# Projection lists that agree

The head of a query agrees on texts that are alike: the items are alike, the names before points are
recorded at places that are alike, and an item is empty in both texts or in none, for which the places
have to be in the same order (`Likeness.Ordered`).
-/

namespace SelectRouting

/-- A place stands before the tokens before which the places stand that are alike. -/
class Likeness.Ordered (like : Likeness) : Prop where
  le_iff : ∀ {place place' : Nat} {token token' : Token}, like.place place place' →
    Token.Like like token token' → (place ≤ token.start ↔ place' ≤ token'.start)

/-- Moreover tokens that are alike are the same but for the case of letters. -/
class Likeness.Spelled (like : Likeness) : Prop extends Ordered like where
  spelled : ∀ {token token' : Token}, Token.Like like token token' →
    Text.sameIgnoringCase token.lexeme token'.lexeme = true

theorem Likeness.place_max {like : Likeness} [like.Ordered] {place place' : Nat} {token token' : Token}
    (left : like.place place place') (right : Token.Like like token token') :
    like.place (max place token.start) (max place' token'.start) := by
  by_cases before : place ≤ token.start
  · rw [Nat.max_eq_right before, Nat.max_eq_right ((Ordered.le_iff left right).mp before)]
    exact right.span.start
  · have before' : ¬ place' ≤ token'.start := mt (Ordered.le_iff left right).mpr before
    rw [Nat.max_eq_left (Nat.le_of_not_le before), Nat.max_eq_left (Nat.le_of_not_le before')]
    exact left

section Like
variable (like : Likeness)

/-- The columns are calls of the same function with arguments that are alike, under the same alias. -/
structure DerivedColumn.Like (column other : DerivedColumn) : Prop where
  function : other.function = column.function
  argument : like.quote column.argument other.argument
  aliasName : other.aliasName = column.aliasName

/-- The calls are of the same function at the same position, with arguments, aliases and parts that are
alike. -/
structure Aggregation.Like (call other : Aggregation) : Prop where
  function : other.function = call.function
  argument : like.quote call.argument other.argument
  aliasName : Option.Rel like.text call.aliasName other.aliasName
  position : other.position = call.position
  derived : List.Forall₂ (DerivedColumn.Like like) call.derived other.derived

/-- The items are of the same kind, with expressions and aliases that are alike. -/
inductive Item.Like : Item → Item → Prop where
  | star {aliasName other : Option String} : Option.Rel like.text aliasName other →
      Like (.star aliasName) (.star other)
  | aggregation {call other : Aggregation} : Aggregation.Like like call other →
      Like (.aggregation call) (.aggregation other)
  | plain {expression expression' : String} {aliasName aliasName' : Option String} :
      like.quote expression expression' → Option.Rel like.text aliasName aliasName' →
      Like (.plain expression aliasName) (.plain expression' aliasName')

/-- The expressions have been passed equally far. -/
structure AnalysisStep.PlainItem.Like (item other : PlainItem) : Prop where
  depth : other.depth = item.depth
  stop : like.place item.stop other.stop
  afterValue : other.afterValue = item.afterValue
  aliasName : Option.Rel (fun found found' => Token.Like like found.1 found'.1 ∧
    like.place found.2 found'.2) item.aliasName other.aliasName

end Like

theorem Item.Like.aliasName {like : Likeness} {item other : Item} (alike : Item.Like like item other) :
    Option.Rel like.text item.aliasName other.aliasName := by
  cases alike with
  | star given => exact given
  | aggregation calls => exact calls.aliasName
  | plain _ given => exact given

theorem Aggregation.Like.parts {like : Likeness} {call other : Aggregation}
    (alike : Aggregation.Like like call other) (before : Nat) :
    List.Forall₂ (DerivedColumn.Like like) (call.parts before) (other.parts before) :=
  .cons ⟨rfl, alike.argument, rfl⟩ (.cons ⟨rfl, alike.argument, rfl⟩ .nil)

theorem Item.splitAverages_like {like : Likeness} {items items' : List Item}
    (alike : List.Forall₂ (Item.Like like) items items') (before : Nat) :
    List.Forall₂ (Item.Like like) (splitAverages before items) (splitAverages before items') := by
  induction alike generalizing before with
  | nil => exact .nil
  | cons first _ ih =>
    rw [splitAverages, splitAverages]
    cases first with
    | star given => exact .cons (.star given) (ih _)
    | plain same given => exact .cons (.plain same given) (ih _)
    | @aggregation call other calls =>
      have parted : Aggregation.Like like { call with derived := call.parts before }
          { other with derived := other.parts before } :=
        ⟨calls.function, calls.argument, calls.aliasName, calls.position, calls.parts before⟩
      have same : (other.function == .avg) = (call.function == .avg) := by rw [calls.function]
      rw [splitAverage, splitAverage]
      by_cases average : (call.function == .avg) = true
      · rw [if_pos average, if_pos (same.trans average)]
        exact .cons (.aggregation parted) (ih _)
      · rw [if_neg average, if_neg (same ▸ average)]
        exact .cons (.aggregation calls) (ih _)

theorem Item.averageParts_like {like : Likeness} {items items' : List Item}
    (alike : List.Forall₂ (Item.Like like) items items') (before : Nat) :
    List.Forall₂ (DerivedColumn.Like like) (averageParts before items)
      (averageParts before items') := by
  induction alike generalizing before with
  | nil => exact .nil
  | cons first _ ih =>
    cases first with
    | star | plain => exact ih _
    | aggregation calls =>
      rw [averageParts, averageParts, calls.function]
      split
      · exact List.rel_append (calls.parts before) (ih _)
      · exact ih _

theorem Item.Like.isStar_eq {like : Likeness} {item other : Item} (alike : Item.Like like item other) :
    other.isStar = item.isStar := by
  cases alike <;> rfl

/-- The relation of statements is kept by all that is recorded up to the end of the projection list. -/
class HeadRelation (like : outParam Likeness) (related : Statement → Statement → Prop) : Prop
    extends EditRelation like related where
  distinct : ∀ {s s' : Statement}, related s s' →
    related { s with distinct := true } { s' with distinct := true }
  items : ∀ {s s' : Statement} {item item' : Item}, related s s' → Item.Like like item item' →
    related { s with items := s.items ++ [item], containsStar := s.containsStar || item.isStar }
      { s' with items := s'.items ++ [item'], containsStar := s'.containsStar || item'.isStar }
  projectionEnd : ∀ {s s' : Statement} {stop stop' : Nat}, related s s' → like.place stop stop' →
    related { s with projectionEnd := stop } { s' with projectionEnd := stop' }

/-- A star has no case. -/
theorem Text.stripQuotes_beq_star {text text' : String} (same : sameIgnoringCase text text' = true) :
    (stripQuotes text' == "*") = (stripQuotes text == "*") := by
  have bare : lower (stripQuotes text) = lower (stripQuotes text') := by
    rw [← stripQuotes_lower, ← stripQuotes_lower, sameIgnoringCase_iff_lower.mp same]
  have letters := sameIgnoringCase_iff.mp (sameIgnoringCase_iff_lower.mpr bare)
  rw [Bool.eq_iff_iff, beq_iff_eq, beq_iff_eq, eq_star_iff, eq_star_iff, letters]

namespace AnalysisStep
open Scan Step Cursor

variable {like : Likeness}

section Kinds
variable {kind other : TokenKind}

theorem startsItem_eq (alike : TokenKind.Like like kind other) : startsItem other = startsItem kind := by
  cases alike <;> rfl

theorem aliasMayFollow_eq (alike : TokenKind.Like like kind other) :
    aliasMayFollow other = aliasMayFollow kind := by
  cases alike <;> rfl

theorem isShared_atTerminator : IsShared like atTerminator := by
  intro cursor other alike
  have kinds := alike.kind
  unfold atTerminator
  generalize cursor.kind = kind at kinds ⊢
  generalize other.kind = kind' at kinds ⊢
  cases kinds <;> rfl

theorem isShared_atItemEnd : IsShared like atItemEnd := by
  intro cursor other alike
  have kinds := alike.kind
  unfold atItemEnd
  rw [isShared_atTerminator alike]
  generalize cursor.kind = kind at kinds ⊢
  generalize other.kind = kind' at kinds ⊢
  cases kinds <;> rfl

theorem isShared_aggregateAt? : IsShared like aggregateAt? := by
  intro cursor other alike
  rw [aggregateAt?, aggregateAt?, (alike.peek 1).kind.sameShape_eq, alike.kind.keyword?_eq]

end Kinds

theorem depthBehind_agrees (depth : Nat) :
    Agrees like (Cursor.Like like) Eq (depthBehind depth) (depthBehind depth) := by
  unfold depthBehind
  have here : Agrees like (Cursor.Like like) (Cursor.Like like) (get : Scan Cursor) get :=
    ⟨fun before => ⟨.ok before, before⟩⟩
  refine .bind here fun cursor other alike => ?_
  have token := alike.current
  have kinds := alike.kind
  rw [isShared_opensSubquery alike]
  generalize cursor.kind = kind at kinds ⊢
  generalize other.kind = kind' at kinds ⊢
  cases kinds with
  | string | identifier => exact .pure rfl
  | same kind =>
    split
    · exact .ite (.throw_bind (.subquery token)) (.pure rfl)
    · refine .ite ?_ (.pure rfl)
      exact .bind (show Agrees like (Cursor.Like like) (fun _ _ => False) _ _ from fail_agrees _)
        fun _ _ => False.elim
    · exact .throw (.subquery token)
    · exact fail_agrees _
    · exact .pure rfl

theorem PlainItem.Like.pass {item item' : PlainItem} (alike : PlainItem.Like like item item')
    {token token' : Token} (tokens : Token.Like like token token') (depth : Nat) :
    PlainItem.Like like (item.pass token depth) (item'.pass token' depth) := by
  unfold PlainItem.pass
  by_cases outside : (depth == 0) = true
  · rw [if_pos outside, if_pos outside]
    refine ⟨rfl, tokens.span.stop, aliasMayFollow_eq tokens.kind, ?_⟩
    have last : Option.Rel (fun found found' : Token × Nat => Token.Like like found.1 found'.1 ∧
        like.place found.2 found'.2) (if item.afterValue then some (token, item.stop) else none)
        (if item'.afterValue then some (token', item'.stop) else none) := by
      rw [alike.afterValue]
      split
      · exact .some ⟨tokens, alike.stop⟩
      · exact .none
    have kinds := tokens.kind
    dsimp only
    generalize token.kind = kind at kinds ⊢
    generalize token'.kind = kind' at kinds ⊢
    cases kinds with
    | string | identifier => exact last
    | same kind =>
      split
      · exact last
      · exact last
      · exact .none
  · rw [if_neg outside, if_neg outside]
    exact ⟨rfl, tokens.span.stop, alike.afterValue, alike.aliasName⟩

variable [like.Lawful] {related : Statement → Statement → Prop}

theorem plainItemRound_agrees [EditRelation like related] {item item' : PlainItem}
    (alike : PlainItem.Like like item item') : Agrees like (Analysis.Like like related)
      (Round.Like (PlainItem.Like like) (PlainItem.Like like)) (plainItemRound item)
      (plainItemRound item') := by
  unfold plainItemRound
  rw [alike.depth]
  refine .bind_eq (.scan (seen isShared_atTerminator)) fun _ => .ite (.pure (.done alike)) ?_
  refine .bind (.scan (look_agrees fun _ _ alike => alike.current)) fun token token' tokens => ?_
  refine .bind_eq (.scan (depthBehind_agrees _)) fun depth => ?_
  have counted : Agrees like (Analysis.Like like related) Eq
      (modifyThe Analysis fun state => { state with cursor := state.cursor.countParameter })
      (modifyThe Analysis fun state => { state with cursor := state.cursor.countParameter }) :=
    ⟨fun before => ⟨.ok rfl, before.cursor.countParameter, before.statement⟩⟩
  have named (written : like.name token.lexeme token'.lexeme) : Agrees like
      (Analysis.Like like related) (Round.Like (PlainItem.Like like) (PlainItem.Like like))
      (do
        advance
        if ← look (·.at? (.symbol .dot)) then addEdit (.tableName token.start token.lexeme)
        return .next (item.pass token depth) : AnalysisStep (Round PlainItem PlainItem))
      (do
        advance
        if ← look (·.at? (.symbol .dot)) then addEdit (.tableName token'.start token'.lexeme)
        return .next (item'.pass token' depth)) := by
    refine .bind_eq (.scan advance_agrees) fun _ => ?_
    refine .bind_eq (.scan (seen (isShared_at? _))) fun _ =>
      .ite ?_ (.pure (.next (alike.pass tokens depth)))
    exact .bind_eq (addEdit_agrees tokens written) fun _ =>
      .pure (.next (alike.pass tokens depth))
  have unnamed : Agrees like (Analysis.Like like related)
      (Round.Like (PlainItem.Like like) (PlainItem.Like like))
      (do
        advance
        return .next (item.pass token depth) : AnalysisStep (Round PlainItem PlainItem))
      (do
        advance
        return .next (item'.pass token' depth)) :=
    .bind_eq (.scan advance_agrees) fun _ => .pure (.next (alike.pass tokens depth))
  rw [tokens.kind.eq_symbol]
  have kinds := tokens.kind
  have word := Likeness.Lawful.name_of_word tokens
  generalize token.kind = kind at kinds word ⊢
  generalize token'.kind = kind' at kinds ⊢
  cases kinds with
  | string => exact .ite (.bind_eq counted fun _ => unnamed) unnamed
  | identifier => exact .ite (.bind_eq counted fun _ => named (word rfl)) (named (word rfl))
  | same kind =>
    cases kind with
    | identifier => exact .ite (.bind_eq counted fun _ => named (word rfl)) (named (word rfl))
    | _ => exact .ite (.bind_eq counted fun _ => unnamed) unnamed

theorem plainItem_agrees [like.Ordered] [EditRelation like related] {token token' : Token}
    (begins : Token.Like like token token') (afterValue : Bool) :
    Agrees like (Analysis.Like like related) (Item.Like like) (plainItem token.start afterValue)
      (plainItem token'.start afterValue) := by
  unfold plainItem
  refine .bind (.scan (look_agrees fun _ _ alike => alike.previous.stop)) fun behind behind' ended => ?_
  have first : PlainItem.Like like { stop := max behind token.start, afterValue }
      { stop := max behind' token'.start, afterValue } :=
    ⟨rfl, Likeness.place_max ended begins, rfl, .none⟩
  refine .bind (.rounding (fun _ _ alike => plainItemRound_agrees alike) first) fun item item' alike => ?_
  have answered {aliasName aliasName' : Option String} {stop stop' : Nat}
      (aliased : Option.Rel like.text aliasName aliasName') (ends : like.place stop stop') :
      Agrees like (Analysis.Like like related) (Item.Like like)
        (do
          if stop ≤ token.start then fail .projectionItem
          return .plain (Text.stripQuotes (← look (·.source ⟨token.start, stop⟩))) aliasName :
            AnalysisStep Item)
        (do
          if stop' ≤ token'.start then fail .projectionItem
          return .plain (Text.stripQuotes (← look (·.source ⟨token'.start, stop'⟩))) aliasName') := by
    have order : stop ≤ token.start ↔ stop' ≤ token'.start := Likeness.Ordered.le_iff ends begins
    by_cases before : stop ≤ token.start
    · rw [if_pos before, if_pos (order.mp before)]
      exact .fail_bind
    · rw [if_neg before, if_neg (mt order.mpr before)]
      refine .bind (.scan (look_agrees fun _ _ alike => alike.quotes ⟨begins.span.start, ends⟩)) fun _ _ same => ?_
      exact .pure (.plain (Likeness.Lawful.stripQuotes_quote same) aliased)
  have found := alike.aliasName
  generalize item.aliasName = given at found ⊢
  generalize item'.aliasName = given' at found ⊢
  cases found with
  | none =>
    exact .bind (.scan aliasName_agrees) fun _ _ aliased => answered aliased alike.stop
  | some same => exact answered (.some (Likeness.Lawful.stripQuotes same.1.lexeme)) same.2

/-- The token at which an item proper begins, behind the word that the dialect allows before it. -/
def itemFront (dialect : Dialect) (cursor : Cursor) : Token :=
  match dialect.itemWord with
  | some word => if cursor.atWord? word then cursor.peek 1 else cursor.current
  | none => cursor.current

theorem itemFront_eq {dialect : Dialect} {word : String} (given : dialect.itemWord = some word)
    (cursor : Cursor) :
    itemFront dialect cursor = (if cursor.atWord? word then cursor.advance else cursor).current := by
  unfold itemFront
  rw [given]
  dsimp only
  split
  · exact (peek_advance cursor 0).symm
  · rfl

/-- At both cursors or at none an item begins with the word that the dialect allows before it, and
with all columns. -/
structure SameFront (dialect : Dialect) (cursor other : Cursor) : Prop where
  word : ∀ word, dialect.itemWord = some word → other.atWord? word = cursor.atWord? word
  star : (Text.stripQuotes (itemFront dialect other).lexeme == "*") =
    (Text.stripQuotes (itemFront dialect cursor).lexeme == "*")

/-- Where no word is allowed before an item, it is alike that begins with all columns in both texts
or in none. -/
theorem item_agreesAt_of_noWord [like.Ordered] [EditRelation like related] {dialect : Dialect}
    (noWord : dialect.itemWord = none) (position : Nat) {state state' : Analysis}
    (before : Analysis.Like like related state state')
    (stars : (Text.stripQuotes state'.cursor.lexeme == "*") =
      (Text.stripQuotes state.cursor.lexeme == "*")) :
    AgreesAt like (Analysis.Like like related) (Item.Like like) (item dialect position)
      (item dialect position) state state' := by
  unfold item
  rw [noWord]
  refine (AgreesAt.scan before (skipWhen_agreesAt before.cursor ?_)).bind ?_
  · exact congrArg₂ (· || ·) (isShared_at? _ before.cursor) stars
  rintro star _ after after' - - rfl before
  refine Agrees.runs (.ite ?_ ?_) before
  · exact .bind (.scan aliasName_agrees) fun _ _ aliased => .pure (.star aliased)
  · refine .bind (.scan (look_agrees fun _ _ alike => alike)) fun cursor other alike => ?_
    rw [isShared_aggregateAt? alike, startsItem_eq alike.kind]
    split
    · refine .bind_eq (.scan advance_agrees) fun _ => ?_
      refine .bind (.scan group_agrees) fun argument argument' same => ?_
      refine .bind_eq (.scan (seen isShared_atItemEnd)) fun _ =>
        .ite ?_ (plainItem_agrees alike.current _)
      exact .bind (.scan aliasName_agrees) fun _ _ aliased =>
        .pure (.aggregation ⟨rfl, same, aliased, rfl, .nil⟩)
    · exact .ite (plainItem_agrees alike.current _) .fail

/-- An item is alike where it begins with all columns in both texts or in none. -/
theorem item_agreesAt [like.Ordered] [EditRelation like related] (dialect : Dialect) (position : Nat)
    {state state' : Analysis} (before : Analysis.Like like related state state')
    (fronts : SameFront dialect state.cursor state'.cursor) :
    AgreesAt like (Analysis.Like like related) (Item.Like like) (item dialect position)
      (item dialect position) state state' := by
  have stars := fronts.star
  cases given : dialect.itemWord with
  | none =>
    unfold itemFront at stars
    rw [given] at stars
    exact item_agreesAt_of_noWord given position before stars
  | some word =>
    unfold item
    rw [given]
    refine (AgreesAt.scan before (skipWhen_agreesAt before.cursor (fronts.word word given))).bind ?_
    rintro _ _ after after' ran ran' - behind
    -- Behind its word an item is read as in a dialect that allows none.
    have noWord : Dialect.generic.itemWord = none := rfl
    refine item_agreesAt_of_noWord noWord position behind ?_
    rw [itemFront_eq given, itemFront_eq given] at stars
    have moved : after.cursor = _ := (skipped ran).2
    have moved' : after'.cursor = _ := (skipped ran').2
    rw [moved, moved']
    exact stars

/-- The states in which the items of a projection list are begun, each with the position of its
item. -/
inductive ItemStart (dialect : Dialect) (before : Analysis) : Nat → Analysis → Prop where
  | first {state : Analysis} : Yields (do expectKeyword .SELECT; distinct dialect : AnalysisStep Unit) before () state →
      ItemStart dialect before 1 state
  | next {position position' : Nat} {state after : Analysis} : ItemStart dialect before position state →
      Yields (itemRound dialect position) state (.next position') after →
      ItemStart dialect before position' after

/-- The words and the items of a projection list agree where the items begin in the same way. -/
theorem head_agreesAt [like.Ordered] [HeadRelation like related] (dialect : Dialect)
    {state state' : Analysis} (before : Analysis.Like like related state state')
    (fronts : ∀ {position : Nat} {begins begins' : Analysis}, ItemStart dialect state position begins →
      Analysis.Like like related begins begins' → SameFront dialect begins.cursor begins'.cursor) :
    AgreesAt like (Analysis.Like like related) Eq (head dialect) (head dialect) state state' := by
  have words : Agrees like (Analysis.Like like related) Eq (distinct dialect) (distinct dialect) := by
    unfold distinct
    refine .bind_eq (.scan (skipAnyKeyword_agrees _)) fun _ => .ite ?_ ?_
    · refine .bind_eq (change_agrees fun _ _ known => HeadRelation.distinct known) fun _ =>
        .ite ?_ (.pure rfl)
      exact .bind_eq (.scan (skipKeyword_agrees _)) fun _ =>
        .ite (.bind (.scan group_agrees) fun _ _ _ => .pure rfl) (.pure rfl)
    · exact .bind_eq (.scan (skipKeyword_agrees _)) fun _ => .pure rfl
  have round (position position' : Nat) (same : position = position') (begins begins' : Analysis)
      (before : Analysis.Like like related begins begins')
      (starts : ItemStart dialect state position begins) :
      AgreesAt like (Analysis.Like like related) (Round.Like Eq Eq) (itemRound dialect position)
        (itemRound dialect position') begins begins' := by
    subst same
    unfold itemRound
    refine (item_agreesAt dialect position before (fronts starts before)).bind ?_
    intro item item' _ _ _ _ alike behind
    refine Agrees.runs (.bind_eq (change_agrees fun _ _ known => HeadRelation.items known alike)
      fun _ => .bind_eq (.scan (skipSymbol_agrees _)) fun more => .pure ?_) behind
    cases more
    · exact .done rfl
    · exact .next rfl
  refine ((Agrees.scan (expectKeyword_agrees _)).runs before).bind ?_
  rintro _ _ _ _ begun - - before
  refine (words.runs before).bind ?_
  rintro _ _ _ _ asked - - before
  have first := @ItemStart.first dialect _ _ (yields_bind.mpr ⟨_, _, begun, asked⟩)
  refine (AgreesAt.rounding round (fun _ _ _ _ starts ran => .next starts ran) rfl before first).bind ?_
  rintro _ _ _ _ - - - before
  exact Agrees.runs (.bind (.scan (look_agrees fun _ _ alike => alike.start)) fun _ _ ends =>
    change_agrees fun _ _ known => HeadRelation.projectionEnd known ends) before

/-- Two queries that are alike are read in the same way where their items begin in the same way, to the
same error or to statements that are related, when their derived columns keep these related. -/
theorem select_agreesAt [like.Ordered] {given : Option String → Option String → Prop}
    [HeadRelation like related] [ClauseRelation like given related]
    (derived : ∀ s s', related s s' → related s.withDerivedColumns s'.withDerivedColumns)
    (dialect : Dialect) {state state' : Analysis} (before : Analysis.Like like related state state')
    (fronts : ∀ {position : Nat} {begins begins' : Analysis}, ItemStart dialect state position begins →
      Analysis.Like like related begins begins' → SameFront dialect begins.cursor begins'.cursor) :
    AgreesAt like (Analysis.Like like related) Eq (select dialect) (select dialect) state state' := by
  unfold select
  have clauses : Agrees like (Analysis.Like like related) Eq
      (do condition; groupBy; liftM (bodyEnd dialect) : AnalysisStep Unit)
      (do condition; groupBy; liftM (bodyEnd dialect)) :=
    .bind_eq condition_agrees fun _ => .bind_eq groupBy_agrees fun _ => .scan (bodyEnd_agrees dialect)
  have sourced : Agrees like (Analysis.Like like related) Eq sources sources :=
    .bind_eq source_agrees fun _ => .whileTrue joinRound_agrees
  have bodies : AgreesAt like (Analysis.Like like related) Eq (body dialect) (body dialect) state
      state' := by
    refine (head_agreesAt dialect before fronts).bind fun _ _ _ _ _ _ _ behind => Agrees.runs ?_ behind
    exact .bind_eq (.scan (skipKeyword_agrees _)) fun _ =>
      .ite (.bind_eq sourced fun _ => clauses) clauses
  refine bodies.bind fun _ _ _ _ _ _ _ behind => ?_
  exact Agrees.runs (.bind_eq (orderBy_agrees dialect) fun _ =>
    .bind_eq (trailingClauses_agrees dialect) fun _ => ending_agrees derived) behind

omit [like.Lawful] in
/-- Tokens that are alike begin the same items where they are the same but for the case of letters. -/
theorem SameFront.of_spelled [like.Spelled] {dialect : Dialect} {cursor other : Cursor}
    (alike : Cursor.Like like cursor other) : SameFront dialect cursor other := by
  have words (word : String) : other.atWord? word = cursor.atWord? word := by
    have same := Text.sameIgnoringCase_iff.mp (Likeness.Spelled.spelled alike.current)
    unfold Cursor.atWord? Text.sameIgnoringCase
    rw [Cursor.lexeme, Cursor.lexeme, same]
  refine ⟨fun word _ => words word, ?_⟩
  unfold itemFront
  split
  · next word _ =>
    rw [words word]
    split
    · exact Text.stripQuotes_beq_star (Likeness.Spelled.spelled (alike.peek 1))
    · exact Text.stripQuotes_beq_star (Likeness.Spelled.spelled alike.current)
  · exact Text.stripQuotes_beq_star (Likeness.Spelled.spelled alike.current)

/-- Two queries that are alike, and that have the same tokens but for the case of letters, are read in
the same way. -/
theorem select_agrees [like.Spelled] {given : Option String → Option String → Prop}
    [HeadRelation like related] [ClauseRelation like given related]
    (derived : ∀ s s', related s s' → related s.withDerivedColumns s'.withDerivedColumns)
    (dialect : Dialect) :
    Agrees like (Analysis.Like like related) Eq (select dialect) (select dialect) :=
  ⟨fun before => select_agreesAt derived dialect before fun _ alike => .of_spelled alike.cursor⟩

end AnalysisStep

/-- The first tokens that could not be read are alike. -/
theorem Cursor.firstLexicalError?_alike {like : Likeness} {tokens tokens' : List Token}
    (alike : List.Forall₂ (Token.Like like) tokens tokens') :
    Option.Rel (ParseError.Alike like) (firstLexicalError? tokens) (firstLexicalError? tokens') := by
  induction alike with
  | nil => exact .none
  | @cons token token' tokens tokens' first _ ih =>
    have kinds := first.kind
    unfold firstLexicalError? at ih ⊢
    rw [List.findSome?_cons, List.findSome?_cons]
    generalize token.kind = kind at kinds ⊢
    generalize token'.kind = kind' at kinds ⊢
    cases kinds with
    | string | identifier => exact ih
    | same kind =>
      cases kind with
      | invalid error => exact .some (.lexical error first)
      | _ => exact ih

theorem Cursor.firstLexicalError?_like {like : Likeness} {tokens tokens' : List Token}
    (alike : List.Forall₂ (Token.Like like) tokens tokens') :
    Option.Rel (ParseError.Like like) (firstLexicalError? tokens) (firstLexicalError? tokens') := by
  have found := firstLexicalError?_alike alike
  generalize firstLexicalError? tokens = error at found ⊢
  generalize firstLexicalError? tokens' = error' at found ⊢
  cases found with
  | none => exact .none
  | some same => exact .some same.like

end SelectRouting
