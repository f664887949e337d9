import SelectRouting.Proofs.Agreement
import SelectRouting.Proofs.Passage

/-!
# Scans and expressions that agree

Each reader of tokens and of expressions agrees with itself on cursors that are alike. An expression
is read in the same shape, with names that are alike (`ExprStep.expressionOf_agrees`).
-/

namespace SelectRouting

namespace Step
open Scan
variable {σ : Type} [HasCursor σ] [LawfulCursor σ] {property : Cursor → Bool} {before after : σ}

/-- A token is skipped where it has the property. -/
theorem skipped {answer : Bool}
    (ran : Yields (liftM (skipWhen property) : Step σ Bool) before answer after) :
    answer = property (HasCursor.cursor before) ∧ HasCursor.cursor after =
      if property (HasCursor.cursor before) then (HasCursor.cursor before).advance
      else HasCursor.cursor before := by
  obtain ⟨_, passed, rfl⟩ := yields_onCursor.mp ran
  rw [LawfulCursor.cursor_set]
  obtain ⟨stands, rfl, rfl⟩ | ⟨absent, rfl, rfl⟩ := yields_skipWhen.mp passed
  · rw [if_pos stands]
    exact ⟨stands.symm, rfl⟩
  · rw [absent, if_neg Bool.false_ne_true]
    exact ⟨rfl, rfl⟩

/-- Where nothing is skipped the state stays. -/
theorem unmoved_of_skip
    (ran : Yields (liftM (skipWhen property) : Step σ Bool) before false after) : after = before := by
  obtain ⟨_, passed, rfl⟩ := yields_onCursor.mp ran
  obtain ⟨-, none, -⟩ | ⟨-, -, rfl⟩ := yields_skipWhen.mp passed
  · cases none
  · exact LawfulCursor.set_cursor before

end Step

namespace Scan
open Step Cursor

variable {like : Likeness}

section Words

theorem skipWhen_agrees {property : Cursor → Bool} (shared : IsShared like property) :
    Agrees like (Like like) Eq (skipWhen property) (skipWhen property) :=
  ⟨fun before => skipWhen_agreesAt before (shared before)⟩

theorem skipSymbol_agrees (mark : Symbol) :
    Agrees like (Like like) Eq (skipSymbol mark) (skipSymbol mark) :=
  skipWhen_agrees (isShared_at? _)

theorem skipAnyKeyword_agrees (words : List Keyword) :
    Agrees like (Like like) Eq (skipAnyKeyword words) (skipAnyKeyword words) :=
  skipWhen_agrees (isShared_atKeyword? _)

theorem skipKeyword_agrees (word : Keyword) :
    Agrees like (Like like) Eq (skipKeyword word) (skipKeyword word) :=
  skipAnyKeyword_agrees [word]

theorem expectSymbol_agrees (mark : Symbol) :
    Agrees like (Like like) Eq (expectSymbol mark) (expectSymbol mark) :=
  .bind_eq (skipSymbol_agrees mark) fun _ => .ite (.pure rfl) (fail_agrees _)

theorem expectKeyword_agrees (word : Keyword) :
    Agrees like (Like like) Eq (expectKeyword word) (expectKeyword word) :=
  .bind_eq (skipKeyword_agrees word) fun _ => .ite (.pure rfl) (fail_agrees _)

end Words

variable [like.Lawful]

theorem parameter_agrees : Agrees like (Like like) like.count parameter parameter :=
  .bind_eq (expectSymbol_agrees .question) fun _ =>
    .bind (look_agrees fun _ _ alike => alike.parameters) fun _ _ counted =>
      .bind_eq countParameter_agrees fun _ => .pure counted

theorem groupRound_agrees (depth : Nat) :
    Agrees like (Like like) (Round.Like Eq Eq) (groupRound depth) (groupRound depth) := by
  unfold groupRound
  have passed (depth : Nat) : Agrees like (Like like) (Round.Like Eq Eq)
      (do advance; return if depth == 0 then .done () else .next depth : Scan (Round Nat Unit))
      (do advance; return if depth == 0 then .done () else .next depth) := by
    refine .bind_eq advance_agrees fun _ => .pure ?_
    split
    · exact .done rfl
    · exact .next rfl
  refine .bind (look_agrees fun _ _ alike => alike.kind) fun kind kind' alike => ?_
  cases alike with
  | string | identifier => exact passed _
  | same kind =>
    split
    · exact passed _
    · exact passed _
    · exact .bind_eq countParameter_agrees fun _ => passed _
    · exact .bind (show Agrees like (Like like) (fun _ _ => False) _ _ from fail_agrees _)
        fun _ _ => False.elim
    · exact passed _

/-- A group is passed, and what is quoted of it is alike. -/
theorem group_agrees : Agrees like (Like like) like.quote group group := by
  unfold group
  refine .bind_eq (seen (isShared_at? _)) fun _ => .ite ?_ (.pure Likeness.Lawful.quote_empty)
  refine .bind (look_agrees fun _ _ alike => alike.start) fun start start' begins => ?_
  refine .bind_eq (.rounding_eq groupRound_agrees) fun _ => look_agrees fun _ _ alike => ?_
  exact alike.quotes ⟨begins, alike.previous.stop⟩

theorem aliasName_agrees : Agrees like (Like like) (Option.Rel like.text) aliasName aliasName := by
  unfold aliasName
  have answered (isAlias : Bool) : Agrees like (Like like) (Option.Rel like.text)
      (if isAlias then do
          let written ← look (·.lexeme)
          advance
          return some (Text.stripQuotes written)
        else return none : Scan (Option String))
      (if isAlias then do
          let written ← look (·.lexeme)
          advance
          return some (Text.stripQuotes written)
        else return none) :=
    .ite (.bind (look_agrees fun _ _ alike => alike.lexeme) fun _ _ written =>
        .bind_eq advance_agrees fun _ => .pure (.some (Likeness.Lawful.stripQuotes written)))
      (.pure .none)
  refine .bind_eq (skipKeyword_agrees .AS) fun _ => .ite ?_ ?_
  · refine .bind_eq (seen fun cursor other alike => ?_) answered
    rw [isShared_atSymbolOrEnd alike]
  · refine .bind_eq (seen fun cursor other alike => ?_) answered
    have kinds := alike.kind
    generalize cursor.kind = kind at kinds ⊢
    generalize other.kind = kind' at kinds ⊢
    cases kinds <;> rfl

omit [like.Lawful] in
theorem join_agrees : Agrees like (Like like) Eq join join := by
  have announced : Agrees like (Like like) Eq joinAnnouncement joinAnnouncement := by
    unfold joinAnnouncement
    have outer : Agrees like (Like like) Eq (do let _ ← skipKeyword .OUTER; return true : Scan Bool)
        (do let _ ← skipKeyword .OUTER; return true) :=
      .bind_eq (skipKeyword_agrees _) fun _ => .pure rfl
    refine .bind_eq (skipKeyword_agrees _) fun _ => .ite ?_ ?_
    · exact .bind_eq (skipAnyKeyword_agrees _) fun _ => .ite outer (.pure rfl)
    · exact .bind_eq (skipAnyKeyword_agrees _) fun _ => .ite outer (skipAnyKeyword_agrees _)
  unfold join
  refine .bind_eq (skipSymbol_agrees _) fun _ => .ite (.pure rfl) ?_
  refine .bind_eq (skipAnyKeyword_agrees _) fun _ => .ite (.pure rfl) ?_
  refine .bind_eq announced fun _ => .ite ?_ (.pure rfl)
  exact .bind_eq (expectKeyword_agrees _) fun _ => .pure rfl

end Scan

section Like
variable (like : Likeness)

/-- The names are tokens that are alike, also as names. -/
inductive Name.Like : Name → Name → Prop where
  | ofToken {token token' : Token} : Token.Like like token token' →
      like.name token.lexeme token'.lexeme → Like (.ofToken token) (.ofToken token')

/-- The expressions have the same shape and names that are alike. -/
inductive Expr.Like : Expr → Expr → Prop where
  | number (value : Nat) : Like (.number value) (.number value)
  | identifier {name other : Name} : Name.Like like name other →
      Like (.identifier name) (.identifier other)
  | property {owner owner' name name' : Name} : Name.Like like owner owner' →
      Name.Like like name name' → Like (.property owner name) (.property owner' name')
  | other {span span' : Span} : Span.Like like span span' → Like (.other span) (.other span')

/-- The readers of expressions stand before tokens that are alike, and the qualifiers that they met are
alike. -/
structure ExprState.Like (state other : ExprState) : Prop where
  cursor : Cursor.Like like state.cursor other.cursor
  qualifiers : List.Forall₂ (Name.Like like) state.qualifiers other.qualifiers

end Like

theorem Name.Like.value {like : Likeness} [like.Lawful] {name other : Name}
    (alike : Name.Like like name other) : like.name name.value other.value := by
  cases alike with
  | ofToken _ named => exact Likeness.Lawful.stripQuotes_name named

namespace TokenKind.Like
variable {like : Likeness} {kind other : TokenKind}

theorem unaryPower?_eq (alike : Like like kind other) :
    Expr.unaryPower? other = Expr.unaryPower? kind := by
  cases alike <;> rfl

theorem binaryPower?_eq (alike : Like like kind other) :
    Expr.binaryPower? other = Expr.binaryPower? kind := by
  cases alike <;> rfl

theorem castPower?_eq (alike : Like like kind other) :
    Expr.castPower? other = Expr.castPower? kind := by
  cases alike <;> rfl

end TokenKind.Like

namespace ExprStep
open Scan Step Cursor

variable {like : Likeness}

instance (like : Likeness) : Relates like (ExprState.Like like) :=
  ⟨ExprState.Like.cursor, fun before alike => ⟨alike, before.qualifiers⟩⟩

theorem qualify_agrees {owner owner' : Name} (alike : Name.Like like owner owner') :
    Agrees like (ExprState.Like like) Eq (qualify owner) (qualify owner') where
  runs before := ⟨.ok rfl, before.cursor,
    List.rel_append before.qualifiers (.cons alike .nil)⟩

theorem spanningFrom_agrees {start start' : Nat} (begins : like.place start start') :
    Agrees like (ExprState.Like like) (Expr.Like like) (spanningFrom start) (spanningFrom start') :=
  .scan (look_agrees fun _ _ alike => .other ⟨begins, alike.previous.stop⟩)

/-- A name is taken where the current tokens are alike as names. -/
theorem takeName_agreesAt {state state' : ExprState} (alike : ExprState.Like like state state')
    (named : like.name state.cursor.lexeme state'.cursor.lexeme) :
    AgreesAt like (ExprState.Like like) (Name.Like like) takeName takeName state state' :=
  ⟨.ok (.ofToken alike.cursor.current named), alike.cursor.advance, alike.qualifiers⟩

theorem start_agrees : Agrees like (ExprState.Like like) like.place
    (liftM (look (·.start)) : ExprStep Nat) (liftM (look (·.start))) :=
  .scan (look_agrees fun _ _ alike => alike.start)

/-- The names read so far are alike, and both have an owner or none has. -/
def PartsLike (like : Likeness) (parts other : Option Name × Name) : Prop :=
  Option.Rel (Name.Like like) parts.1 other.1 ∧ Name.Like like parts.2 other.2

/-- Behind a point the current tokens are alike as names. -/
theorem name_behind_dot {state state' after after' : ExprState} (alike : ExprState.Like like state state')
    (ran : Yields (liftM (skipSymbol .dot) : ExprStep Bool) state true after)
    (ran' : Yields (liftM (skipSymbol .dot) : ExprStep Bool) state' true after') :
    like.name after.cursor.lexeme after'.cursor.lexeme := by
  obtain ⟨dot, moved⟩ := skipped ran
  obtain ⟨dot', moved'⟩ := skipped ran'
  rw [if_pos dot.symm] at moved
  rw [if_pos dot'.symm] at moved'
  have behind := alike.cursor.points 0 (at?_symbol.mp dot.symm)
  rw [← peek_advance, ← peek_advance] at behind
  rw [show after.cursor = _ from moved, show after'.cursor = _ from moved']
  exact behind

theorem nameRound_agrees {start start' : Nat} (begins : like.place start start')
    {parts other : Option Name × Name} (alike : PartsLike like parts other) :
    Agrees like (ExprState.Like like) (Round.Like (PartsLike like) (Expr.Like like))
      (nameRound start parts) (nameRound start' other) := by
  obtain ⟨owner, name⟩ := parts
  obtain ⟨owner', name'⟩ := other
  obtain ⟨owners, names⟩ := alike
  unfold nameRound
  refine ⟨fun before => (Agrees.scan (skipSymbol_agrees _)).runs before |>.bind ?_⟩
  rintro more _ after after' ran ran' rfl behind
  cases more with
  | false =>
    refine Agrees.runs ?_ behind
    cases owners with
    | none => exact .pure (.done (.identifier names))
    | some owners =>
      exact .bind_eq (qualify_agrees owners) fun _ => .pure (.done (.property owners names))
  | true =>
    have named := name_behind_dot before ran ran'
    refine (Agrees.scan (skipSymbol_agrees _)).runs behind |>.bind ?_
    rintro all _ here here' ran ran' rfl behind
    cases all with
    | true =>
      exact Agrees.runs (.bind_eq (qualify_agrees names) fun _ =>
        .bind (spanningFrom_agrees begins) fun _ _ same => .pure (.done same)) behind
    | false =>
      cases unmoved_of_skip ran
      cases unmoved_of_skip ran'
      refine .seeing fun ended ended' seen seen' => ?_
      obtain rfl : ended = ended' :=
        seen.trans ((isShared_atSymbolOrEnd behind.cursor).symm.trans seen'.symm)
      cases ended with
      | true => exact Agrees.fail_bind.runs behind
      | false =>
        exact (takeName_agreesAt behind named).bind fun _ _ _ _ _ _ same behind =>
          ⟨.ok (.next ⟨.some names, same⟩), behind⟩

theorem parameterName_agrees : Agrees like (ExprState.Like like) Eq parameterName parameterName := by
  have passed : Agrees like (ExprState.Like like) Eq (liftM advance : ExprStep Unit) (liftM advance) :=
    .scan advance_agrees
  refine .bind_eq passed fun _ => .bind_eq (.scan (skipSymbol_agrees _)) fun _ => ?_
  exact .bind_eq (.scan (seen isShared_atSymbolOrEnd)) fun _ => .ite .fail_bind passed

variable [like.Lawful]

theorem argumentsRound_agrees (depth : Nat) : Agrees like (ExprState.Like like) (Round.Like Eq Eq)
    (argumentsRound depth) (argumentsRound depth) := by
  unfold argumentsRound
  refine .seeing fun state state' before cursor other here there => ?_
  have alike : Cursor.Like like cursor other := here ▸ there ▸ before.cursor
  have subquery : other.opensSubquery = cursor.opensSubquery := isShared_opensSubquery alike
  have passed (depth : Nat) : Agrees like (ExprState.Like like) (Round.Like Eq Eq)
      (do advance; return .next depth : ExprStep (Round Nat Unit)) (do advance; return .next depth) :=
    .bind_eq (.scan advance_agrees) fun _ => .pure (.next rfl)
  have named (written : like.name cursor.lexeme other.lexeme) :
      AgreesAt like (ExprState.Like like) (Round.Like Eq Eq)
        (do
          let name ← takeName
          if ← look (·.at? (.symbol .dot)) then qualify name
          return .next depth : ExprStep (Round Nat Unit))
        (do
          let name ← takeName
          if ← look (·.at? (.symbol .dot)) then qualify name
          return .next depth) state state' := by
    subst here there
    refine (takeName_agreesAt before written).bind fun _ _ _ _ _ _ same after => Agrees.runs ?_ after
    refine .bind_eq (.scan (seen (isShared_at? _))) fun _ => .ite ?_ (.pure (.next rfl))
    exact .bind_eq (qualify_agrees same) fun _ => .pure (.next rfl)
  have token := alike.current
  have word : cursor.kind.isWord = true → _ := Likeness.Lawful.name_of_word token
  have kinds := alike.kind
  rw [subquery]
  generalize cursor.kind = kind at kinds word ⊢
  generalize other.kind = kind' at kinds ⊢
  cases kinds with
  | string => exact (passed _).runs before
  | identifier => exact named (word rfl)
  | same kind =>
    split
    · refine Agrees.runs (.ite (.throw_bind (.subquery token)) ?_) before
      exact passed _
    · refine Agrees.runs (.bind_eq (.scan advance_agrees) fun _ => .pure ?_) before
      split
      · exact .done rfl
      · exact .next rfl
    · exact Agrees.runs (.bind (.scan parameter_agrees) fun _ _ _ => .pure (.next rfl)) before
    · exact named (word rfl)
    · exact Agrees.runs .fail before
    · exact (passed _).runs before

theorem arguments_agrees : Agrees like (ExprState.Like like) Eq arguments arguments :=
  .rounding_eq argumentsRound_agrees

/-- A column or a call is read where the current tokens are alike as names. -/
theorem name_agreesAt {state state' : ExprState} (alike : ExprState.Like like state state')
    (named : like.name state.cursor.lexeme state'.cursor.lexeme) :
    AgreesAt like (ExprState.Like like) (Expr.Like like) name name state state' := by
  have begins := alike.cursor.start
  refine .seeing fun start start' here there => ?_
  subst here there
  refine (takeName_agreesAt alike named).bind fun _ _ _ _ _ _ same after => ?_
  refine Agrees.runs (.bind_eq (.scan (seen (isShared_at? _))) fun _ => .ite ?_ ?_) after
  · exact .bind_eq arguments_agrees fun _ => spanningFrom_agrees begins
  · exact .rounding (fun _ _ alike => nameRound_agrees begins alike) ⟨.none, same⟩

theorem cast_agrees : Agrees like (ExprState.Like like) Eq cast cast := by
  have typed : Agrees like (ExprState.Like like) Eq (do advance; let _ ← group : ExprStep Unit)
      (do advance; let _ ← group) :=
    .bind_eq (.scan advance_agrees) fun _ => .bind (.scan group_agrees) fun _ _ _ => .pure rfl
  refine .bind_eq (.scan (expectSymbol_agrees _)) fun _ => ?_
  exact .bind_eq (.scan (seen isShared_atSymbolOrEnd)) fun _ => .ite .fail_bind typed

section Nested
variable {nested nested' : Nat → ExprStep Expr}
  (inner : ∀ power, Agrees like (ExprState.Like like) (Expr.Like like) (nested power) (nested' power))
include inner

omit [like.Lawful] in
theorem parenthesized_agrees :
    Agrees like (ExprState.Like like) Eq (parenthesized nested) (parenthesized nested') := by
  unfold parenthesized
  have listed : Agrees like (ExprState.Like like) Eq (do
      unless ← skipSymbol .rightParen do
        Step.whileTrue do
          let _ ← nested 0
          skipSymbol .comma
        expectSymbol .rightParen : ExprStep Unit) (do
      unless ← skipSymbol .rightParen do
        Step.whileTrue do
          let _ ← nested' 0
          skipSymbol .comma
        expectSymbol .rightParen) := by
    refine .bind_eq (.scan (skipSymbol_agrees _)) fun _ => .ite (.pure rfl) ?_
    refine .bind_eq (.whileTrue ?_) fun _ => .scan (expectSymbol_agrees _)
    exact .bind (inner 0) fun _ _ _ => .scan (skipSymbol_agrees _)
  refine .bind (.scan (look_agrees fun _ _ alike => alike.current)) fun _ _ opening => ?_
  refine .bind_eq (.scan (expectSymbol_agrees _)) fun _ => ?_
  exact .bind_eq (.scan (seen (isShared_atKeyword? _))) fun _ =>
    .ite (.throw_bind (.subquery opening)) listed

omit [like.Lawful] in
theorem conditional_agrees :
    Agrees like (ExprState.Like like) Eq (conditional nested) (conditional nested') := by
  unfold conditional
  have ended : Agrees like (ExprState.Like like) Eq
      (liftM (expectKeyword .END) : ExprStep Unit) (liftM (expectKeyword .END)) :=
    .scan (expectKeyword_agrees _)
  have branches : Agrees like (ExprState.Like like) Eq (do
      unless ← look (·.atKeyword? [.WHEN]) do fail (.keyword .WHEN)
      Step.whileTrue do
        if ← skipKeyword .WHEN then
          let _ ← nested 0
          expectKeyword .THEN
          let _ ← nested 0
          return true
        else return false
      if ← skipKeyword .ELSE then
        let _ ← nested 0
      expectKeyword .END : ExprStep Unit) (do
      unless ← look (·.atKeyword? [.WHEN]) do fail (.keyword .WHEN)
      Step.whileTrue do
        if ← skipKeyword .WHEN then
          let _ ← nested' 0
          expectKeyword .THEN
          let _ ← nested' 0
          return true
        else return false
      if ← skipKeyword .ELSE then
        let _ ← nested' 0
      expectKeyword .END) := by
    refine .bind_eq (.scan (seen (isShared_atKeyword? _))) fun _ => .ite ?_ .fail_bind
    refine .bind_eq (.whileTrue ?_) fun _ => ?_
    · refine .bind_eq (.scan (skipKeyword_agrees _)) fun _ => .ite ?_ (.pure rfl)
      exact .bind (inner 0) fun _ _ _ => .bind_eq (.scan (expectKeyword_agrees _)) fun _ =>
        .bind (inner 0) fun _ _ _ => .pure rfl
    · exact .bind_eq (.scan (skipKeyword_agrees _)) fun _ =>
        .ite (.bind (inner 0) fun _ _ _ => ended) ended
  refine .bind_eq (.scan (expectKeyword_agrees _)) fun _ => ?_
  refine .bind_eq (.scan (seen (isShared_atKeyword? _))) fun _ => .ite branches ?_
  exact .bind (inner 0) fun _ _ _ => branches

theorem primary_agrees :
    Agrees like (ExprState.Like like) (Expr.Like like) (primary nested) (primary nested') := by
  unfold primary
  refine .seeing fun state state' before cursor other here there => ?_
  have alike : Cursor.Like like cursor other := here ▸ there ▸ before.cursor
  have token := alike.current
  have literal : Agrees like (ExprState.Like like) (Expr.Like like)
      (do advance; return .other cursor.current.span : ExprStep Expr)
      (do advance; return .other other.current.span) :=
    .bind_eq (.scan advance_agrees) fun _ => .pure (.other token.span)
  have variable' : Agrees like (ExprState.Like like) (Expr.Like like)
      (do parameterName; spanningFrom cursor.current.start)
      (do parameterName; spanningFrom other.current.start) :=
    .bind_eq parameterName_agrees fun _ => spanningFrom_agrees token.span.start
  have named (word : cursor.current.kind.isWord = true) :
      AgreesAt like (ExprState.Like like) (Expr.Like like) name name state state' := by
    have written := Likeness.Lawful.name_of_word token word
    subst here there
    exact name_agreesAt before written
  have kinds := token.kind
  dsimp only
  rw [(alike.peek 1).kind.eq_symbol]
  generalize cursor.current.kind = kind at kinds named ⊢
  generalize other.current.kind = kind' at kinds ⊢
  cases kinds with
  | string => exact literal.runs before
  | identifier => exact named rfl
  | same kind =>
    split
    · exact Agrees.runs (.bind_eq (.scan advance_agrees) fun _ => .pure (.number _)) before
    · exact literal.runs before
    · exact literal.runs before
    · exact literal.runs before
    · exact literal.runs before
    · exact literal.runs before
    · exact literal.runs before
    · exact Agrees.runs (.bind (.scan parameter_agrees) fun _ _ _ => .pure (.other token.span)) before
    · exact variable'.runs before
    · exact variable'.runs before
    · exact Agrees.runs (.bind_eq (parenthesized_agrees inner) fun _ =>
        spanningFrom_agrees token.span.start) before
    · exact Agrees.runs (.throw (.subquery token)) before
    · exact Agrees.runs (.bind_eq (conditional_agrees inner) fun _ =>
        spanningFrom_agrees token.span.start) before
    · exact named rfl
    · split
      · exact Agrees.runs (.bind_eq (.scan advance_agrees) fun _ => .bind_eq arguments_agrees fun _ =>
          spanningFrom_agrees token.span.start) before
      · split
        · exact named rfl
        · exact Agrees.fail.runs before
    · exact Agrees.fail.runs before

theorem operand_agrees :
    Agrees like (ExprState.Like like) (Expr.Like like) (operand nested) (operand nested') := by
  unfold operand
  refine .bind start_agrees fun _ _ begins => ?_
  refine .bind (.scan (look_agrees fun _ _ alike => alike.kind)) fun kind kind' kinds => ?_
  rw [kinds.unaryPower?_eq]
  split
  · exact .bind_eq (.scan advance_agrees) fun _ => .bind (inner _) fun _ _ _ =>
      spanningFrom_agrees begins
  · exact primary_agrees inner

theorem operation_agrees (power : Nat) :
    Agrees like (ExprState.Like like) Eq (operation nested power) (operation nested' power) := by
  unfold operation
  have operand : Agrees like (ExprState.Like like) Eq (do let _ ← nested power : ExprStep Unit)
      (do let _ ← nested' power) :=
    .bind (inner power) fun _ _ _ => .pure rfl
  have passed : Agrees like (ExprState.Like like) Eq
      (do advance; let _ ← nested power : ExprStep Unit) (do advance; let _ ← nested' power) :=
    .bind_eq (.scan advance_agrees) fun _ => operand
  refine .bind_eq (.scan (skipKeyword_agrees _)) fun _ => ?_
  refine .bind (.scan (look_agrees fun _ _ alike => alike.kind)) fun kind kind' kinds => ?_
  cases kinds with
  | string | identifier => exact passed
  | same kind =>
    split
    · refine .bind_eq (.scan advance_agrees) fun _ => .bind_eq (.scan (skipKeyword_agrees _)) fun _ => ?_
      exact .bind_eq (.scan (skipAnyKeyword_agrees _)) fun _ => .ite (.pure rfl) .fail
    · refine .bind_eq (.scan advance_agrees) fun _ => ?_
      exact .bind_eq (.scan (seen (isShared_at? _))) fun _ =>
        .ite (parenthesized_agrees inner) .fail_bind
    · exact .bind_eq (.scan advance_agrees) fun _ => .bind (inner _) fun _ _ _ =>
        .bind_eq (.scan (expectKeyword_agrees _)) fun _ => operand
    · refine .bind_eq (.scan advance_agrees) fun _ => .bind (inner _) fun _ _ _ => ?_
      exact .bind_eq (.scan (seen (isShared_atWord? (by decide)))) fun _ => .ite passed (.pure rfl)
    · exact passed

theorem expressionRound_agrees (power : Nat) {start start' : Nat} (begins : like.place start start')
    {left left' : Expr} (alike : Expr.Like like left left') :
    Agrees like (ExprState.Like like) (Round.Like (Expr.Like like) (Expr.Like like))
      (expressionRound nested power start left) (expressionRound nested' power start' left') := by
  unfold expressionRound
  refine .bind (.scan (look_agrees fun _ _ alike => alike)) fun cursor other same => ?_
  have lone : atLoneNot other = atLoneNot cursor := by
    have next := (same.peek 1).kind
    rw [atLoneNot, atLoneNot]
    refine congrArg₂ (· && ·) (isShared_atKeyword? _ same) ?_
    generalize (cursor.peek 1).kind = kind at next ⊢
    generalize (other.peek 1).kind = kind' at next ⊢
    cases next <;> rfl
  rw [lone, same.kind.castPower?_eq, same.kind.binaryPower?_eq]
  split
  · refine .ite (.pure (.done alike)) ?_
    exact .bind_eq cast_agrees fun _ => .bind (spanningFrom_agrees begins) fun _ _ same =>
      .pure (.next same)
  · refine .ite (.pure (.done alike)) ?_
    exact .bind_eq (operation_agrees inner _) fun _ =>
      .bind (spanningFrom_agrees begins) fun _ _ same => .pure (.next same)
  · exact .pure (.done alike)

theorem expressionWith_agrees (power : Nat) :
    Agrees like (ExprState.Like like) (Expr.Like like) (expressionWith nested power)
      (expressionWith nested' power) :=
  .bind start_agrees fun _ _ begins => .bind (operand_agrees inner) fun _ _ alike =>
    .rounding (fun _ _ same => expressionRound_agrees inner _ begins same) alike

end Nested

/-- By induction on how deep expressions are nested in each other. -/
theorem expressionWithin_agrees (depth power : Nat) : Agrees like (ExprState.Like like)
    (Expr.Like like) (expressionWithin depth power) (expressionWithin depth power) := by
  induction depth generalizing power with
  | zero => exact .fail
  | succ depth ih => exact expressionWith_agrees ih power

theorem expressionOf_agrees (power : Nat) :
    Agrees like (ExprState.Like like) (Expr.Like like) (expressionOf power) (expressionOf power) := by
  unfold expressionOf
  have left : Agrees like (Cursor.Like like) (fun rest rest' => rest'.length = rest.length)
      (look (·.rest)) (look (·.rest)) :=
    look_agrees fun _ _ alike => alike.length_eq
  refine .bind (.scan left) fun rest rest' same => ?_
  rw [same]
  exact expressionWithin_agrees _ power

end ExprStep

end SelectRouting
