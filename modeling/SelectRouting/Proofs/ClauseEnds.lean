import SelectRouting.Proofs.KeyLists
import SelectRouting.Proofs.QueryPassage

/-!
# Where the clauses end

`OFFSET` is a word that a column can have for its name. Each clause between the projection list and
the row limit decides by its own rule whether it takes the word, and where one does, it does not go on
with a number behind it. So none of them ends with an `OFFSET` clause (`AnalysisStep.laterClauses_leads`).
-/

namespace SelectRouting

/-- The word `OFFSET` and a number. -/
structure OffsetClause where
  word : Token
  number : Token
  value : Nat
  isWord : word.kind = .keyword .OFFSET
  isNumber : number.kind = .integer value
  lexed : word.IsLexed

namespace OffsetClause
variable {clause : OffsetClause} {front passed tokens : List Token} {between last : Token}

/-- The tokens do not end with the clause. -/
def Spared (clause : OffsetClause) (passed : List Token) : Prop :=
  ¬ [clause.word, clause.number] <:+ passed

/-- The tokens end with an operator, a delimiter or a keyword other than that of the clause. -/
def Marked (passed : List Token) : Prop :=
  ∃ front mark, passed = front ++ [mark] ∧ mark.kind.isMark = true ∧ mark.kind ≠ .keyword .OFFSET

theorem eq_of_suffix (ends : [clause.word, clause.number] <:+ front ++ [between, last]) :
    between = clause.word ∧ last = clause.number := by
  obtain ⟨rest, same⟩ := ends
  simpa [eq_comm] using (List.append_inj' same rfl).2

theorem spared_nil : clause.Spared [] := by
  intro ends
  simpa using ends.length_le

theorem spared_of_last (noNumber : ∀ value, last.kind ≠ .integer value) :
    clause.Spared (front ++ [last]) := by
  rintro ⟨rest, same⟩
  rw [List.append_cons] at same
  obtain rfl : clause.number = last := by simpa using (List.append_inj' same rfl).2
  exact noNumber _ clause.isNumber

theorem spared_of_between (noWord : between.kind ≠ .keyword .OFFSET) :
    clause.Spared (front ++ [between, last]) := by
  intro ends
  rw [(eq_of_suffix ends).1] at noWord
  exact noWord clause.isWord

theorem Marked.spared (marked : Marked passed) : clause.Spared passed := by
  obtain ⟨front, mark, rfl, isMark, _⟩ := marked
  refine spared_of_last fun value is => ?_
  rw [is] at isMark
  cases isMark

/-- A token that joins what stands behind it is not the word of the clause. -/
theorem not_joins : ¬ clause.word.Joins := by
  intro joins
  rcases joins with noAlias | escapes
  · rw [clause.isWord] at noAlias
    cases noAlias
  · have spelled := clause.lexed.spells_keyword clause.isWord
    rw [Text.sameIgnoringCase, beq_iff_eq] at spelled escapes
    exact absurd (spelled.trans escapes) (by decide)

/-- Behind a mark an expression ends with no clause. -/
theorem Marked.expression (marked : Marked passed) (concludes : Token.Concludes tokens) :
    clause.Spared (passed ++ tokens) := by
  obtain ⟨front, mark, rfl, isMark, noWord⟩ := marked
  cases concludes with
  | alone token =>
    rw [List.append_assoc]
    exact spared_of_between noWord
  | @other inner last isMark =>
    rw [← List.append_assoc]
    refine spared_of_last fun value is => ?_
    rw [is] at isMark
    cases isMark
  | @joined inner between last joins =>
    rw [← List.append_assoc]
    intro ends
    rw [(eq_of_suffix ends).1] at joins
    exact not_joins joins

/-- An alias is no number, unless `AS` stands before it. -/
theorem Spared.alias {answer : Option String} {next : TokenKind} (spared : clause.Spared passed)
    (are : Scan.AliasTokens tokens answer next) : clause.Spared (passed ++ tokens) := by
  cases are with
  | absent => rwa [List.append_nil]
  | dangling is => exact spared_of_last (by simp [is])
  | introduced is => exact spared_of_between (by simp [is])
  | bare reads =>
    refine spared_of_last fun value is => ?_
    rw [is] at reads
    cases reads

theorem Spared.group (isGroup : Token.IsGroup tokens) : clause.Spared (passed ++ tokens) := by
  rcases List.eq_nil_or_concat tokens with rfl | ⟨inner, closing, rfl⟩
  · exact absurd rfl (Token.Closing.ne_nil isGroup)
  · have isClosing := Token.Closing.getLast isGroup closing (by simp)
    rw [List.concat_eq_append, ← List.append_assoc]
    exact spared_of_last (by simp [isClosing])

end OffsetClause

namespace AnalysisStep
open Scan Step Cursor Analysis OffsetClause

/-- Behind tokens with the property `P` the step passes others, so that all of them have the
property `Q`, which the answer decides. -/
structure Leads {α : Type} (P : List Token → Prop) (step : AnalysisStep α)
    (Q : α → List Token → Prop) : Prop where
  of_yields : ∀ {before after : Analysis} {answer : α} {passed : List Token},
    Yields step before answer after → P passed →
      ∃ tokens, Moves before.cursor tokens after.cursor ∧ Q answer (passed ++ tokens)

namespace Leads
variable {α β : Type} {P P' : List Token → Prop} {Q : α → List Token → Prop}

/-- A step that passes nothing. -/
theorem unmoved {step : AnalysisStep α}
    (still : ∀ {before after : Analysis} {answer : α}, Yields step before answer after →
      after.cursor = before.cursor ∧ ∀ passed, P passed → Q answer passed) : Leads P step Q where
  of_yields {_ _ answer passed} answers start := by
    obtain ⟨same, holds⟩ := still answers
    exact ⟨[], by rw [same]; exact .refl _, by rw [List.append_nil]; exact holds passed start⟩

theorem pure {value : α} (holds : ∀ passed, P passed → Q value passed) : Leads P (pure value) Q :=
  unmoved fun answers => by
    obtain ⟨rfl, rfl⟩ := yields_pure.mp answers
    exact ⟨rfl, holds⟩

theorem bind {R : β → List Token → Prop} {first : AnalysisStep α} {next : α → AnalysisStep β}
    (left : Leads P first Q) (right : ∀ value, Leads (Q value) (next value) R) :
    Leads P (first >>= next) R where
  of_yields answers start := by
    obtain ⟨value, between, ran, rest⟩ := yields_bind.mp answers
    obtain ⟨tokens, moves, holds⟩ := left.of_yields ran start
    obtain ⟨others, more, ends⟩ := (right value).of_yields rest holds
    exact ⟨tokens ++ others, moves.trans more, by rwa [← List.append_assoc]⟩

/-- What is asked decides how it goes on. -/
theorem bind_ite {yes no : List Token → Prop} {R : β → List Token → Prop}
    {first : AnalysisStep Bool} {second third : AnalysisStep β}
    (left : Leads P first fun found passed => if found then yes passed else no passed)
    (found : Leads yes second R) (missing : Leads no third R) :
    Leads P (first >>= fun found => if found then second else third) R := by
  refine left.bind fun answer => ?_
  cases answer
  · exact missing
  · exact found

theorem ite {condition : Prop} [Decidable condition] {first second : AnalysisStep α}
    (left : Leads P first Q) (right : Leads P second Q) :
    Leads P (if condition then first else second) Q := by
  split
  · exact left
  · exact right

theorem mono {step : AnalysisStep α} {Q' : α → List Token → Prop} (leads : Leads P step Q)
    (stronger : ∀ passed, P' passed → P passed)
    (weaker : ∀ answer passed, Q answer passed → Q' answer passed) : Leads P' step Q' where
  of_yields answers start := by
    obtain ⟨tokens, moves, holds⟩ := leads.of_yields answers (stronger _ start)
    exact ⟨tokens, moves, weaker _ _ holds⟩

/-- A scan, from what it passes. -/
theorem scan {scan : Scan α}
    (passes : ∀ {before after : Cursor} {answer : α} {passed : List Token},
      Yields scan before answer after → P passed →
        ∃ tokens, Moves before tokens after ∧ Q answer (passed ++ tokens)) :
    Leads P (liftM scan : AnalysisStep α) Q where
  of_yields answers start := by
    obtain ⟨cursor, scanned, rfl⟩ := yields_scan.mp answers
    exact passes scanned start

/-- Rounds that ask for another one where the first one may begin. -/
theorem whileTrue {R : List Token → Prop} {body : AnalysisStep Bool}
    (round : Leads P body fun again passed => if again then P passed else R passed) :
    Leads P (Step.whileTrue body) fun _ => R where
  of_yields {before after _ passed} answers start := by
    have ran := repeats_of_whileTrue answers
    clear answers
    induction ran generalizing passed with
    | last answers => exact round.of_yields answers start
    | again answers _ ih =>
      obtain ⟨tokens, moves, holds⟩ := round.of_yields answers start
      obtain ⟨others, more, ends⟩ := ih holds
      exact ⟨tokens ++ others, moves.trans more, by rwa [← List.append_assoc]⟩

end Leads

variable (clause : OffsetClause)

section Words

theorem change_leads {P : List Token → Prop} {update : Statement → Statement} :
    Leads P (change update) fun _ => P :=
  .unmoved fun answers => by
    obtain rfl := yields_change.mp answers
    exact ⟨rfl, fun _ => id⟩

theorem warn_leads {P : List Token → Prop} {warning : Warning} :
    Leads P (warn warning) fun _ => P :=
  .unmoved fun answers => by
    obtain rfl := yields_warn.mp answers
    exact ⟨rfl, fun _ => id⟩

theorem statement_leads {α : Type} {P : List Token → Prop} {property : Statement → α} :
    Leads P (statement property) fun _ => P :=
  .unmoved fun answers => by
    obtain ⟨_, rfl⟩ := yields_statement.mp answers
    exact ⟨rfl, fun _ => id⟩

theorem look_leads {α : Type} {P : List Token → Prop} {property : Cursor → α} :
    Leads P (liftM (look property) : AnalysisStep α) fun _ => P :=
  .unmoved fun answers => by
    obtain ⟨_, rfl⟩ := Step.yields_look.mp answers
    exact ⟨rfl, fun _ => id⟩

/-- A keyword that is passed is a mark. -/
theorem skipAnyKeyword_leads {words : List Keyword} (other : .OFFSET ∉ words) :
    Leads clause.Spared (liftM (skipAnyKeyword words) : AnalysisStep Bool)
      fun found passed => if found then Marked passed else clause.Spared passed := by
  refine .scan fun answers spared => ?_
  rcases skipAnyKeyword_cases answers with ⟨rfl, word, among, token, is, passes⟩ | ⟨rfl, _, rfl⟩
  · refine ⟨[token], passes.toMoves, _, token, rfl, by rw [is]; rfl, ?_⟩
    rw [is]
    intro same
    cases same
    exact other among
  · exact ⟨[], .refl _, by simpa using spared⟩

theorem skipKeyword_leads {word : Keyword} (other : word ≠ .OFFSET) :
    Leads clause.Spared (liftM (skipKeyword word) : AnalysisStep Bool)
      fun found passed => if found then Marked passed else clause.Spared passed :=
  skipAnyKeyword_leads clause (by simpa using other.symm)

theorem skipComma_leads : Leads clause.Spared (liftM (skipSymbol .comma) : AnalysisStep Bool)
    fun found passed => if found then Marked passed else clause.Spared passed := by
  refine .scan fun answers spared => ?_
  rcases skipSymbol_cases answers (by simp) with ⟨rfl, comma, is, passes⟩ | ⟨rfl, _, rfl⟩
  · exact ⟨[comma], passes.toMoves, _, comma, rfl, by rw [is]; rfl, by simp [is]⟩
  · exact ⟨[], .refl _, by simpa using spared⟩

theorem expectSign_leads : Leads clause.Spared (liftM (expectSymbol .eq) : AnalysisStep Unit)
    fun _ => Marked := by
  refine .scan fun answers _ => ?_
  obtain ⟨sign, is, passes⟩ := expectSymbol_passes answers (by simp)
  exact ⟨[sign], passes.toMoves, _, sign, rfl, by rw [is]; rfl, by simp [is]⟩

theorem expectBy_leads : Leads Marked (liftM (expectKeyword .BY) : AnalysisStep Unit)
    fun _ => Marked := by
  refine .scan fun answers _ => ?_
  obtain ⟨word, is, passes⟩ := expectKeyword_passes answers
  exact ⟨[word], passes.toMoves, _, word, rfl, by rw [is]; rfl, by simp [is]⟩

theorem group_leads : Leads clause.Spared (liftM group : AnalysisStep String)
    fun _ => clause.Spared := by
  refine .scan fun answers spared => ?_
  rcases group_cases answers with ⟨_, _, rfl⟩ | ⟨tokens, isGroup, passes, _⟩
  · exact ⟨[], .refl _, by rwa [List.append_nil]⟩
  · exact ⟨tokens, passes.toMoves, .group isGroup⟩

theorem direction_leads : Leads clause.Spared (liftM direction : AnalysisStep Direction)
    fun _ => clause.Spared := by
  refine .scan fun answers spared => ?_
  obtain ⟨directed, directs, moves⟩ := direction_cases answers
  refine ⟨directed, moves, ?_⟩
  cases directs with
  | absent => rwa [List.append_nil]
  | ascending is => exact spared_of_last (by simp [is])
  | descending is => exact spared_of_last (by simp [is])

end Words

section Expressions

/-- Where an operand is asked for, an expression is read. -/
theorem reading_leads {power : Nat} : Leads Marked (reading (ExprStep.expressionOf power))
    fun _ => clause.Spared where
  of_yields answers marked := by
    obtain ⟨inner, ran, _, rfl⟩ := yields_reading.mp answers
    obtain ⟨phrases, reads⟩ := ExprStep.reads_expressionOf ran
    exact ⟨_, reads.moves, marked.expression (ExprStep.expressionOf_concludes ran reads.moves)⟩

theorem addOwnerEdit_leads {P : List Token → Prop} {owner : Name} :
    Leads P (addOwnerEdit owner) fun _ => P :=
  .bind statement_leads fun _ => .ite change_leads (.pure fun _ => id)

theorem expressionWithEdits_leads : Leads Marked expressionWithEdits fun _ => clause.Spared where
  of_yields answers marked := by
    obtain ⟨inner, edits, ran, rfl⟩ := expressionWithEdits_cases answers
    obtain ⟨phrases, reads⟩ := ExprStep.reads_expressionOf ran
    exact ⟨_, reads.moves, marked.expression (ExprStep.expressionOf_concludes ran reads.moves)⟩

/-- Behind a word that introduces it an expression is read, and without the word nothing. -/
theorem introduced_leads {word : Keyword} (other : word ≠ .OFFSET) {clauseBehind : AnalysisStep Unit}
    (behind : Leads Marked clauseBehind fun _ => clause.Spared) : Leads clause.Spared (do
      if ← skipKeyword word then clauseBehind : AnalysisStep Unit) fun _ => clause.Spared :=
  .bind_ite (skipKeyword_leads clause other) behind (.pure fun _ => id)

end Expressions

section Sources

theorem source_leads {P : List Token → Prop} : Leads P source fun _ => clause.Spared where
  of_yields {_ _ _ passed} answers _ := by
    obtain ⟨table, noIntroducer, noEquations, noColumns, named, _, are, reads⟩ := source_reads answers
    refine ⟨_, reads.moves, ?_⟩
    have front : clause.Spared (passed ++ (table.schema ++ table.name)) := by
      rcases named with ⟨none, token, is, isName⟩ | ⟨schema, point, are, _, isPoint, short⟩
      · rw [none, is, List.nil_append]
        refine spared_of_last fun value is => ?_
        rw [is] at isName
        cases isName
      · rcases named : table.name with _ | ⟨name, _ | ⟨_, _⟩⟩
        · rw [are, List.append_nil, List.append_cons]
          exact spared_of_last (by simp [isPoint])
        · rw [are]
          simpa using @spared_of_between clause (passed ++ [schema]) point name (by simp [isPoint])
        · simp [named] at short
    simpa [Source.tokens, Source.condition, noIntroducer, noEquations, noColumns] using
      front.alias are

theorem joinEquation_leads : Leads Marked joinEquation
    fun again passed => if again then Marked passed else clause.Spared passed := by
  have side : Leads Marked joinSide fun _ => clause.Spared := by
    refine .bind (reading_leads clause) ?_
    rintro ⟨side, _⟩
    cases side with
    | property owner _ => exact addOwnerEdit_leads
    | number | identifier | other => exact .pure fun _ => id
  exact .bind side fun _ => .bind (expectSign_leads clause) fun _ => .bind side fun _ =>
    skipKeyword_leads clause (by decide)

theorem join_leads : Leads clause.Spared (liftM join : AnalysisStep Bool)
    fun _ => clause.Spared := by
  refine .scan fun answers spared => ?_
  rcases join_cases answers with ⟨_, tokens, passes, joins⟩ | ⟨_, rfl⟩
  · refine ⟨tokens, passes.toMoves, ?_⟩
    rcases List.eq_nil_or_concat tokens with rfl | ⟨inner, last, rfl⟩
    · rwa [List.append_nil]
    · have known : ∀ kinds ∈ joinOperators, ∀ kind ∈ kinds,
          (kind.isSymbol || kind.keyword?.isSome) = true := by decide
      have isWord := known _ joins last.kind (List.mem_map_of_mem (by simp))
      rw [List.concat_eq_append, ← List.append_assoc]
      refine spared_of_last fun value is => ?_
      rw [is] at isWord
      cases isWord
  · exact ⟨[], .refl _, by rwa [List.append_nil]⟩

theorem joinRound_leads : Leads clause.Spared joinRound fun _ => clause.Spared := by
  refine .bind (join_leads clause) fun _ => .ite ?_ (.pure fun _ => id)
  refine .bind (source_leads clause) fun _ => .bind_ite (skipKeyword_leads clause (by decide)) ?_ ?_
  · exact .bind (.whileTrue (joinEquation_leads clause)) fun _ => .pure fun _ => id
  · refine .bind_ite (skipKeyword_leads clause (by decide)) ?_ (.pure fun _ => id)
    exact .bind ((group_leads clause).mono (fun _ => Marked.spared) fun _ _ => id) fun _ => .pure fun _ => id

theorem fromClause_leads : Leads clause.Spared fromClause fun _ => clause.Spared := by
  refine .bind_ite (skipKeyword_leads clause (by decide)) ?_ (.pure fun _ => id)
  refine .bind (source_leads clause) fun _ => .whileTrue ((joinRound_leads clause).mono (fun _ => id) ?_)
  intro again passed spared
  split <;> exact spared

end Sources

section Keys

theorem keyItem_leads : Leads Marked keyItem fun _ => clause.Spared :=
  .bind look_leads fun _ => .bind (expressionWithEdits_leads clause) fun _ => .bind look_leads fun _ =>
    .bind (direction_leads clause) fun _ => .pure fun _ => id

theorem columnKey_leads {P : List Token → Prop} {owner : Option Name} {name : Name}
    {direction : Direction} : Leads P (columnKey owner name direction) fun _ => P :=
  .bind statement_leads fun _ => .pure fun _ => id

theorem groupRound_leads : Leads Marked groupRound
    fun again passed => if again then Marked passed else clause.Spared passed := by
  have item : Leads Marked groupItem fun _ => clause.Spared := by
    refine .bind (keyItem_leads clause) ?_
    rintro ⟨expr, direction, text⟩
    dsimp only
    split
    · exact .bind columnKey_leads fun _ => .pure fun _ => id
    · exact .bind columnKey_leads fun _ => .pure fun _ => id
    · exact .bind warn_leads fun _ => .pure fun _ => id
  refine .bind item fun found => ?_
  split
  · exact .bind change_leads fun _ => skipComma_leads clause
  · exact skipComma_leads clause

theorem orderRound_leads {dialect : Dialect} (noNulls : dialect.nullsPlacement = false) :
    Leads Marked (orderRound dialect)
      fun again passed => if again then Marked passed else clause.Spared passed := by
  have item : Leads Marked orderItem fun _ => clause.Spared := by
    refine .bind (keyItem_leads clause) ?_
    rintro ⟨expr, direction, text⟩
    dsimp only
    split
    · exact .pure fun _ => id
    · exact .bind columnKey_leads fun _ => .pure fun _ => id
    · exact .bind columnKey_leads fun _ => .pure fun _ => id
    · exact .bind warn_leads fun _ => .pure fun _ => id
  have placed : Leads Marked (dialectOrderItem dialect) fun _ => clause.Spared := by
    refine .bind item fun found => ?_
    rw [noNulls]
    exact .pure fun _ => id
  refine .bind placed fun found => ?_
  split
  · exact .bind change_leads fun _ => skipComma_leads clause
  · exact skipComma_leads clause

end Keys

section Clauses

theorem condition_leads : Leads clause.Spared condition fun _ => clause.Spared := by
  have noted : Leads clause.Spared (do
      let parameters ← look (·.parameters)
      change fun statement => { statement with parameters } : AnalysisStep Unit)
      fun _ => clause.Spared :=
    .bind look_leads fun _ => change_leads
  refine .bind statement_leads fun tables => .ite ?_ ?_
  · exact introduced_leads clause (by decide) (.bind (reading_leads clause) fun _ => .pure fun _ => id)
  · exact .bind_ite (skipKeyword_leads clause (by decide))
      (.bind (expressionWithEdits_leads clause) fun _ => noted) noted

theorem groupBy_leads : Leads clause.Spared groupBy fun _ => clause.Spared := by
  have having : Leads clause.Spared (do
      if ← skipKeyword .HAVING then
        let _ ← expressionWithEdits : AnalysisStep Unit) fun _ => clause.Spared :=
    introduced_leads clause (by decide) (.bind (expressionWithEdits_leads clause) fun _ => .pure fun _ => id)
  have totals : Leads clause.Spared (Step.whileTrue (skipAnyKeyword [.WITH, .ROLLUP] : Scan Bool) :
      AnalysisStep Unit) fun _ => clause.Spared := by
    refine .whileTrue ((skipAnyKeyword_leads clause (by decide)).mono (fun _ => id) ?_)
    intro again passed
    cases again
    · exact id
    · exact Marked.spared
  refine .bind_ite (skipKeyword_leads clause (by decide)) ?_ having
  exact .bind expectBy_leads fun _ => .bind (.whileTrue (groupRound_leads clause)) fun _ =>
    .bind totals fun _ => having

theorem orderBy_leads {dialect : Dialect} (noNulls : dialect.nullsPlacement = false) :
    Leads clause.Spared (orderBy dialect) fun _ => clause.Spared :=
  introduced_leads clause (by decide) <|
    .bind expectBy_leads fun _ => .whileTrue (orderRound_leads clause noNulls)

/-- The clauses between the projection list and the row limit. -/
def laterClauses (dialect : Dialect) : AnalysisStep Unit := do
  fromClause
  condition
  groupBy
  orderBy dialect

/-- None of the clauses ends with an `OFFSET` clause. -/
theorem laterClauses_leads {dialect : Dialect} (noNulls : dialect.nullsPlacement = false) :
    Leads clause.Spared (laterClauses dialect) fun _ => clause.Spared :=
  .bind (fromClause_leads clause) fun _ => .bind (condition_leads clause) fun _ =>
    .bind (groupBy_leads clause) fun _ => orderBy_leads clause noNulls

theorem laterClauses_keeps {P : Statement → Prop} (kept : KeptByClauses P) (dialect : Dialect) :
    Keeps P (laterClauses dialect) := by
  have tables : Keeps P fromClause :=
    .bind .scan fun _ => .ite (sources_keeps kept) (.pure fun _ => id)
  exact .bind tables fun _ => .bind (condition_keeps kept) fun _ => .bind (groupBy_keeps kept) fun _ =>
    orderBy_keeps kept dialect

/-- A run over a query goes through the projection list, the clauses behind it, and the row limit. -/
theorem SelectRun.exists_later {dialect : Dialect} (plain : dialect.IsPlain) {before after : Analysis}
    (run : SelectRun dialect before after) :
    ∃ middle ordered trailed, Yields (head dialect) before () middle ∧
      Yields (laterClauses dialect) middle () ordered ∧
      Yields (trailingClauses dialect) ordered () trailed ∧
      Yields (do
        let _ ← skipSymbol .semicolon
        unless ← look (·.atEnd) do fail .endOfStatement
        change Statement.withDerivedColumns : AnalysisStep Unit) trailed () after := by
  obtain @⟨middle, joined, filtered, grouped, ended, ordered, trailed, whole, tables, filters,
    groups, ends, orders, trails, ending⟩ := run
  obtain rfl := bodyEnd_unmoved plain ends
  refine ⟨middle, ordered, trailed, whole, ?_, trails, ending⟩
  exact yields_bind.mpr ⟨(), joined, tables, yields_bind.mpr ⟨(), filtered, filters,
    yields_bind.mpr ⟨(), _, groups, orders⟩⟩⟩

end Clauses

end AnalysisStep

end SelectRouting
