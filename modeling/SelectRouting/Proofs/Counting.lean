import SelectRouting.Proofs.FailingClauses
import SelectRouting.Proofs.QueryPassage

/-!
# Counting placeholders

Every reader counts each placeholder among the tokens that it passes once, whichever way it passes
them (`AnalysisStep.Counted`). The one place that is passed without a look at it is the table behind
a schema, so the count is right unless such a table is warned of.
-/

namespace SelectRouting

/-- The cursor moves over tokens and counts the placeholders among them, when the tokens before it
are tokens of a text. -/
def Cursor.Counts (before after : Cursor) : Prop :=
  Token.AreLexed before.rest → ∃ passed, Passes before passed after

namespace Cursor

theorem Counts.refl (cursor : Cursor) : Counts cursor cursor := fun _ =>
  ⟨[], .refl cursor⟩

theorem Passes.counts {before after : Cursor} {passed : List Token}
    (passes : Passes before passed after) : Counts before after := fun _ =>
  ⟨passed, passes⟩

theorem Counts.trans {first second third : Cursor} (left : Counts first second)
    (right : Counts second third) : Counts first third := by
  intro lexed
  obtain ⟨one, passes⟩ := left lexed
  rw [passes.rest] at lexed
  obtain ⟨two, more⟩ := right lexed.right
  exact ⟨one ++ two, passes.trans more⟩

end Cursor

namespace Scan
open Step Cursor

/-- Whenever the scan answers, it has counted the placeholders that it passed. -/
structure Counted {α : Type} (scan : Scan α) : Prop where
  of_yields : ∀ {before after : Cursor} {answer : α}, Yields scan before answer after →
    Counts before after

namespace Counted
variable {α : Type}

theorem of_orderly {scan : Scan α} (orderly : Orderly scan) : Counted scan where
  of_yields answers := orderly.passes_of_yields answers

theorem look {property : Cursor → α} : Counted (look property) :=
  .of_orderly (look_orderly property)

theorem skipAnyKeyword {words : List Keyword} : Counted (skipAnyKeyword words) :=
  .of_orderly (skipAnyKeyword_orderly words)

theorem skipKeyword {word : Keyword} : Counted (skipKeyword word) :=
  skipAnyKeyword

theorem skipSymbol {mark : Symbol} (uncounted : mark ≠ .question) : Counted (skipSymbol mark) :=
  .of_orderly (skipSymbol_orderly uncounted)

theorem expectSymbol {mark : Symbol} (uncounted : mark ≠ .question) : Counted (expectSymbol mark) :=
  .of_orderly (expectSymbol_orderly uncounted)

theorem expectKeyword {word : Keyword} : Counted (expectKeyword word) :=
  .of_orderly (expectKeyword_orderly word)

theorem group : Counted group :=
  .of_orderly group_orderly

theorem aliasName : Counted aliasName :=
  .of_orderly aliasName_orderly

theorem join : Counted join :=
  .of_orderly join_orderly

theorem direction : Counted AnalysisStep.direction :=
  .of_orderly direction_orderly

end Counted

end Scan

namespace Analysis

/-- No table with its schema has been warned of. -/
def IsRouted (state : Analysis) : Prop :=
  ∀ schema table, .schemaQualified schema table ∉ state.warnings

/-- The reader counts the placeholders among the tokens that it passes, unless it warns of a table
with its schema. It writes neither the count nor the row limit into the statement. -/
structure Counts (before after : Analysis) : Prop where
  warnings : before.warnings ⊆ after.warnings
  parameters : after.statement.parameters = before.statement.parameters
  limit : after.statement.limit = before.statement.limit
  cursor : after.IsRouted → Cursor.Counts before.cursor after.cursor

theorem IsRouted.of_subset {before after : Analysis} (routed : after.IsRouted)
    (warnings : before.warnings ⊆ after.warnings) : before.IsRouted := fun schema table warned =>
  routed schema table (warnings warned)

theorem Counts.refl (state : Analysis) : Counts state state :=
  ⟨List.Subset.refl _, rfl, rfl, fun _ => .refl _⟩

theorem Counts.trans {first second third : Analysis} (left : Counts first second)
    (right : Counts second third) : Counts first third where
  warnings := List.Subset.trans left.warnings right.warnings
  parameters := right.parameters.trans left.parameters
  limit := right.limit.trans left.limit
  cursor routed :=
    (left.cursor (routed.of_subset right.warnings)).trans (right.cursor routed)

/-- The tokens between two cursors of a text are counted. -/
theorem Counts.exists_passed {before after : Analysis} (counts : Counts before after)
    (routed : after.IsRouted) (lexed : Token.AreLexed before.cursor.rest) :
    ∃ passed, Cursor.Passes before.cursor passed after.cursor ∧
      Token.AreLexed after.cursor.rest := by
  obtain ⟨passed, passes⟩ := counts.cursor routed lexed
  rw [passes.rest] at lexed
  exact ⟨passed, passes, lexed.right⟩

/-- Only the cursor moves. -/
theorem Counts.move {before : Analysis} {cursor : Cursor}
    (counts : Cursor.Counts before.cursor cursor) : Counts before { before with cursor } :=
  ⟨List.Subset.refl _, rfl, rfl, fun _ => counts⟩

end Analysis

namespace AnalysisStep
open Scan Step Cursor Analysis

/-- Whenever the reader answers, it has counted the placeholders that it passed. -/
structure Counted {α : Type} (step : AnalysisStep α) : Prop where
  of_yields : ∀ {before after : Analysis} {answer : α}, Yields step before answer after →
    Analysis.Counts before after

namespace Counted
variable {α β γ : Type}

theorem pure {value : α} : Counted (pure value) where
  of_yields answers := by
    obtain ⟨_, rfl⟩ := yields_pure.mp answers
    exact .refl _

theorem bind {first : AnalysisStep α} {next : α → AnalysisStep β} (left : Counted first)
    (right : ∀ value, Counted (next value)) : Counted (first >>= next) where
  of_yields answers := by
    obtain ⟨value, between, ran, rest⟩ := yields_bind.mp answers
    exact (left.of_yields ran).trans ((right value).of_yields rest)

theorem ite {condition : Prop} [Decidable condition] {first second : AnalysisStep α}
    (left : Counted first) (right : Counted second) :
    Counted (if condition then first else second) where
  of_yields answers := by
    rcases yields_ite.mp answers with ⟨_, ran⟩ | ⟨_, ran⟩
    · exact left.of_yields ran
    · exact right.of_yields ran

theorem fail {expected : Expectation} :
    Counted (liftM (Scan.fail expected : Scan α) : AnalysisStep α) where
  of_yields answers := (Step.not_yields_fail answers).elim

theorem scan {scan : Scan α} (counted : Scan.Counted scan) :
    Counted (liftM scan : AnalysisStep α) where
  of_yields answers := by
    obtain ⟨cursor, scanned, rfl⟩ := yields_scan.mp answers
    exact .move (counted.of_yields scanned)

theorem look {property : Cursor → α} : Counted (liftM (Scan.look property) : AnalysisStep α) :=
  .scan .look

theorem statement {property : Statement → α} : Counted (AnalysisStep.statement property) where
  of_yields answers := by
    obtain ⟨_, rfl⟩ := yields_statement.mp answers
    exact .refl _

theorem change {update : Statement → Statement}
    (parameters : ∀ s, (update s).parameters = s.parameters)
    (limit : ∀ s, (update s).limit = s.limit) : Counted (change update) where
  of_yields answers := by
    obtain rfl := yields_change.mp answers
    exact ⟨List.Subset.refl _, parameters _, limit _, fun _ => .refl _⟩

theorem addEdit {edit : Edit} : Counted (addEdit edit) :=
  change (fun _ => rfl) fun _ => rfl

theorem warn {warning : Warning} : Counted (warn warning) where
  of_yields answers := by
    obtain rfl := yields_warn.mp answers
    exact ⟨List.subset_append_left _ _, rfl, rfl, fun _ => .refl _⟩

/-- An expression moves the cursor only. -/
theorem reading {power : Nat} : Counted (reading (ExprStep.expressionOf power)) where
  of_yields answers := by
    have moved := (reading_orderly (ExprStep.expressionOf_orderly power)).passes_of_yields answers
    obtain ⟨_, _, _, _, _, rfl⟩ := reading_reads answers
    exact .move moved

theorem rounding {body : β → AnalysisStep (Round β γ)} {start : β}
    (round : ∀ value, Counted (body value)) : Counted (Step.rounding body start) where
  of_yields answers := by
    have ran := rounds_of_rounding answers
    clear answers
    induction ran with
    | done ran => exact (round _).of_yields ran
    | next ran _ ih => exact ((round _).of_yields ran).trans ih

theorem whileTrue {body : AnalysisStep Bool} (round : Counted body) :
    Counted (Step.whileTrue body) :=
  .rounding fun _ => .bind round fun _ => .pure

end Counted

theorem addOwnerEdit_counted (owner : Name) : Counted (addOwnerEdit owner) := by
  unfold addOwnerEdit
  exact .bind .statement fun _ => .ite .addEdit .pure

theorem addOwnerEdits_counted (owners : List Name) : Counted (owners.forM addOwnerEdit) := by
  induction owners with
  | nil => exact .pure
  | cons owner owners ih => exact .bind (addOwnerEdit_counted owner) fun _ => ih

theorem expressionWithEdits_counted : Counted expressionWithEdits := by
  unfold expressionWithEdits
  exact .bind .reading fun (_, qualifiers) =>
    .bind (addOwnerEdits_counted qualifiers) fun _ => .pure

section Projection

theorem distinct_counted (dialect : Dialect) : Counted (distinct dialect) := by
  unfold distinct
  refine .bind (.scan .skipAnyKeyword) fun _ => .ite ?_
    (.bind (.scan .skipKeyword) fun _ => .pure)
  refine .bind (.change (fun _ => rfl) fun _ => rfl) fun _ => .ite ?_ .pure
  exact .bind (.scan .skipKeyword) fun _ => .ite (.bind (.scan .group) fun _ => .pure) .pure

/-- A token of an item is counted where it is a placeholder. -/
theorem plainItemRound_counted (item : PlainItem) : Counted (plainItemRound item) where
  of_yields {before after answer} answers := by
    rcases yields_plainItemRound.mp answers with ⟨_, _, _, rfl⟩ | ⟨_, _, admits, _, rfl⟩
    · exact .refl _
    · exact ⟨List.Subset.refl _, rfl, rfl, fun _ => (passes_behind admits.inside).counts⟩

theorem plainItem_counted (start : Nat) (afterValue : Bool) :
    Counted (plainItem start afterValue) := by
  unfold plainItem
  refine .bind .look fun _ => .bind (.rounding plainItemRound_counted) fun item => ?_
  split
  · exact .ite .fail (.bind .look fun _ => .pure)
  · exact .bind (.scan .aliasName) fun _ => .ite .fail (.bind .look fun _ => .pure)

theorem star_counts {cursor : Cursor}
    (stands : (cursor.at? (.symbol .star) || Text.stripQuotes cursor.lexeme == "*") = true) :
    Cursor.Counts cursor cursor.advance := by
  intro lexed
  obtain ⟨star, _, moves⟩ := star_moves stands
  have uncounted : star.kind ≠ .symbol .question := by
    rw [← current_of_cons moves.rest]
    exact uncounted_of_star lexed stands
  refine ⟨[star], moves, ?_⟩
  simp [parameters_advance, Token.placeholders, uncounted]

/-- The name of a function is no placeholder. -/
theorem function_counts {cursor : Cursor} {function : AggregateFunction}
    (found : aggregateAt? cursor = some function) : Cursor.Counts cursor cursor.advance := by
  obtain ⟨word, stands, _⟩ := aggregateAt?_some found
  obtain ⟨_, _, _, passes⟩ := passes_advance stands (by simp) (by simp)
  exact passes.counts

theorem item_counted {dialect : Dialect} (noWord : dialect.itemWord = none) (position : Nat) :
    Counted (item dialect position) where
  of_yields answers := by
    cases (yields_item noWord).mp answers with
    | star stands aliased =>
      exact (Counts.move (star_counts stands)).trans ((Counted.scan .aliasName).of_yields aliased)
    | call _ found grouped _ aliased =>
      exact (Counts.move ((function_counts found).trans (Scan.Counted.group.of_yields grouped))).trans
        ((Counted.scan .aliasName).of_yields aliased)
    | callInText _ found grouped _ plain =>
      exact (Counts.move ((function_counts found).trans (Scan.Counted.group.of_yields grouped))).trans
        ((plainItem_counted _ _).of_yields plain)
    | text _ _ _ plain => exact (plainItem_counted _ _).of_yields plain

theorem projection_counted {dialect : Dialect} (noWord : dialect.itemWord = none) :
    Counted (projection dialect) := by
  unfold projection itemRound
  refine .bind (.rounding fun position => ?_) fun _ =>
    .bind .look fun _ => .change (fun _ => rfl) fun _ => rfl
  refine .bind (item_counted noWord position) fun _ => ?_
  exact .bind (.change (fun _ => rfl) fun _ => rfl) fun _ =>
    .bind (.scan (.skipSymbol (by simp))) fun _ => .pure

theorem head_counted {dialect : Dialect} (noWord : dialect.itemWord = none) :
    Counted (head dialect) :=
  .bind (.scan .expectKeyword) fun _ => .bind (distinct_counted dialect) fun _ =>
    projection_counted noWord

end Projection

section Sources

/-- Behind a schema nothing is counted, but a warning is left. -/
theorem schemaTable_counted (schema : String) : Counted (do
    let table ← Scan.look (·.lexeme)
    advance
    let _ ← aliasName
    AnalysisStep.warn (.schemaQualified schema table) : AnalysisStep Unit) where
  of_yields answers := by
    rw [Step.yields_look_bind, Step.yields_advance_bind] at answers
    obtain ⟨_, between, aliased, warned⟩ := yields_bind.mp answers
    obtain ⟨cursor, _, rfl⟩ := yields_scan.mp aliased
    obtain rfl := yields_warn.mp warned
    exact ⟨List.subset_append_left _ _, rfl, rfl, fun routed =>
      (routed schema _ (List.mem_append_right _ (List.mem_singleton_self _))).elim⟩

theorem source_counted : Counted source where
  of_yields {before after answer} answers := by
    unfold source at answers
    rw [Step.yields_look_bind] at answers
    rw [cursor_analysis, show before.cursor.current.kind = before.cursor.kind from rfl] at answers
    split at answers
    · next written named =>
      rw [Step.yields_advance_bind] at answers
      obtain ⟨_, _, _, passes⟩ := passes_advance named (by simp) (by simp)
      obtain ⟨pointed, between, skipped, rest⟩ := yields_bind.mp answers
      have upTo := (Counts.move passes.counts).trans
        ((Counted.scan (.skipSymbol (by simp))).of_yields skipped)
      rcases yields_ite.mp rest with ⟨_, rest⟩ | ⟨_, rest⟩
      · exact upTo.trans ((schemaTable_counted _).of_yields rest)
      · obtain ⟨_, _, added, rest⟩ := yields_bind.mp rest
        obtain ⟨_, _, aliased, changed⟩ := yields_bind.mp rest
        refine (upTo.trans (Counted.addEdit.of_yields added)).trans
          (((Counted.scan .aliasName).of_yields aliased).trans ?_)
        obtain rfl := yields_change.mp changed
        exact ⟨List.Subset.refl _, rfl, rfl, fun _ => .refl _⟩
    · exact absurd answers not_yields_throw
    · exact absurd answers Step.not_yields_fail

theorem joinSide_counted : Counted joinSide := by
  unfold joinSide
  refine .bind .reading ?_
  rintro ⟨side, _⟩
  dsimp only
  split
  · exact addOwnerEdit_counted _
  · exact .pure

theorem joinRound_counted : Counted joinRound := by
  unfold joinRound
  refine .bind (.scan .join) fun _ => .ite (.bind source_counted fun _ =>
    .bind (.scan .skipKeyword) fun _ => .ite ?_ ?_) .pure
  · refine .bind (.whileTrue ?_) fun _ => .pure
    unfold joinEquation
    exact .bind joinSide_counted fun _ => .bind (.scan (.expectSymbol (by simp))) fun _ =>
      .bind joinSide_counted fun _ => .scan .skipKeyword
  · exact .bind (.scan .skipKeyword) fun _ => .ite (.bind (.scan .group) fun _ => .pure) .pure

theorem sources_counted : Counted sources := by
  unfold sources
  exact .bind source_counted fun _ => .whileTrue joinRound_counted

theorem fromClause_counted : Counted fromClause :=
  .bind (.scan .skipKeyword) fun _ => .ite sources_counted .pure

end Sources

section Keys

theorem keyItem_counted : Counted keyItem := by
  unfold keyItem
  exact .bind .look fun _ => .bind expressionWithEdits_counted fun _ =>
    .bind .look fun _ => .bind (.scan .direction) fun _ => .pure

theorem columnKey_counted (owner : Option Name) (name : Name) (direction : Direction) :
    Counted (columnKey owner name direction) := by
  unfold columnKey
  exact .bind .statement fun _ => .pure

theorem groupRound_counted : Counted groupRound := by
  unfold groupRound groupItem
  refine .bind (.bind keyItem_counted ?_) fun found => ?_
  · rintro ⟨expr, direction, text⟩
    dsimp only
    split
    · exact .bind (columnKey_counted _ _ _) fun _ => .pure
    · exact .bind (columnKey_counted _ _ _) fun _ => .pure
    · exact .bind .warn fun _ => .pure
  · split
    · exact .bind (.change (fun _ => rfl) fun _ => rfl) fun _ => .scan (.skipSymbol (by simp))
    · exact .scan (.skipSymbol (by simp))

theorem groupBy_counted : Counted groupBy := by
  unfold groupBy
  have having : Counted (do
      if ← skipKeyword .HAVING then
        let _ ← expressionWithEdits : AnalysisStep Unit) :=
    .bind (.scan .skipKeyword) fun _ => .ite (.bind expressionWithEdits_counted fun _ => .pure) .pure
  exact .bind (.scan .skipKeyword) fun _ => .ite (.bind (.scan .expectKeyword) fun _ =>
    .bind (.whileTrue groupRound_counted) fun _ =>
      .bind (.whileTrue (.scan .skipAnyKeyword)) fun _ => having) having

theorem orderItem_counted : Counted orderItem := by
  unfold orderItem
  refine .bind keyItem_counted ?_
  rintro ⟨expr, direction, text⟩
  dsimp only
  split
  · exact .pure
  · exact .bind (columnKey_counted _ _ _) fun _ => .pure
  · exact .bind (columnKey_counted _ _ _) fun _ => .pure
  · exact .bind .warn fun _ => .pure

theorem orderBy_counted {dialect : Dialect} (noPlacement : dialect.nullsPlacement = false) :
    Counted (orderBy dialect) := by
  unfold orderBy orderRound dialectOrderItem
  rw [noPlacement]
  refine .bind (.scan .skipKeyword) fun _ => .ite (.bind (.scan .expectKeyword) fun _ =>
    .whileTrue (.bind (.bind orderItem_counted fun _ => .pure) fun found => ?_)) .pure
  split
  · exact .bind (.change (fun _ => rfl) fun _ => rfl) fun _ => .scan (.skipSymbol (by simp))
  · exact .scan (.skipSymbol (by simp))

end Keys

/-- The condition is counted, and what has been counted up to its end is written into the statement
when there are tables. -/
theorem condition_counts {before after : Analysis} {answer : Unit}
    (answers : Yields condition before answer after) :
    ∃ passed : Analysis, Analysis.Counts before passed ∧
      after = { passed with statement := { passed.statement with
        parameters := if before.statement.tables.isEmpty then before.statement.parameters
          else passed.cursor.parameters } } := by
  unfold condition at answers
  obtain ⟨tables, start, looked, rest⟩ := yields_bind.mp answers
  obtain ⟨rfl, rfl⟩ := yields_statement.mp looked
  rcases yields_ite.mp rest with ⟨none, rest⟩ | ⟨some, rest⟩
  · have counts : Analysis.Counts start after := Counted.of_yields
      (.bind (.scan .skipKeyword) fun _ => .ite (.bind .reading fun _ => .pure) .pure) rest
    refine ⟨after, counts, ?_⟩
    rw [none, if_pos rfl, ← counts.parameters]
  · obtain ⟨found, between, skipped, rest⟩ := yields_bind.mp rest
    have word := (Counted.scan .skipKeyword).of_yields skipped
    rcases yields_ite.mp rest with ⟨_, rest⟩ | ⟨_, noted⟩
    · obtain ⟨_, passed, read, noted⟩ := yields_bind.mp rest
      rw [Step.yields_look_bind] at noted
      obtain rfl := yields_change.mp noted
      exact ⟨passed, word.trans (expressionWithEdits_counted.of_yields read), by simp [some]⟩
    · rw [Step.yields_look_bind] at noted
      obtain rfl := yields_change.mp noted
      exact ⟨between, word, by simp [some]⟩

end AnalysisStep

end SelectRouting
