import SelectRouting.Proofs.ProjectionPassage

/-!
# What the clause readers keep

A property of the statement that a reader starts with holds of the statement that it leaves
(`AnalysisStep.Ensures`). Each clause reader keeps what its records keep (`KeptByHead`,
`KeptByClauses`); so the items stay as they are behind the projection list, and the alias of each key
is the one that they give (`AnalysisStep.kept_resolves`).
-/

namespace SelectRouting

namespace AnalysisStep
open Scan Step

/-- From a statement with the property `P` the step answers so that `Q` holds of the answer and the
statement that it leaves. -/
structure Ensures {α : Type} (P : Statement → Prop) (step : AnalysisStep α)
    (Q : α → Statement → Prop) : Prop where
  of_yields : ∀ {before after : Analysis} {answer : α}, Yields step before answer after →
    P before.statement → Q answer after.statement

/-- The step keeps the property. -/
abbrev Keeps {α : Type} (P : Statement → Prop) (step : AnalysisStep α) : Prop :=
  Ensures P step fun _ => P

namespace Ensures
variable {α β γ : Type} {P : Statement → Prop} {Q Q' : α → Statement → Prop}

theorem pure {value : α} (holds : ∀ s, P s → Q value s) : Ensures P (pure value) Q where
  of_yields answers start := by
    obtain ⟨rfl, rfl⟩ := yields_pure.mp answers
    exact holds _ start

theorem bind {R : β → Statement → Prop} {first : AnalysisStep α} {next : α → AnalysisStep β}
    (left : Ensures P first Q) (right : ∀ value, Ensures (Q value) (next value) R) :
    Ensures P (first >>= next) R where
  of_yields answers start := by
    obtain ⟨value, between, ran, rest⟩ := yields_bind.mp answers
    exact (right value).of_yields rest (left.of_yields ran start)

theorem ite {condition : Prop} [Decidable condition] {first second : AnalysisStep α}
    (left : Ensures P first Q) (right : Ensures P second Q) :
    Ensures P (if condition then first else second) Q where
  of_yields answers start := by
    rcases yields_ite.mp answers with ⟨_, ran⟩ | ⟨_, ran⟩
    · exact left.of_yields ran start
    · exact right.of_yields ran start

theorem mono {step : AnalysisStep α} (ran : Ensures P step Q)
    (weaker : ∀ answer s, Q answer s → Q' answer s) : Ensures P step Q' where
  of_yields answers start := weaker _ _ (ran.of_yields answers start)

theorem throw {error : ParseError} : Ensures P (throw error : AnalysisStep α) Q where
  of_yields answers _ := (not_yields_throw answers).elim

theorem fail {expected : Expectation} :
    Ensures P (liftM (Scan.fail expected : Scan α) : AnalysisStep α) Q where
  of_yields answers _ := (Step.not_yields_fail answers).elim

/-- Moving the cursor keeps the statement. -/
theorem scan {scan : Scan α} : Keeps P (liftM scan : AnalysisStep α) where
  of_yields answers start := by
    obtain ⟨cursor, _, rfl⟩ := yields_scan.mp answers
    exact start

theorem reading {reader : ExprStep α} : Keeps P (reading reader) where
  of_yields answers start := by
    obtain ⟨inner, _, _, rfl⟩ := yields_reading.mp answers
    exact start

theorem warn {warning : Warning} : Keeps P (warn warning) where
  of_yields answers start := by
    obtain rfl := yields_warn.mp answers
    exact start

/-- What is counted at the cursor is not part of the statement. -/
theorem move {update : Analysis → Cursor} :
    Keeps P (modifyThe Analysis fun state => { state with cursor := update state }) where
  of_yields answers start := by
    cases answers
    exact start

theorem change {Q : Statement → Prop} {update : Statement → Statement}
    (holds : ∀ s, P s → Q (update s)) : Ensures P (change update) fun _ => Q where
  of_yields answers start := by
    obtain rfl := yields_change.mp answers
    exact holds _ start

theorem statement {property : Statement → α} :
    Ensures P (statement property) fun answer s => P s ∧ answer = property s where
  of_yields answers start := by
    obtain ⟨rfl, rfl⟩ := yields_statement.mp answers
    exact ⟨start, rfl⟩

/-- Looking at the statement keeps it. -/
theorem seen {property : Statement → α} : Keeps P (AnalysisStep.statement property) :=
  statement.mono fun _ _ => And.left

/-- A repetition keeps what each of its rounds keeps. -/
theorem rounding {body : β → AnalysisStep (Round β γ)} {start : β}
    (round : ∀ value, Keeps P (body value)) : Keeps P (Step.rounding body start) where
  of_yields answers holds := by
    have ran := rounds_of_rounding answers
    clear answers
    induction ran with
    | done ran => exact (round _).of_yields ran holds
    | next ran _ ih => exact ih ((round _).of_yields ran holds)

theorem whileTrue {body : AnalysisStep Bool} (round : Keeps P body) :
    Keeps P (Step.whileTrue body) :=
  .rounding fun _ => round.bind fun _ => .pure fun _ => id

end Ensures

section Edits
variable {P : Statement → Prop}

/-- Recording an edit keeps the property. -/
def KeptByEdits (P : Statement → Prop) : Prop :=
  ∀ s edit, P s → P { s with edits := s.edits ++ [edit] }

theorem addOwnerEdit_keeps (edits : KeptByEdits P) (owner : Name) : Keeps P (addOwnerEdit owner) := by
  unfold addOwnerEdit
  exact .bind .statement fun _ =>
    .ite (.change fun s holds => edits s _ holds.1) (.pure fun _ => And.left)

theorem addOwnerEdits_keeps (edits : KeptByEdits P) (owners : List Name) :
    Keeps P (owners.forM addOwnerEdit) := by
  induction owners with
  | nil => exact .pure fun _ => id
  | cons owner owners ih => exact .bind (addOwnerEdit_keeps edits owner) fun _ => ih

theorem expressionWithEdits_keeps (edits : KeptByEdits P) : Keeps P expressionWithEdits := by
  unfold expressionWithEdits
  exact .bind .reading fun (_, qualifiers) =>
    .bind (addOwnerEdits_keeps edits qualifiers) fun _ => .pure fun _ => id

theorem plainItemRound_keeps (edits : KeptByEdits P) (item : PlainItem) :
    Keeps P (plainItemRound item) := by
  unfold plainItemRound
  refine .bind .scan fun stands => .ite (.pure fun _ => id) ?_
  refine .bind .scan fun token => .bind .scan fun depth => ?_
  -- The placeholder is counted first or not; the rest of the round is the same.
  refine .ite (.bind .move fun _ => .bind .scan fun _ => ?_) (.bind .scan fun _ => ?_)
  all_goals
    split
    · exact .bind .scan fun _ => .ite (.bind (.change fun s => edits s _) fun _ => .pure fun _ => id)
        (.pure fun _ => id)
    · exact .pure fun _ => id

theorem plainItem_keeps (edits : KeptByEdits P) (start : Nat) (afterValue : Bool) :
    Keeps P (plainItem start afterValue) := by
  unfold plainItem
  refine .bind .scan fun _ => .bind (.rounding fun _ => plainItemRound_keeps edits _) fun item => ?_
  split
  · exact .ite .fail (.bind .scan fun _ => .pure fun _ => id)
  · exact .bind .scan fun _ => .ite .fail (.bind .scan fun _ => .pure fun _ => id)

/-- Reading an item changes the statement by edits only. -/
theorem item_keeps (edits : KeptByEdits P) {dialect : Dialect} (noWord : dialect.itemWord = none)
    (position : Nat) : Keeps P (item dialect position) where
  of_yields answers start := by
    cases (yields_item noWord).mp answers with
    | star _ aliased => exact Ensures.scan.of_yields aliased start
    | call _ _ _ _ aliased => exact Ensures.scan.of_yields aliased start
    | callInText _ _ _ _ plain => exact (plainItem_keeps edits _ _).of_yields plain start
    | text _ _ _ plain => exact (plainItem_keeps edits _ _).of_yields plain start

end Edits

/-- A round reads an item and adds it to the list, and passes the comma behind it. -/
theorem itemRound_cases {dialect : Dialect} {position : Nat} {before after : Analysis}
    (noWord : dialect.itemWord = none) {round : Round Nat Unit}
    (answers : Yields (itemRound dialect position) before round after) :
    ∃ value between, Yields (item dialect position) before value between ∧
      after.statement.items = before.statement.items ++ [value] ∧
      after.statement.containsStar = (before.statement.containsStar || value.isStar) ∧
      ((round = .done () ∧ between.cursor.kind ≠ .symbol .comma ∧ after.cursor = between.cursor) ∨
        (round = .next (position + 1) ∧ ∃ comma, comma.kind = .symbol .comma ∧
          Cursor.Passes between.cursor [comma] after.cursor)) := by
  obtain ⟨value, between, first, outcome⟩ := yields_itemRound.mp answers
  have items : between.statement.items = before.statement.items :=
    (item_keeps (P := fun s => s.items = before.statement.items) (fun _ _ => id) noWord
      position).of_yields first rfl
  have star : between.statement.containsStar = before.statement.containsStar :=
    (item_keeps (P := fun s => s.containsStar = before.statement.containsStar) (fun _ _ => id) noWord
      position).of_yields first rfl
  refine ⟨value, between, first, ?_⟩
  rcases outcome with ⟨elsewhere, rfl, rfl⟩ | ⟨stands, rfl, rfl⟩
  · exact ⟨by rw [← items]; rfl, by rw [← star]; rfl, .inl ⟨rfl, elsewhere, rfl⟩⟩
  · obtain ⟨comma, is, _, passes⟩ := Cursor.passes_advance stands (by simp) (by simp)
    exact ⟨by rw [← items]; rfl, by rw [← star]; rfl, .inr ⟨rfl, comma, is, passes⟩⟩

end AnalysisStep

/-- The key when it is a column. -/
def OrderKey.columnKey? : OrderKey → Option ColumnKey
  | .column key => some key
  | .position _ _ => none

namespace Statement

/-- The columns among the keys. -/
def columnKeys (statement : Statement) : List ColumnKey :=
  statement.orderBy.filterMap OrderKey.columnKey? ++ statement.groupBy

/-- The items are these, and the keys have the aliases that they give. -/
structure Resolves (items : List Item) (containsStar : Bool) (statement : Statement) : Prop where
  items : statement.items = items
  containsStar : statement.containsStar = containsStar
  keys : ∀ key ∈ statement.columnKeys, key.aliasName = statement.aliasOf? key.qualifiedName

section Resolves
variable {items : List Item} {containsStar : Bool} {statement : Statement}

theorem Resolves.addGroupKey (resolves : Resolves items containsStar statement) {key : ColumnKey}
    (resolved : key.aliasName = statement.aliasOf? key.qualifiedName) :
    Resolves items containsStar { statement with groupBy := statement.groupBy ++ [key] } where
  items := resolves.items
  containsStar := resolves.containsStar
  keys := by
    intro other member
    simp only [columnKeys, List.mem_append, List.mem_singleton, ← or_assoc] at member
    rcases member with before | rfl
    · exact resolves.keys other (List.mem_append.mpr before)
    · exact resolved

theorem Resolves.addOrderKey (resolves : Resolves items containsStar statement) {key : OrderKey}
    (resolved : ∀ column, key = .column column →
      column.aliasName = statement.aliasOf? column.qualifiedName) :
    Resolves items containsStar { statement with orderBy := statement.orderBy ++ [key] } where
  items := resolves.items
  containsStar := resolves.containsStar
  keys := by
    intro other member
    simp only [columnKeys, List.filterMap_append, List.mem_append] at member
    rcases member with (before | new) | group
    · exact resolves.keys other (List.mem_append_left _ before)
    · cases key with
      | column column =>
        obtain rfl : other = column := by simpa [OrderKey.columnKey?] using new
        exact resolved _ rfl
      | position => simp [OrderKey.columnKey?] at new
    · exact resolves.keys other (List.mem_append_right _ group)

end Resolves

end Statement

namespace AnalysisStep
open Scan Step Statement

/-- Whatever the clauses behind the projection list record, the property is kept. A key comes with
the alias that the items give for it. -/
structure KeptByClauses (P : Statement → Prop) : Prop where
  edits : KeptByEdits P
  tables : ∀ s table, P s → P { s with tables := s.tables ++ [table] }
  parameters : ∀ s parameters, P s → P { s with parameters }
  groupKeys : ∀ s (key : ColumnKey), P s → key.aliasName = s.aliasOf? key.qualifiedName →
    P { s with groupBy := s.groupBy ++ [key] }
  orderKeys : ∀ s (key : OrderKey), P s →
    (∀ column, key = .column column → column.aliasName = s.aliasOf? column.qualifiedName) →
    P { s with orderBy := s.orderBy ++ [key] }

section Clauses
variable {P : Statement → Prop}

/-- A key has the alias that the items give for it. -/
theorem columnKey_ensures (owner : Option Name) (name : Name) (direction : Direction) :
    Ensures P (columnKey owner name direction) fun key s =>
      P s ∧ key.aliasName = s.aliasOf? key.qualifiedName := by
  unfold columnKey
  refine .bind .statement fun found => .pure fun s holds => ⟨holds.1, ?_⟩
  exact holds.2

theorem source_keeps (kept : KeptByClauses P) : Keeps P source := by
  unfold source
  refine .bind .scan fun token => ?_
  split
  · refine .bind .scan fun _ => .bind .scan fun _ => .ite ?_ ?_
    · exact .bind .scan fun _ => .bind .scan fun _ => .bind .scan fun _ => .warn
    · exact .bind (.change fun s => kept.edits s _) fun _ => .bind .scan fun _ =>
        .change fun s => kept.tables s _
  · exact .throw
  · exact .fail

theorem joinSide_keeps (edits : KeptByEdits P) : Keeps P joinSide := by
  unfold joinSide
  refine .bind .reading ?_
  rintro ⟨side, _⟩
  dsimp only
  split
  · exact addOwnerEdit_keeps edits _
  · exact .pure fun _ => id

theorem joinRound_keeps (kept : KeptByClauses P) : Keeps P joinRound := by
  unfold joinRound
  refine .bind .scan fun _ => .ite (.bind (source_keeps kept) fun _ => .bind .scan fun _ => .ite ?_ ?_)
    (.pure fun _ => id)
  · refine .bind (.whileTrue ?_) fun _ => .pure fun _ => id
    unfold joinEquation
    exact .bind (joinSide_keeps kept.edits) fun _ => .bind .scan fun _ =>
      .bind (joinSide_keeps kept.edits) fun _ => .scan
  · exact .bind .scan fun _ => .ite (.bind .scan fun _ => .pure fun _ => id) (.pure fun _ => id)

theorem sources_keeps (kept : KeptByClauses P) : Keeps P sources := by
  unfold sources
  exact .bind (source_keeps kept) fun _ => .whileTrue (joinRound_keeps kept)

theorem condition_keeps (kept : KeptByClauses P) : Keeps P condition := by
  unfold condition
  refine .bind .seen fun _ => .ite ?_ ?_
  · exact .bind .scan fun _ => .ite (.bind .reading fun _ => .pure fun _ => id) (.pure fun _ => id)
  · have noted : Keeps P (do
        let parameters ← look (·.parameters)
        change fun statement => { statement with parameters } : AnalysisStep Unit) :=
      .bind .scan fun _ => .change fun s => kept.parameters s _
    exact .bind .scan fun _ =>
      .ite (.bind (expressionWithEdits_keeps kept.edits) fun _ => noted) noted

theorem keyItem_keeps (edits : KeptByEdits P) : Keeps P keyItem := by
  unfold keyItem
  exact .bind .scan fun _ => .bind (expressionWithEdits_keeps edits) fun _ =>
    .bind .scan fun _ => .bind .scan fun _ => .pure fun _ => id

/-- The key that an item of `ORDER BY` gives has the alias that the items give for it. -/
theorem orderItem_ensures (edits : KeptByEdits P) : Ensures P orderItem fun found s =>
    P s ∧ ∀ key, found = some (.column key) → key.aliasName = s.aliasOf? key.qualifiedName := by
  unfold orderItem
  refine .bind (keyItem_keeps edits) ?_
  rintro ⟨expr, direction, text⟩
  dsimp only
  have column (owner : Option Name) (name : Name) : Ensures P
      (do return some (.column (← columnKey owner name direction)) : AnalysisStep (Option OrderKey))
      fun found s => P s ∧
        ∀ key, found = some (.column key) → key.aliasName = s.aliasOf? key.qualifiedName := by
    refine .bind (columnKey_ensures owner name direction) fun key => .pure fun s holds => ⟨holds.1, ?_⟩
    rintro other same
    obtain rfl := OrderKey.column.inj (Option.some.inj same)
    exact holds.2
  split
  · exact .pure fun s holds => ⟨holds, by simp⟩
  · exact column none _
  · exact column (some _) _
  · exact .bind .warn fun _ => .pure fun s holds => ⟨holds, by simp⟩

theorem orderRound_keeps (kept : KeptByClauses P) (dialect : Dialect) :
    Keeps P (orderRound dialect) := by
  unfold orderRound dialectOrderItem
  refine .bind (.bind (orderItem_ensures kept.edits) fun found =>
    .ite (.bind .scan fun _ => .pure fun _ => id) (.pure fun _ => id)) fun found => ?_
  split
  · refine .bind (.change fun s holds => kept.orderKeys s _ holds.1 fun column is => ?_) fun _ => .scan
    exact holds.2 column (congrArg some is)
  · exact .mono .scan fun _ _ => And.left

theorem groupItem_ensures (edits : KeptByEdits P) : Ensures P groupItem fun found s =>
    P s ∧ ∀ key, found = some key → key.aliasName = s.aliasOf? key.qualifiedName := by
  unfold groupItem
  refine .bind (keyItem_keeps edits) ?_
  rintro ⟨expr, direction, text⟩
  dsimp only
  have column (owner : Option Name) (name : Name) : Ensures P
      (do return some (← columnKey owner name direction) : AnalysisStep (Option ColumnKey))
      fun found s => P s ∧
        ∀ key, found = some key → key.aliasName = s.aliasOf? key.qualifiedName := by
    refine .bind (columnKey_ensures owner name direction) fun key => .pure fun s holds => ⟨holds.1, ?_⟩
    rintro other same
    obtain rfl := Option.some.inj same
    exact holds.2
  split
  · exact column none _
  · exact column (some _) _
  · exact .bind .warn fun _ => .pure fun s holds => ⟨holds, by simp⟩

theorem groupRound_keeps (kept : KeptByClauses P) : Keeps P groupRound := by
  unfold groupRound
  refine .bind (groupItem_ensures kept.edits) fun found => ?_
  split
  · exact .bind (.change fun s holds => kept.groupKeys s _ holds.1 (holds.2 _ rfl)) fun _ => .scan
  · exact .mono .scan fun _ _ => And.left

theorem groupBy_keeps (kept : KeptByClauses P) : Keeps P groupBy := by
  unfold groupBy
  have having : Keeps P (do
      if ← skipKeyword .HAVING then
        let _ ← expressionWithEdits : AnalysisStep Unit) :=
    .bind .scan fun _ =>
      .ite (.bind (expressionWithEdits_keeps kept.edits) fun _ => .pure fun _ => id)
        (.pure fun _ => id)
  exact .bind .scan fun _ => .ite (.bind .scan fun _ => .bind (.whileTrue (groupRound_keeps kept))
    fun _ => .bind (.whileTrue .scan) fun _ => having) having

theorem orderBy_keeps (kept : KeptByClauses P) (dialect : Dialect) : Keeps P (orderBy dialect) := by
  unfold orderBy
  exact .bind .scan fun _ => .ite (.bind .scan fun _ => .whileTrue (orderRound_keeps kept dialect))
    (.pure fun _ => id)

theorem trailingClauses_keeps (limits : ∀ s limit, P s → P { s with limit := some limit })
    (dialect : Dialect) : Keeps P (trailingClauses dialect) := by
  have noted (limit : Option Limit) : Keeps P (setLimit limit) := by
    unfold setLimit
    split
    · exact .change fun s => limits s _
    · exact .pure fun _ => id
  unfold trailingClauses
  split
  · exact .pure fun _ => id
  · exact .bind .scan fun _ => .bind (noted _) fun _ => .scan
  · exact .bind .scan fun _ => noted _

/-- Behind the projection list the items stay, and the aliases of the keys are those that the items
give. -/
theorem kept_resolves {items : List Item} {containsStar : Bool} :
    KeptByClauses (Resolves items containsStar) where
  edits _ _ holds := ⟨holds.items, holds.containsStar, holds.keys⟩
  tables _ _ holds := ⟨holds.items, holds.containsStar, holds.keys⟩
  parameters _ _ holds := ⟨holds.items, holds.containsStar, holds.keys⟩
  groupKeys _ _ holds resolved := holds.addGroupKey resolved
  orderKeys _ _ holds resolved := holds.addOrderKey resolved

end Clauses

section Head
variable {P : Statement → Prop}

/-- Whatever is recorded up to the end of the projection list, the property is kept. -/
structure KeptByHead (P : Statement → Prop) : Prop where
  distinct : ∀ s, P s → P { s with distinct := true }
  edits : KeptByEdits P
  items : ∀ s (item : Item), P s →
    P { s with items := s.items ++ [item], containsStar := s.containsStar || item.isStar }
  projectionEnd : ∀ s projectionEnd, P s → P { s with projectionEnd }

theorem distinct_keeps (marks : ∀ s, P s → P { s with distinct := true })
    (dialect : Dialect) : Keeps P (distinct dialect) := by
  unfold distinct
  refine .bind .scan fun _ => .ite ?_ (.bind .scan fun _ => .pure fun _ => id)
  refine .bind (.change marks) fun _ => .ite ?_ (.pure fun _ => id)
  exact .bind .scan fun _ => .ite (.bind .scan fun _ => .pure fun _ => id) (.pure fun _ => id)

theorem head_keeps (kept : KeptByHead P) {dialect : Dialect} (noWord : dialect.itemWord = none) :
    Keeps P (head dialect) := by
  have list : Keeps P (projection dialect) := by
    unfold projection itemRound
    refine .bind (.rounding fun position => ?_) fun _ => .bind .scan fun _ =>
      .change fun s => kept.projectionEnd s _
    refine .bind (item_keeps kept.edits noWord position) fun _ => ?_
    exact .bind (.change fun s => kept.items s _) fun _ => .bind .scan fun _ => .pure fun _ => id
  exact .bind .scan fun _ => .bind (distinct_keeps kept.distinct dialect) fun _ => list

/-- The projection list gives no keys. -/
theorem kept_noKeys : KeptByHead fun s => s.columnKeys = [] :=
  ⟨fun _ => id, fun _ _ => id, fun _ _ => id, fun _ _ => id⟩

end Head

end AnalysisStep

end SelectRouting
