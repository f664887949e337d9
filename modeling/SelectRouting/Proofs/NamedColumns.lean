import Mathlib.Data.List.Basic
import SelectRouting.Proofs.DerivedAliases

/-!
# What the derived aliases name

No two of the columns that are added have the same alias, up to case. An alias of an average or a key
thus names the column that was added for it and besides that only the items to which the query gives
the same alias (`Statement.columns_named`). Where there are such items, a part of an average is not
added, but the column of a key is.
-/

namespace SelectRouting

namespace Text

/-- The number behind a stem that does not end with a digit can be told. -/
theorem numbered_inj {stem other : String} {number further : Nat}
    (ends : ∀ c ∈ stem.toList.getLast?, c.isDigit = false)
    (otherEnds : ∀ c ∈ other.toList.getLast?, c.isDigit = false)
    (same : stem ++ toString number = other ++ toString further) :
    stem = other ∧ number = further := by
  -- read from the end, the digits are the longest run of digits
  have digits {stem : String} {number : Nat} (ends : ∀ c ∈ stem.toList.getLast?, c.isDigit = false) :
      (stem ++ toString number).toList.reverse.takeWhile Char.isDigit =
        (toString number).toList.reverse := by
    have all : ∀ c ∈ (toString number).toList.reverse, c.isDigit = true := by
      intro c member
      rw [List.mem_reverse, Nat.toString_eq_repr, Nat.toList_repr] at member
      exact Nat.isDigit_of_mem_toDigits (b := 10) (by decide) (by decide) member
    rw [String.toList_append, List.reverse_append, List.takeWhile_append_of_pos all]
    cases stands : stem.toList.reverse with
    | nil => simp
    | cons c cs =>
      have last : stem.toList.getLast? = some c := by
        rw [← List.head?_reverse, stands, List.head?_cons]
      simp [ends c last]
  have numbers : toString number = toString further := by
    have reversed := (digits ends).symm.trans ((congrArg _ (by rw [same])).trans (digits otherEnds))
    exact String.toList_inj.mp (List.reverse_injective reversed)
  have spelled : Nat.toDigits 10 number = Nat.toDigits 10 further := by
    rw [← Nat.toList_repr, ← Nat.toList_repr]
    exact congrArg String.toList numbers
  have equal : number = further := by
    rw [← Nat.ofDigitChars_ten_toDigits (n := number), spelled, Nat.ofDigitChars_ten_toDigits]
  refine ⟨?_, equal⟩
  rw [numbers] at same
  simpa using same

/-- The stems of the aliases for the parts of averages and for keys. -/
def derivedStems : List String :=
  ["AVG_DERIVED_COUNT_", "AVG_DERIVED_SUM_", "ORDER_BY_DERIVED_", "GROUP_BY_DERIVED_"]

/-- A derived alias tells its stem and its number. -/
theorem injOn_derivedStems {one two : String × Nat} (first : one.1 ∈ derivedStems)
    (second : two.1 ∈ derivedStems) (same : one.1 ++ toString one.2 = two.1 ++ toString two.2) :
    one = two := by
  have ends : ∀ stem ∈ derivedStems, ∀ c ∈ stem.toList.getLast?, c.isDigit = false := by
    simp [derivedStems]
  obtain ⟨stem, number⟩ := numbered_inj (ends _ first) (ends _ second) same
  exact Prod.ext stem number

end Text

namespace AddedColumn

/-- The alias of the column. -/
def aliasName : AddedColumn → String
  | part column => column.aliasName
  | key _ aliasName => aliasName

theorem face_eq (column : AddedColumn) : column.face.2 = some column.aliasName := by
  cases column <;> rfl

theorem aliases_numbered (stem : String) (number : Nat) (columns : List Column) :
    (numbered stem number columns).map aliasName =
      (List.range' number columns.length).map fun number => stem ++ toString number := by
  induction columns generalizing number with
  | nil => rfl
  | cons column columns ih =>
    rw [numbered_cons, List.map_cons, ih, List.length_cons, List.range'_succ, List.map_cons]
    rfl

end AddedColumn

/-- The parts of averages are numbered in turn. -/
theorem Item.aliases_averageParts (before : Nat) (items : List Item) :
    (averageParts before items).map DerivedColumn.aliasName =
      (List.range' before (items.countP isAverage)).flatMap fun number =>
        ["AVG_DERIVED_COUNT_" ++ toString number, "AVG_DERIVED_SUM_" ++ toString number] := by
  induction items generalizing before with
  | nil => rfl
  | cons item items ih =>
    cases item with
    | aggregation call =>
      by_cases average : call.function = .avg
      · have counts : (aggregation call).isAverage = true := beq_iff_eq.mpr average
        rw [averageParts, if_pos (beq_iff_eq.mpr average), List.map_append, ih,
          List.countP_cons_of_pos counts, List.range'_succ, List.flatMap_cons]
        rfl
      · have other : ¬ (aggregation call).isAverage = true := mt beq_iff_eq.mp average
        rw [averageParts, if_neg (mt beq_iff_eq.mp average), ih, List.countP_cons_of_neg other]
    | star | plain => exact ih before

namespace Statement

/-- The columns for all averages and for the keys that are added, whether they are projected or not. -/
def derivedColumns (statement : Statement) : List AddedColumn :=
  (Item.averageParts 0 statement.items).map .part ++ statement.addedKeys

/-- The stems and numbers of the aliases for so many averages and keys. -/
def derivedLabels (averages ordered grouped : Nat) : List (String × Nat) :=
  ((List.range' 0 averages).flatMap fun number =>
      [("AVG_DERIVED_COUNT_", number), ("AVG_DERIVED_SUM_", number)]) ++
    ((List.range' 0 ordered).map (("ORDER_BY_DERIVED_", ·)) ++
      (List.range' 0 grouped).map (("GROUP_BY_DERIVED_", ·)))

theorem mem_derivedStems {averages ordered grouped : Nat} {label : String × Nat}
    (member : label ∈ derivedLabels averages ordered grouped) : label.1 ∈ Text.derivedStems := by
  simp only [derivedLabels, List.mem_append, List.mem_flatMap, List.mem_map, List.mem_cons,
    List.not_mem_nil, or_false] at member
  rcases member with ⟨_, _, rfl | rfl⟩ | ⟨_, _, rfl⟩ | ⟨_, _, rfl⟩ <;> simp [Text.derivedStems]

theorem nodup_derivedLabels (averages ordered grouped : Nat) :
    (derivedLabels averages ordered grouped).Nodup := by
  have numbered (stem : String) (count : Nat) :
      ((List.range' 0 count).map fun number => (stem, number)).Nodup :=
    List.Nodup.map (fun _ _ => congrArg Prod.snd) List.nodup_range'
  refine List.nodup_append'.mpr ⟨?_, List.nodup_append'.mpr ⟨numbered .., numbered .., ?_⟩, ?_⟩
  · have apart : (List.range' 0 averages).Nodup := List.nodup_range'
    refine List.nodup_flatMap.mpr ⟨fun number _ => by simp, apart.imp fun {one two} apart => ?_⟩
    simp [Function.onFun, apart.symm]
  · simp [List.disjoint_left]
  · simp only [List.disjoint_left, List.mem_append, List.mem_flatMap, List.mem_map, List.mem_cons,
      List.not_mem_nil, or_false]
    rintro _ ⟨_, _, rfl | rfl⟩ <;> simp

theorem derivedAliases_eq (statement : Statement) : ∃ averages ordered grouped,
    statement.derivedColumns.map AddedColumn.aliasName =
      (derivedLabels averages ordered grouped).map fun (stem, number) => stem ++ toString number := by
  have parts : ((Item.averageParts 0 statement.items).map AddedColumn.part).map AddedColumn.aliasName =
      (Item.averageParts 0 statement.items).map DerivedColumn.aliasName := by
    rw [List.map_map]
    rfl
  unfold derivedColumns
  rw [List.map_append, parts, Item.aliases_averageParts, addedKeys]
  split
  · refine ⟨statement.items.countP Item.isAverage, 0, 0, ?_⟩
    simp [derivedLabels, List.map_flatMap]
  · refine ⟨statement.items.countP Item.isAverage, (statement.unprojected statement.orderColumns).length,
      (statement.unprojected statement.groupColumns).length, ?_⟩
    rw [List.map_append, AddedColumn.aliases_numbered, AddedColumn.aliases_numbered]
    simp [derivedLabels, List.map_flatMap, Function.comp_def]

/-- No two derived columns have the same alias. -/
theorem nodup_derivedAliases (statement : Statement) :
    (statement.derivedColumns.map AddedColumn.aliasName).Nodup := by
  obtain ⟨averages, ordered, grouped, aliases⟩ := statement.derivedAliases_eq
  rw [aliases]
  refine (nodup_derivedLabels ..).map_on fun one first two second same => ?_
  exact Text.injOn_derivedStems (mem_derivedStems first) (mem_derivedStems second) same

example : ((derivedLabels 1 2 0).map fun (stem, number) => stem ++ toString number) =
    ["AVG_DERIVED_COUNT_0", "AVG_DERIVED_SUM_0", "ORDER_BY_DERIVED_0", "ORDER_BY_DERIVED_1"] := by
  decide +kernel

/-- The items that have the alias, up to case. -/
def itemsNamed (statement : Statement) (aliasName : String) : List Item :=
  statement.items.filter (Item.isNamed aliasName)

/-- The columns of the query for a shard that have the alias, up to case: the expressions and aliases
of the items and of the columns that are added. -/
def columnsNamed (statement : Statement) (aliasName : String) : List (String × Option String) :=
  (statement.items.map Item.face ++ statement.addedColumns.map AddedColumn.face).filter
    fun face => face.2.any (Text.sameIgnoringCase · aliasName)

section Named
variable {statement : Statement} {column : AddedColumn}

theorem part_mem_derivedColumns {part : DerivedColumn} :
    .part part ∈ statement.derivedColumns ↔ part ∈ Item.averageParts 0 statement.items := by
  rw [derivedColumns, List.mem_append, or_iff_left part_notMem_addedKeys]
  simp

theorem sublist_derivedColumns : statement.addedColumns.Sublist statement.derivedColumns :=
  (List.filter_sublist.map _).append_right _

theorem upper_of_derived (derived : column ∈ statement.derivedColumns) :
    Text.upper column.aliasName = column.aliasName := by
  have stems : ∀ stem ∈ Text.derivedStems, Text.upper stem = stem := by
    decide
  obtain ⟨averages, ordered, grouped, aliases⟩ := statement.derivedAliases_eq
  have member := List.mem_map_of_mem (f := AddedColumn.aliasName) derived
  rw [aliases] at member
  obtain ⟨label, inside, same⟩ := List.mem_map.mp member
  rw [← same]
  exact Text.upper_numbered (stems _ (mem_derivedStems inside)) _

/-- Of the columns that are added, only the column itself has the alias of a derived column. -/
theorem filter_addedColumns (derived : column ∈ statement.derivedColumns) :
    (statement.addedColumns.filter fun other =>
        Text.sameIgnoringCase other.aliasName column.aliasName) =
      if column ∈ statement.addedColumns then [column] else [] := by
  have isUpper := upper_of_derived derived
  have unique (other : AddedColumn) (added : other ∈ statement.addedColumns) :
      Text.sameIgnoringCase other.aliasName column.aliasName = (other == column) := by
    have otherDerived := sublist_derivedColumns.subset added
    rw [Bool.eq_iff_iff, beq_iff_eq, ← Text.upper_eq_iff isUpper, upper_of_derived otherDerived]
    exact ⟨List.inj_on_of_nodup_map statement.nodup_derivedAliases otherDerived derived,
      congrArg AddedColumn.aliasName⟩
  have once : statement.addedColumns.Nodup :=
    statement.nodup_derivedAliases.of_map.sublist sublist_derivedColumns
  rw [List.filter_congr unique, List.filter_beq, once.count]
  split <;> rfl

/-- The alias of a derived column names the items that have it, and the column if it is added. -/
theorem columnsNamed_eq (derived : column ∈ statement.derivedColumns) :
    statement.columnsNamed column.aliasName =
      (statement.itemsNamed column.aliasName).map Item.face ++
        if column ∈ statement.addedColumns then [column.face] else [] := by
  have added : ((statement.addedColumns.map AddedColumn.face).filter fun face =>
      face.2.any (Text.sameIgnoringCase · column.aliasName)) =
      (statement.addedColumns.filter fun other =>
        Text.sameIgnoringCase other.aliasName column.aliasName).map AddedColumn.face := by
    rw [List.filter_map]
    refine congrArg _ (List.filter_congr fun other _ => ?_)
    rw [Function.comp_apply, other.face_eq]
    rfl
  rw [columnsNamed, List.filter_append, added, filter_addedColumns derived, List.filter_map]
  split <;> rfl

/-- A part of an average is added where no item has its alias. -/
theorem part_added_iff {part : DerivedColumn} (derived : .part part ∈ statement.derivedColumns) :
    .part part ∈ statement.addedColumns ↔ statement.itemsNamed part.aliasName = [] := by
  have member := part_mem_derivedColumns.mp derived
  have named := statement.any_isNamed (Item.upper_of_part member)
  have none : statement.itemsNamed part.aliasName = [] ↔
      statement.items.any (Item.isNamed part.aliasName) = false := by
    rw [itemsNamed, List.filter_eq_nil_iff, List.any_eq_false]
  rw [none, part_mem_addedColumns, addedParts, List.mem_filter, and_iff_right member, named,
    Bool.not_eq_true']

end Named

/-- **What the derived aliases name.** The columns that are added are those of the insertion. The alias
of a part of an average names the items to which the query gives the same alias, up to case, and only
where there are none, the part. The alias of a key that is not projected under one names the column of
the key, and besides it all items to which the query gives the same alias. -/
theorem columns_named {dialect : Dialect} (shipped : dialect ∈ Dialect.shipped) {text : String}
    {statement : Statement} (accepted : ofText dialect text = .ok statement) :
    (∀ offset columns, .projection offset columns ∈ statement.edits ↔ statement.addedColumns ≠ [] ∧
      offset = statement.projectionEnd ∧ columns = statement.addedColumns.map AddedColumn.text) ∧
    (∀ call, .aggregation call ∈ statement.items → ∀ part ∈ call.derived,
      part.argument = call.argument ∧ (part.function = .count ∨ part.function = .sum) ∧
      statement.columnsNamed part.aliasName =
        if statement.itemsNamed part.aliasName = [] then [(part.expression, some part.aliasName)]
        else (statement.itemsNamed part.aliasName).map Item.face) ∧
    ∀ key ∈ statement.columnKeys, statement.aliasOf? key.qualifiedName = none →
      ∀ aliasName, key.aliasName = some aliasName → statement.columnsNamed aliasName =
        (statement.itemsNamed aliasName).map Item.face ++ [(key.qualifiedName, some aliasName)] := by
  have plain := Dialect.isPlain_of_shipped shipped
  obtain ⟨query, describes⟩ := exists_query plain accepted
  obtain ⟨parsed, _, _, derived, listed, resolves, _⟩ := describes.exists_listed plain
  refine ⟨fun _ _ => describes.projection_mem_edits, ?_, ?_⟩
  · intro call member part inside
    obtain ⟨front, behind, split⟩ := List.append_of_mem member
    have own := (describes.isCompleted plain).parts front call behind split
    have kind : part.argument = call.argument ∧ (part.function = .count ∨ part.function = .sum) := by
      rw [own] at inside
      split at inside
      · simp only [List.mem_cons, List.not_mem_nil, or_false] at inside
        rcases inside with rfl | rfl <;> simp
      · cases inside
    have isDerived : .part part ∈ statement.derivedColumns := by
      rw [part_mem_derivedColumns, derived, ← flatMap_derived_withDerivedColumns listed, ← derived]
      exact List.mem_flatMap.mpr ⟨_, member, inside⟩
    refine ⟨kind.1, kind.2, (columnsNamed_eq isDerived).trans ?_⟩
    change (statement.itemsNamed part.aliasName).map Item.face ++ _ = _
    by_cases none : statement.itemsNamed part.aliasName = []
    · rw [if_pos ((part_added_iff isDerived).mpr none), if_pos none, none]
      rfl
    · rw [if_neg (mt (part_added_iff isDerived).mp none), if_neg none, List.append_nil]
  · intro key member unresolved aliasName given
    have isAdded : .key key.column aliasName ∈ statement.addedKeys := by
      rw [derived, addedKeys_withDerivedColumns resolves, ← derived]
      refine List.mem_filterMap.mpr ⟨key, member, ?_⟩
      rw [ColumnKey.added?, unresolved, given]
      rfl
    have isDerived : .key key.column aliasName ∈ statement.derivedColumns :=
      List.mem_append_right _ isAdded
    refine (columnsNamed_eq isDerived).trans ?_
    rw [if_pos (key_mem_addedColumns.mpr isAdded)]
    rfl

/-- The sum of an average and a key are added, and their aliases name nothing else. -/
theorem columns_named_of_sum :
    let text := "SELECT AVG(a), b AS AVG_DERIVED_COUNT_0 FROM t ORDER BY c"
    Dialect.generic ∈ Dialect.shipped ∧ ∃ statement, ofText .generic text = .ok statement ∧
      statement.columnsNamed "AVG_DERIVED_SUM_0" = [("SUM(a)", some "AVG_DERIVED_SUM_0")] ∧
      statement.columnsNamed "ORDER_BY_DERIVED_0" = [("c", some "ORDER_BY_DERIVED_0")] := by
  have shipped : Dialect.generic ∈ Dialect.shipped := by simp [Dialect.shipped]
  have accepted : ofText .generic "SELECT AVG(a), b AS AVG_DERIVED_COUNT_0 FROM t ORDER BY c" = .ok
      { items := [.aggregation ⟨.avg, "(a)", none, 1,
            [⟨.count, "(a)", "AVG_DERIVED_COUNT_0"⟩, ⟨.sum, "(a)", "AVG_DERIVED_SUM_0"⟩]⟩,
          .plain "b" (some "AVG_DERIVED_COUNT_0")]
        tables := [⟨"t", none⟩]
        orderBy := [.column ⟨none, "c", .ascending, some "ORDER_BY_DERIVED_0"⟩]
        projectionEnd := 40
        edits := [.tableName 45 "t",
          .projection 40 ["SUM(a) AS AVG_DERIVED_SUM_0", "c AS ORDER_BY_DERIVED_0"]] } := by
    decide +kernel
  obtain ⟨_, parts, keys⟩ := columns_named shipped accepted
  refine ⟨shipped, _, accepted, ?_, ?_⟩
  · obtain ⟨_, _, named⟩ := parts _ List.mem_cons_self ⟨.sum, "(a)", "AVG_DERIVED_SUM_0"⟩ (by simp)
    exact named.trans (by decide)
  · have named := keys ⟨none, "c", .ascending, some "ORDER_BY_DERIVED_0"⟩ List.mem_cons_self
      (by decide) _ rfl
    exact named.trans (by decide)

/-- Items of the query can have derived aliases: one of a key then names two columns, and one of an
average not its part. -/
theorem derived_alias_given :
    (∃ statement, ofText .generic "SELECT a AS ORDER_BY_DERIVED_0 FROM t ORDER BY b" =
        .ok statement ∧
      statement.orderBy = [.column ⟨none, "b", .ascending, some "ORDER_BY_DERIVED_0"⟩] ∧
      statement.columnsNamed "ORDER_BY_DERIVED_0" =
        [("a", some "ORDER_BY_DERIVED_0"), ("b", some "ORDER_BY_DERIVED_0")]) ∧
    ∃ statement, ofText .generic "SELECT AVG(a), b AS AVG_DERIVED_COUNT_0 FROM t" = .ok statement ∧
      statement.items.flatMap Item.derived =
        [⟨.count, "(a)", "AVG_DERIVED_COUNT_0"⟩, ⟨.sum, "(a)", "AVG_DERIVED_SUM_0"⟩] ∧
      statement.columnsNamed "AVG_DERIVED_COUNT_0" = [("b", some "AVG_DERIVED_COUNT_0")] := by
  refine ⟨⟨{  items := [.plain "a" (some "ORDER_BY_DERIVED_0")]
              tables := [⟨"t", none⟩]
              orderBy := [.column ⟨none, "b", .ascending, some "ORDER_BY_DERIVED_0"⟩]
              projectionEnd := 31
              edits := [.tableName 36 "t", .projection 31 ["b AS ORDER_BY_DERIVED_0"]] },
      by decide +kernel, rfl, by decide⟩, ?_⟩
  exact ⟨{  items := [.aggregation ⟨.avg, "(a)", none, 1,
                [⟨.count, "(a)", "AVG_DERIVED_COUNT_0"⟩, ⟨.sum, "(a)", "AVG_DERIVED_SUM_0"⟩]⟩,
              .plain "b" (some "AVG_DERIVED_COUNT_0")]
            tables := [⟨"t", none⟩]
            projectionEnd := 40
            edits := [.tableName 45 "t", .projection 40 ["SUM(a) AS AVG_DERIVED_SUM_0"]] },
    by decide +kernel, rfl, by decide⟩

end Statement

end SelectRouting
