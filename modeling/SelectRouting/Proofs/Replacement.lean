import SelectRouting.Proofs.ShardTokens

/-!
# Replacing names and reading tokens

Where no columns are added, the tokens of the query for a shard are those of the query with the routed
names replaced: names may be replaced in the text or among the tokens that are read from it
(`Statement.tokens_replaced`). A name that runs into the token beside it is another matter: it is put
in the text as it is, without the quotes of the name that stood there.
-/

namespace SelectRouting

namespace Token
open Text

/-- The text is read as one name. -/
def IsIdentifier (text : String) : Prop :=
  ∃ token value, list text = [token] ∧ token.kind = .identifier value

/-- A text that is read as one name and leaves no comment open can be put in place of a token. -/
theorem IsIdentifier.isPlaceable {text : String} (is : IsIdentifier text) (closed : EndsClosed text) :
    IsPlaceable text := by
  obtain ⟨token, value, are, kind⟩ := is
  obtain ⟨gap, c, tail, last, split, trivia, reads, _, _, more⟩ := exists_first are
  rw [split] at trivia
  rw [kind] at reads
  have ends := listFrom_eq_nil.mp more
  have spells : Spells last 0 (gap ++ c :: (tail ++ [])) [⟨_, _, _⟩] := .cons trivia reads .nil
  have covers := closed.length_eq (by simpa using split) spells (fun _ => by simp) ends []
  exact ⟨gap, c, tail, last, value, split, trivia, reads, Trivia.length_append (by simp) covers⟩

end Token

namespace Statement
open Token

/-- Without added columns the query for a shard has the tokens of the query, in which each edited token
whose name is routed has become the one token of its table: where the tables are names that leave no
comment open, and none of those that are put in the text runs into a token beside it. -/
theorem tokens_replaced {dialect : Dialect} (shipped : dialect ∈ Dialect.shipped) {text : String}
    {statement : Statement} (accepted : ofText dialect text = .ok statement)
    (noColumns : ∀ offset columns, Edit.projection offset columns ∉ statement.edits) {routes : Routes}
    (names : ∀ logical name, routes.get? logical = some name → IsIdentifier name)
    (closed : ∀ logical name, routes.get? logical = some name → EndsClosed name)
    (parted : (list text).IsChain (Parted routes.get? statement.edited)) :
    List.Forall₂ (Replaced routes.get? statement.edited) (list text)
      (list (routes.shardQuery statement.edits text)) := by
  have plain := Dialect.isPlain_of_shipped shipped
  obtain ⟨query, describes⟩ := exists_query plain accepted
  obtain ⟨opened, _⟩ := ofText_ok accepted
  have none : statement.addedColumns = [] := by
    by_contra some
    have edits := describes.edits_eq
    rw [insertions, if_neg some] at edits
    exact noColumns statement.projectionEnd (statement.addedColumns.map AddedColumn.text)
      (by rw [edits]; simp)
  exact describes.replaced_of_none (Cursor.valid_of_ofText opened)
    (fun logical name answer => (names logical name answer).isPlaceable (closed logical name answer))
    parted none

/-- A table whose name needs its quotes, with a comment behind it, in place of a quoted name and of one
without quotes. -/
theorem tokens_replaced_of_quoted :
    let text := "SELECT a FROM \"t\"WHERE t.b = ?"
    let routes := Routes.ofList [("t", "[t 0] /* new */")]
    Dialect.generic ∈ Dialect.shipped ∧ ∃ statement, ofText .generic text = .ok statement ∧
      (∀ offset columns, Edit.projection offset columns ∉ statement.edits) ∧
      (∀ logical name, routes.get? logical = some name → IsIdentifier name) ∧
      (∀ logical name, routes.get? logical = some name → EndsClosed name) ∧
      (list text).IsChain (Parted routes.get? statement.edited) ∧
      routes.shardQuery statement.edits text =
        "SELECT a FROM [t 0] /* new */WHERE [t 0] /* new */.b = ?" ∧
      List.Forall₂ (Replaced routes.get? statement.edited) (list text)
        (list (routes.shardQuery statement.edits text)) := by
  have shipped : Dialect.generic ∈ Dialect.shipped := by simp [Dialect.shipped]
  obtain ⟨statement, accepted, noColumns, parted, made⟩ : ∃ statement,
      ofText .generic "SELECT a FROM \"t\"WHERE t.b = ?" = .ok statement ∧
        (∀ offset columns, Edit.projection offset columns ∉ statement.edits) ∧
        (list "SELECT a FROM \"t\"WHERE t.b = ?").IsChain
          (Parted (Routes.ofList [("t", "[t 0] /* new */")]).get? statement.edited) ∧
        (Routes.ofList [("t", "[t 0] /* new */")]).shardQuery statement.edits
          "SELECT a FROM \"t\"WHERE t.b = ?" =
            "SELECT a FROM [t 0] /* new */WHERE [t 0] /* new */.b = ?" := by
    refine ⟨{
        items := [.plain "a" none]
        tables := [⟨"t", none⟩]
        projectionEnd := 9
        parameters := 1
        edits := [.tableName 14 "\"t\"", .tableName 23 "t"] }, by decide +kernel, by simp,
      by decide, by decide⟩
  have table {logical name : String}
      (answer : (Routes.ofList [("t", "[t 0] /* new */")]).get? logical = some name) :
      name = "[t 0] /* new */" := by
    simpa using Routes.mem_of_get? answer
  have names (logical name : String)
      (answer : (Routes.ofList [("t", "[t 0] /* new */")]).get? logical = some name) :
      IsIdentifier name := by
    obtain rfl := table answer
    exact ⟨⟨.identifier "t 0", 0, "[t 0]"⟩, "t 0", by decide, rfl⟩
  have closed (logical name : String)
      (answer : (Routes.ofList [("t", "[t 0] /* new */")]).get? logical = some name) :
      EndsClosed name := by
    obtain rfl := table answer
    decide +kernel
  exact ⟨shipped, statement, accepted, noColumns, names, closed, parted, made,
    tokens_replaced shipped accepted noColumns names closed parted⟩

/-- A name that is put in place of a quoted one runs into the alias behind it. -/
theorem replaced_name_runs_on :
    let text := "SELECT a FROM \"t\"u"
    let routes := Routes.ofList [("t", "x")]
    Dialect.generic ∈ Dialect.shipped ∧ ∃ statement, ofText .generic text = .ok statement ∧
      (∀ offset columns, Edit.projection offset columns ∉ statement.edits) ∧
      (∀ logical name, routes.get? logical = some name → IsIdentifier name) ∧
      routes.shardQuery statement.edits text = "SELECT a FROM xu" ∧
      ¬ List.Forall₂ (Replaced routes.get? statement.edited) (list text)
        (list (routes.shardQuery statement.edits text)) := by
  have shipped : Dialect.generic ∈ Dialect.shipped := by simp [Dialect.shipped]
  have accepted : ofText .generic "SELECT a FROM \"t\"u" = .ok
      { items := [.plain "a" none]
        tables := [⟨"t", some "u"⟩]
        projectionEnd := 9
        parameters := 0
        edits := [.tableName 14 "\"t\""] } := by
    decide +kernel
  refine ⟨shipped, _, accepted, by simp, fun logical name answer => ?_, by decide,
    fun replaced => ?_⟩
  · obtain rfl : name = "x" := by simpa using Routes.mem_of_get? answer
    exact ⟨⟨.identifier "x", 0, "x"⟩, "x", by decide, rfl⟩
  · exact absurd replaced.length_eq (by decide)

end Statement

end SelectRouting
