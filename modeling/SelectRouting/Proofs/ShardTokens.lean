import Mathlib.Data.List.Nodup
import SelectRouting.Proofs.InsertedTokens

/-!
# Tokens of the query for a shard

The query for a shard is read as the tokens of the query it was made from: the names that are routed
have become tables, and the tokens of the added columns stand where the projection list ends
(`Query.Describes.shardReads`).
-/

namespace SelectRouting

namespace Token
open Text

/-- What stands before trivia that reach to the end stays the same there, with more text behind
them. -/
theorem Follows.of_trivia {offset : Nat} {cs rest : List Char} {made : Token → String}
    {routed : Token → Bool} (trivia : Trivia.between.length cs = cs.length)
    (behind : ∀ d ∈ rest.head?, isBreak d = true) :
    Follows made routed offset [] cs (cs ++ rest) := by
  cases cs with
  | nil => exact .of_break behind
  | cons c cs => exact .of_gap (by rw [trivia]; simp) (by simp)

section Closed
variable {text : String}

/-- The text does not end in a comment: a comma behind it would be a token. -/
def EndsClosed (text : String) : Prop :=
  (list text).length < (list (text ++ ",")).length

instance : Decidable (EndsClosed text) :=
  inferInstanceAs (Decidable (_ < _))

/-- Trivia at the end of a closed text end before a comma. -/
theorem EndsClosed.length_eq {front gap : List Char} {tokens : List Token}
    (closed : EndsClosed text) (split : text.toList = front ++ gap)
    (spells : Spells gap 0 front tokens)
    (valid : gap = [] → ∀ token ∈ tokens, ∀ error, token.kind ≠ .invalid error)
    (trivia : Trivia.between.length gap = gap.length) (cs : List Char) :
    Trivia.between.length (gap ++ ',' :: cs) = gap.length := by
  have again : Spells (gap ++ [',']) 0 front tokens :=
    (spells.kept valid (.of_trivia trivia (by simp; decide))).1
  have whole : list text = tokens := by
    rw [list, split, spells.listFrom_append, listFrom_eq_nil.mpr trivia, List.append_nil]
  have longer : list (text ++ ",") =
      tokens ++ listFrom (0 + width front) 0 (gap ++ [',']) := by
    rw [list, String.toList_append, split, List.append_assoc]
    exact again.listFrom_append
  have some : listFrom (0 + width front) 0 (gap ++ [',']) ≠ [] := by
    intro none
    rw [EndsClosed, longer, whole, none, List.append_nil] at closed
    exact Nat.lt_irrefl _ closed
  have least := Trivia.le_length_append trivia [',']
  have most := Trivia.length_le .between (gap ++ [','])
  have short := mt listFrom_eq_nil.mpr some
  rw [List.length_append, List.length_singleton] at most short
  have reach : Trivia.between.length (gap ++ [',']) = gap.length := by omega
  exact Trivia.length_before (List.cons_ne_nil _ _) reach (read_comma cs).1

end Closed

end Token

/-- A table that a list of routes answers is one of theirs. -/
theorem Routes.mem_of_get? {pairs : List (String × String)} {logical physical : String}
    (found : (ofList pairs).get? logical = some physical) : physical ∈ pairs.map Prod.snd := by
  have entries (routes : Routes) (pairs : List (String × String)) :
      (pairs.foldl (fun routes pair => routes.insert pair.1 pair.2) routes).entries =
        (pairs.map fun pair => (Text.lower pair.1, pair.2)).reverse ++ routes.entries := by
    induction pairs generalizing routes with
    | nil => rfl
    | cons pair pairs ih =>
      rw [List.foldl_cons, ih]
      simp [insert]
  obtain ⟨before, after, split, _⟩ := List.lookup_eq_some_iff.mp found
  have member : (Text.lower logical, physical) ∈ (ofList pairs).entries := by
    rw [split]
    simp
  rw [ofList, entries, List.append_nil, List.mem_reverse] at member
  obtain ⟨pair, among, same⟩ := List.mem_map.mp member
  exact List.mem_map.mpr ⟨pair, among, congrArg Prod.snd same⟩

/-- The token is edited: an edit of the statement stands there. -/
def Statement.edited (statement : Statement) (token : Token) : Bool :=
  decide (token.edit ∈ statement.edits)

/-- The text `shard` is read as the tokens of `text`, in which edited names may have become tables,
with the tokens of the added columns where the projection list ends. -/
structure Statement.ShardReads (statement : Statement) (physical : String → Option String)
    (text shard : String) (front behind front' inserted behind' : List Token) : Prop where
  tokens : Token.list text = front ++ behind
  place : Token.frontStart text.utf8ByteSize behind = statement.projectionEnd
  shard : Token.list shard = front' ++ inserted ++ behind'
  front : List.Forall₂ (Token.Becomes physical statement.edited) front front'
  behind : List.Forall₂ (Token.Becomes physical statement.edited) behind behind'
  inserted : inserted.map Token.content =
    (AddedColumn.insertedTokens statement.addedColumns).map Token.content

/-- The tokens up to the end of the projection list. -/
def Query.front (query : Query) : List Token :=
  query.opening ++ query.distinctOn ++ query.projection

namespace Query.Describes
open Token Text

variable {query : Query} {dialect : Dialect} {text : String} {statement : Statement}
  {physical : String → Option String}

section Edited

/-- A list is what is left of a longer one by its members. -/
theorem filter_eq_of_sublist {α : Type} {short long : List α} {property : α → Bool}
    (among : short.Sublist long) (distinct : long.Nodup)
    (members : ∀ value ∈ long, property value = true ↔ value ∈ short) :
    long.filter property = short := by
  induction among with
  | slnil => rfl
  | @cons short long first among ih =>
    obtain ⟨new, distinct⟩ := List.nodup_cons.mp distinct
    have out : ¬ property first = true := by
      rw [members first List.mem_cons_self]
      exact fun inside => new (among.subset inside)
    rw [List.filter_cons_of_neg out]
    exact ih distinct fun value member => members value (List.mem_cons_of_mem _ member)
  | @cons_cons short long first among ih =>
    obtain ⟨new, distinct⟩ := List.nodup_cons.mp distinct
    rw [List.filter_cons_of_pos ((members first List.mem_cons_self).mpr List.mem_cons_self)]
    refine congrArg _ (ih distinct fun value member => ?_)
    rw [members value (List.mem_cons_of_mem _ member), List.mem_cons]
    exact or_iff_right fun same => new (same ▸ member)

/-- The edited tokens of the query are its anchors. -/
theorem edited_iff (describes : query.Describes dialect text statement) {token : Token}
    (member : token ∈ list text) : statement.edited token = true ↔ token ∈ query.anchors := by
  have distinct : ((list text).map Token.start).Nodup :=
    (List.pairwise_map.mpr (pairwise_start_lt text)).imp Nat.ne_of_lt
  have among : query.anchors ⊆ list text := by
    rw [describes.tokens]
    exact (anchors_sublist describes.fits).subset
  rw [Statement.edited, decide_eq_true_eq, describes.edits_eq, List.mem_append]
  constructor
  · rintro (anchor | insertion)
    · obtain ⟨other, inside, same⟩ := List.mem_map.mp anchor
      have start : other.start = token.start := (Edit.tableName.inj same).1
      rwa [← List.inj_on_of_nodup_map distinct (among inside) member start]
    · unfold Statement.insertions at insertion
      split at insertion
      · cases insertion
      · exact absurd (List.mem_singleton.mp insertion) (by simp [Token.edit])
  · exact fun anchor => .inl (List.mem_map_of_mem anchor)

theorem nodup (text : String) : (list text).Nodup :=
  List.Nodup.of_map Token.start <| (List.pairwise_map.mpr (pairwise_start_lt text)).imp Nat.ne_of_lt

/-- The tokens of a text, cut where the projection list ends. -/
theorem tokens_eq (describes : query.Describes dialect text statement) :
    list text = query.front ++ query.behind :=
  describes.tokens

theorem filter_tokens (describes : query.Describes dialect text statement) :
    (list text).filter statement.edited = query.anchors := by
  refine filter_eq_of_sublist ?_ (nodup text) fun token member => describes.edited_iff member
  rw [describes.tokens]
  exact anchors_sublist describes.fits

/-- In front of the end of the projection list the anchors of the list are edited. -/
theorem filter_front (describes : query.Describes dialect text statement) :
    query.front.filter statement.edited = query.projectedAnchors := by
  have distinct := nodup text
  rw [describes.tokens_eq] at distinct
  have among : query.laterAnchors.Sublist query.behind :=
    (laterAnchors_sublist describes.fits).trans (List.tail_sublist _)
  refine filter_eq_of_sublist
    (query.projectedAnchors_sublist.trans (List.sublist_append_right _ _)) distinct.of_append_left ?_
  intro token member
  rw [describes.edited_iff (by rw [describes.tokens_eq]; exact List.mem_append_left _ member), anchors,
    List.mem_append]
  exact or_iff_left fun later => List.disjoint_of_nodup_append distinct member (among.subset later)

theorem filter_behind (describes : query.Describes dialect text statement) :
    query.behind.filter statement.edited = query.laterAnchors := by
  have whole := describes.filter_tokens
  rw [describes.tokens_eq, List.filter_append, describes.filter_front, anchors] at whole
  exact List.append_cancel_left whole

theorem noSymbol_of_edited (describes : query.Describes dialect text statement) {token : Token}
    (member : token ∈ list text) (edited : statement.edited token = true) :
    token.kind.isSymbol = false :=
  (TokenKind.isWritten_iff.mp
    (Query.isWritten_of_anchor describes.fits ((describes.edited_iff member).mp edited))).1

end Edited

/-- The text of a query: its front, the gap in which the projection list ends, the tokens behind, and
trivia at the end. -/
structure Parts (query : Query) (text : String) (front gap behind last : List Char) : Prop where
  split : text.toList = front ++ (gap ++ (behind ++ last))
  spellsFront : Spells (gap ++ (behind ++ last)) 0 front query.front
  place : width front + width gap = frontStart text.utf8ByteSize query.behind
  endsGap : Trivia.between.length (gap ++ (behind ++ last)) = gap.length
  spellsBehind : Spells last (width front + width gap) behind query.behind
  endsLast : Trivia.between.length last = last.length
  empty : query.behind = [] → behind ++ last = []

theorem exists_parts (describes : query.Describes dialect text statement) :
    ∃ front gap behind last, Parts query text front gap behind last := by
  have are : listFrom 0 0 text.toList = query.front ++ query.behind := describes.tokens_eq
  obtain ⟨front, later, split, spells, rest⟩ := exists_spells are
  rw [Nat.zero_add] at rest
  cases stops : query.behind with
  | nil =>
    rw [stops] at rest
    refine ⟨front, later, [], [], by simpa using split, by simpa using spells, ?_, ?_, ?_, rfl, ?_⟩
    · rw [stops, frontStart, ← width_toList, split, width_append]
    · simpa using listFrom_eq_nil.mp rest
    · rw [stops]
      exact .nil
    · exact fun _ => rfl
  | cons token tokens =>
    rw [stops] at rest
    obtain ⟨gap, c, tail, more, rfl, trivia, _, start, _, _⟩ := exists_first rest
    rw [listFrom_gap trivia, ← List.append_nil (token :: tokens)] at rest
    obtain ⟨behind, last, is, spellsBehind, none⟩ := exists_spells rest
    rw [is] at split spells trivia
    refine ⟨front, gap, behind, last, split, spells, ?_, trivia, ?_, listFrom_eq_nil.mp none, ?_⟩
    · rw [stops, frontStart, start]
    · rw [stops]
      exact spellsBehind
    · simp [stops]

/-- Where tokens are behind the list, text is. -/
theorem Parts.ne_nil {front gap behind last : List Char} (parts : Parts query text front gap behind last)
    (some : query.behind ≠ []) : behind ++ last ≠ [] := by
  intro nothing
  obtain ⟨rfl, rfl⟩ := List.append_eq_nil_iff.mp nothing
  have whole := parts.spellsBehind.listFrom_append
  simp only [List.append_nil] at whole
  exact some (List.append_eq_nil_iff.mp whole.symm).1

/-- A comma behind the gap ends it. -/
theorem Parts.comma {front gap behind last : List Char} (parts : Parts query text front gap behind last)
    (valid : ∀ token ∈ query.front, ∀ error, token.kind ≠ .invalid error)
    (closed : query.behind = [] → EndsClosed text) (cs : List Char) :
    Trivia.between.length (gap ++ ',' :: cs) = gap.length := by
  by_cases stops : query.behind = []
  · obtain ⟨split, spells, _, trivia, _, _, empty⟩ := parts
    rw [empty stops, List.append_nil] at split spells trivia
    exact (closed stops).length_eq split spells (fun _ => valid) trivia cs
  · exact Trivia.length_before (parts.ne_nil stops) parts.endsGap (read_comma cs).1

/-- The edits of the names alone are made in the order of the names. -/
theorem toList_shardQuery_anchors (describes : query.Describes dialect text statement) {routes : Routes}
    {made : List Char} {lookups : List String}
    (makes : Edit.Makes (fun _ => routes.get?) 0 text.toList (query.anchors.map edit) made lookups) :
    (routes.shardQuery (query.anchors.map edit) text).toList = made := by
  have ordered := describes.pairwise_ascending (.inl rfl)
  rw [ascending, List.nil_append, ← List.map_append] at ordered
  obtain ⟨same, _⟩ := Splicing.runWith_of_makes makes (.refl _) ordered
  rw [Routes.shardQuery, Splicing.run, same, String.toList_ofList]

/-- Without added columns the query for a shard has the tokens of the query, those that are edited
replaced by the names put in their place. -/
theorem replaced_of_none (describes : query.Describes dialect text statement) {routes : Routes}
    (valid : ∀ token ∈ list text, ∀ error, token.kind ≠ .invalid error)
    (names : ∀ logical name, routes.get? logical = some name → IsPlaceable name)
    (parted : (list text).IsChain (Parted routes.get? statement.edited))
    (none : statement.addedColumns = []) : List.Forall₂ (Replaced routes.get? statement.edited)
      (list text) (list (routes.shardQuery statement.edits text)) := by
  have are : listFrom 0 0 text.toList = list text ++ [] := (List.append_nil _).symm
  obtain ⟨front, gap, split, spells, rest⟩ := exists_spells are
  have trivia := listFrom_eq_nil.mp rest
  have ends (offset : Nat) : Follows (madeOf routes.get? statement.edited)
      (isRouted routes.get? statement.edited) offset [] gap gap := by
    simpa using @Follows.of_trivia offset gap [] _ _ trivia (by simp)
  obtain ⟨front', rewrites⟩ := spells.rewritten valid names parted ends
  obtain ⟨_, makes⟩ := rewrites.makes (@Edit.Makes.kept _ _ gap)
  rw [← split, describes.filter_tokens, List.append_nil] at makes
  have edits := describes.edits_eq
  rw [Statement.insertions, if_pos none, List.append_nil] at edits
  obtain ⟨others, again, replaced⟩ := rewrites.reads 0
  have shard : list (routes.shardQuery statement.edits text) = others := by
    rw [edits, list, describes.toList_shardQuery_anchors makes, again, listFrom_eq_nil.mpr trivia,
      List.append_nil]
  rw [shard]
  exact replaced

/-- The query for a shard without added columns. -/
theorem shardReads_of_none (describes : query.Describes dialect text statement) {routes : Routes}
    (valid : ∀ token ∈ list text, ∀ error, token.kind ≠ .invalid error)
    (names : ∀ logical name, routes.get? logical = some name → IsName name)
    (parted : (list text).IsChain (Parted routes.get? statement.edited))
    (none : statement.addedColumns = []) : ∃ front' behind',
      statement.ShardReads routes.get? text (routes.shardQuery statement.edits text) query.front
        query.behind front' [] behind' := by
  have replaced := describes.replaced_of_none valid
    (fun logical name answer => isPlaceable_of_isName (names logical name answer)) parted none
  have become := replaced.imp fun _ _ => Replaced.becomes names
  rw [describes.tokens_eq] at become
  generalize shard : list (routes.shardQuery statement.edits text) = others at become
  refine ⟨others.take query.front.length, others.drop query.front.length, describes.tokens_eq,
    describes.projectionEnd.symm, ?_, ?_, ?_, ?_⟩
  · rw [shard, List.append_nil, List.take_append_drop]
  · simpa using List.forall₂_take query.front.length become
  · simpa using List.forall₂_drop query.front.length become
  · rw [none]
    rfl

/-- The text of a query for a shard: the front and what is behind the projection list with the edited
names in them, and between them the columns that are added. -/
structure ShardText (query : Query) (statement : Statement) (physical : String → Option String)
    (text shard : String) (front gap behind last front' behind' : List Char) : Prop where
  parts : Parts query text front gap behind last
  comma (cs : List Char) : Trivia.between.length (gap ++ ',' :: cs) = gap.length
  madeFront : Rewrites physical statement.edited
    (gap ++ ((Edit.insertion (statement.addedColumns.map AddedColumn.text)).toList ++
      (behind' ++ last))) 0 front front' query.front
  madeBehind : Rewrites physical statement.edited last (width front + width gap) behind behind'
    query.behind
  shard : shard.toList = front' ++ (gap ++
    ((Edit.insertion (statement.addedColumns.map AddedColumn.text)).toList ++ (behind' ++ last)))

/-- The edits make the new front, the gap as it was, the insertion and the new text behind it. -/
theorem toList_shardQuery (describes : query.Describes dialect text statement) {routes : Routes}
    {front gap behind last front' behind' cs ds : List Char}
    (parts : Parts query text front gap behind last)
    (madeFront : Rewrites routes.get? statement.edited cs 0 front front' query.front)
    (madeBehind : Rewrites routes.get? statement.edited ds (width front + width gap) behind behind'
      query.behind) (some : statement.addedColumns ≠ []) :
    (routes.shardQuery statement.edits text).toList = front' ++ (gap ++
      ((Edit.insertion (statement.addedColumns.map AddedColumn.text)).toList ++ (behind' ++ last))) := by
  obtain ⟨looked, makesBehind⟩ := madeBehind.makes (@Edit.Makes.kept _ _ last)
  rw [describes.filter_behind, List.append_nil] at makesBehind
  have offset : statement.projectionEnd = width front + width gap := by
    rw [describes.projectionEnd, ← parts.place]
  have inserting : Edit.Makes (fun _ => routes.get?) (width front + width gap) (behind ++ last)
      (.projection statement.projectionEnd (statement.addedColumns.map AddedColumn.text) ::
        query.laterAnchors.map edit)
      ((Edit.insertion (statement.addedColumns.map AddedColumn.text)).toList ++ (behind' ++ last))
      looked := by
    rw [offset]
    exact @Edit.Makes.projection _ _ [] _ _ _ _ _ (by simpa using makesBehind)
  have placed := inserting.behind
  rw [← Nat.zero_add (width front)] at placed
  obtain ⟨_, makes⟩ := madeFront.makes placed
  rw [← parts.split, describes.filter_front] at makes
  have edits := describes.edits_eq
  rw [Statement.insertions, if_neg some] at edits
  have perm := perm_ascending query
    [.projection statement.projectionEnd (statement.addedColumns.map AddedColumn.text)]
  rw [← edits] at perm
  have ordered := describes.pairwise_ascending
    (.inr ⟨statement.addedColumns.map AddedColumn.text, rfl⟩)
  rw [← describes.projectionEnd] at ordered
  obtain ⟨same, _⟩ := Splicing.runWith_of_makes makes perm ordered
  rw [Routes.shardQuery, Splicing.run, same, String.toList_ofList]

/-- The columns are added where the projection list ends. -/
theorem exists_shardText (describes : query.Describes dialect text statement) {routes : Routes}
    (valid : ∀ token ∈ list text, ∀ error, token.kind ≠ .invalid error)
    (names : ∀ logical name, routes.get? logical = some name → IsPlaceable name)
    (parted : (list text).IsChain (Parted routes.get? statement.edited))
    (closed : statement.projectionEnd = text.utf8ByteSize → EndsClosed text)
    (some : statement.addedColumns ≠ []) : ∃ front gap behind last front' behind',
      ShardText query statement routes.get? text (routes.shardQuery statement.edits text) front gap
        behind last front' behind' := by
  obtain ⟨front, gap, behind, last, parts⟩ := describes.exists_parts
  have among {token : Token} (member : token ∈ query.front ∨ token ∈ query.behind) :
      token ∈ list text := by
    rw [describes.tokens_eq]
    exact List.mem_append.mpr member
  have validFront : ∀ token ∈ query.front, ∀ error, token.kind ≠ .invalid error :=
    fun token member => valid token (among (.inl member))
  rw [describes.tokens_eq] at parted
  have ends (offset : Nat) : Follows (madeOf routes.get? statement.edited)
      (isRouted routes.get? statement.edited) offset [] last last := by
    simpa using @Follows.of_trivia offset last [] _ _ parts.endsLast (by simp)
  obtain ⟨behind', rewritesBehind⟩ := parts.spellsBehind.rewritten
    (fun token member => valid token (among (.inr member))) names parted.right_of_append ends
  generalize inserts : (Edit.insertion (statement.addedColumns.map AddedColumn.text)).toList = insertion
  obtain ⟨cs, begins⟩ : ∃ cs, insertion = ',' :: cs := by
    obtain ⟨column, columns, are⟩ := List.exists_cons_of_ne_nil some
    simp [← inserts, AddedColumn.toList_insertion, are]
  have follows (offset : Nat) : Follows (madeOf routes.get? statement.edited)
      (isRouted routes.get? statement.edited) offset [] (gap ++ (behind ++ last))
      (gap ++ (insertion ++ (behind' ++ last))) :=
    .behind_gap parts.endsGap (by simp) fun _ => .of_break (by rw [begins]; simp; decide)
  obtain ⟨front', rewrites⟩ :=
    parts.spellsFront.rewritten validFront names parted.left_of_append follows
  have shard := describes.toList_shardQuery parts rewrites rewritesBehind some
  subst inserts
  exact ⟨front, gap, behind, last, front', behind', parts, parts.comma validFront fun stops =>
    closed (by rw [describes.projectionEnd, stops, frontStart]), rewrites, rewritesBehind, shard⟩

/-- Behind the inserted columns a blank stands, and then the tokens go on. -/
theorem list_insertion {columns : List String} {offset stop : Nat} {behind rest : List Char}
    {inserted others : List Token}
    (own : Spells (' ' :: (behind ++ rest)) offset
      (columns.flatMap fun column => ',' :: ' ' :: column.toList) inserted)
    (reads : listFrom (offset +
        width (columns.flatMap fun column => ',' :: ' ' :: column.toList) + ' '.utf8Size) 0
      (behind ++ rest) = others ++ listFrom stop 0 rest)
    (trivia : Trivia.between.length rest = rest.length) :
    listFrom offset 0 ((Edit.insertion columns).toList ++ (behind ++ rest)) = inserted ++ others := by
  rw [AddedColumn.toList_insertion, List.append_assoc, List.singleton_append, own.listFrom_append,
    listFrom_blank (by decide), reads, listFrom_eq_nil.mpr trivia, List.append_nil]

/-- The tokens of the query for a shard: those of the front, of the added columns and of what is
behind them. -/
theorem ShardText.tokens {shard : String} {front gap behind last front' behind' : List Char}
    {tokens inserted others : List Token} {stop : Nat}
    (made : ShardText query statement physical text shard front gap behind last front' behind')
    (some : statement.addedColumns ≠ [])
    (reads : listFrom 0 0 (front' ++ (gap ++
        ((Edit.insertion (statement.addedColumns.map AddedColumn.text)).toList ++ (behind' ++ last)))) =
      tokens ++ listFrom (0 + width front') 0 (gap ++
        ((Edit.insertion (statement.addedColumns.map AddedColumn.text)).toList ++ (behind' ++ last))))
    (own : Spells (' ' :: (behind' ++ last)) (width (front' ++ gap))
      ((statement.addedColumns.map AddedColumn.text).flatMap
        fun column => ',' :: ' ' :: column.toList) inserted)
    (readsBehind : listFrom (width (front' ++ gap) +
        width ((statement.addedColumns.map AddedColumn.text).flatMap
          fun column => ',' :: ' ' :: column.toList) + ' '.utf8Size) 0 (behind' ++ last) =
      others ++ listFrom stop 0 last) :
    list shard = tokens ++ (inserted ++ others) := by
  have trivia : Trivia.between.length (gap ++
      ((Edit.insertion (statement.addedColumns.map AddedColumn.text)).toList ++ (behind' ++ last))) =
        gap.length := by
    obtain ⟨column, columns, are⟩ := List.exists_cons_of_ne_nil some
    rw [AddedColumn.toList_insertion, are]
    exact made.comma _
  have moved : 0 + width front' + width gap = width (front' ++ gap) := by
    rw [width_append, Nat.zero_add]
  rw [Token.list, made.shard, reads, listFrom_gap trivia, moved,
    list_insertion own readsBehind made.parts.endsLast]

/-- The query for a shard with added columns. -/
theorem shardReads_of_some (describes : query.Describes dialect text statement) {routes : Routes}
    (valid : ∀ token ∈ list text, ∀ error, token.kind ≠ .invalid error)
    (names : ∀ logical name, routes.get? logical = some name → IsName name)
    (parted : (list text).IsChain (Parted routes.get? statement.edited))
    (readable : ∀ column ∈ statement.addedColumns, column.IsReadable)
    (closed : statement.projectionEnd = text.utf8ByteSize → EndsClosed text)
    (some : statement.addedColumns ≠ []) : ∃ front' inserted behind',
      statement.ShardReads routes.get? text (routes.shardQuery statement.edits text) query.front
        query.behind front' inserted behind' := by
  obtain ⟨front, gap, behind, last, front', behind', made⟩ :=
    describes.exists_shardText valid
      (fun logical name answer => isPlaceable_of_isName (names logical name answer)) parted closed some
  obtain ⟨others, reads, replaced⟩ := made.madeFront.reads 0
  obtain ⟨inserted, own, content⟩ := @Stands.spells _ _ (AddedColumn.stands readable)
    (width (front' ++ gap)) (' ' :: (behind' ++ last)) (by simp; decide)
  obtain ⟨more, readsBehind, replacedBehind⟩ := made.madeBehind.reads
    (width (front' ++ gap) + width ((statement.addedColumns.map AddedColumn.text).flatMap
      fun column => ',' :: ' ' :: column.toList) + ' '.utf8Size)
  refine ⟨others, inserted, more, describes.tokens_eq, describes.projectionEnd.symm, ?_,
    replaced.imp fun _ _ => Replaced.becomes names,
    replacedBehind.imp fun _ _ => Replaced.becomes names, content⟩
  rw [made.tokens some reads own readsBehind, List.append_assoc]

end Query.Describes

/-- The names that the routes put in the text, and the columns that are added, can be read there:
tables have names that need no quotes, a name that is put in the text does not run into a token that it
touches, the columns of keys need no quotes, and at the end of the text no comment is open. -/
structure Statement.Respells (statement : Statement) (routes : Routes) (text : String) : Prop where
  names : ∀ logical name, routes.get? logical = some name → Text.IsName name
  parted : (Token.list text).IsChain (Token.Parted routes.get? statement.edited)
  unquoted : ∀ column aliasName, .key column aliasName ∈ statement.addedKeys → column.IsPlain
  closed : statement.projectionEnd = text.utf8ByteSize → Token.EndsClosed text

/-- The query for a shard is read as the query with tables in it and with the added columns. -/
theorem Query.Describes.shardReads {query : Query} {dialect : Dialect} {text : String}
    {statement : Statement} (describes : query.Describes dialect text statement)
    (plain : dialect.IsPlain) {routes : Routes}
    (valid : ∀ token ∈ Token.list text, ∀ error, token.kind ≠ .invalid error)
    (respells : statement.Respells routes text) : ∃ front' inserted behind',
      statement.ShardReads routes.get? text (routes.shardQuery statement.edits text) query.front
        query.behind front' inserted behind' := by
  by_cases none : statement.addedColumns = []
  · obtain ⟨front', behind', reads⟩ :=
      describes.shardReads_of_none valid respells.names respells.parted none
    exact ⟨front', [], behind', reads⟩
  · exact describes.shardReads_of_some valid respells.names respells.parted
      (describes.isReadable plain valid respells.unquoted) respells.closed none

end SelectRouting
