import SelectRouting.Proofs.Parallel
import SelectRouting.Proofs.ShardAnalysis
import SelectRouting.Proofs.TokenNumbers

/-!
# Queries with their names replaced

Where names are replaced in a query and no columns are added, it stays a query, and its projection list
ends at the token of the same number (`Statement.renamedText_accepted`). The query for a shard is this
query with the columns added in it (`Query.Describes.shardQuery_renamed`).
-/

namespace SelectRouting

/-- Prefixes of a text that are equally wide are the same. -/
theorem Text.append_inj_of_width {cs ds cs' ds' : List Char} (same : cs ++ cs' = ds ++ ds')
    (width_eq : width cs = width ds) : cs = ds ∧ cs' = ds' := by
  have cut := splitAt?_width cs cs'
  rw [same, width_eq, splitAt?_width] at cut
  exact (Prod.mk.inj (Option.some.inj cut)).imp Eq.symm Eq.symm

/-- The query in which the names are replaced and no columns are added. -/
def Statement.renamedText (statement : Statement) (routes : Routes) (text : String) : String :=
  routes.shardQuery (statement.edits.filter Edit.isName) text

namespace Query.Describes
open Token Text

variable {query : Query} {dialect : Dialect} {text renamed : String} {statement : Statement}
  {physical : String → Option String} {routes : Routes}
  {front gap behind last front' behind' : List Char}

section RenamedParts

/-- The edits of names are those of the anchors. -/
theorem filter_edits (describes : query.Describes dialect text statement) :
    statement.edits.filter Edit.isName = query.anchors.map Token.edit := by
  rw [describes.edits_eq, List.filter_append, Statement.insertions]
  have names : (query.anchors.map Token.edit).filter Edit.isName = query.anchors.map Token.edit := by
    refine List.filter_eq_self.mpr fun edit member => ?_
    obtain ⟨token, _, rfl⟩ := List.mem_map.mp member
    rfl
  rw [names]
  split <;> simp [Edit.isName]

/-- No name stands where the projection list ends. -/
theorem kept_behind (describes : query.Describes dialect text statement) {first : Token}
    (begins : first ∈ query.behind.head?) : statement.edited first = false := by
  refine Bool.eq_false_iff.mpr fun edited => ?_
  obtain ⟨others, are⟩ := List.head?_eq_some_iff.mp begins
  have distinct := nodup text
  rw [describes.tokens_eq, are] at distinct
  have later : first ∈ query.laterAnchors := by
    rw [← describes.filter_behind, are]
    exact List.mem_filter.mpr ⟨List.mem_cons_self, edited⟩
  have among := (laterAnchors_sublist describes.fits).subset later
  rw [are] at among
  exact (List.nodup_cons.mp distinct.of_append_right).1 among

/-- The text of a query with its names replaced: the gap in which the projection list ends stays as it
is. -/
structure RenamedParts (query : Query) (statement : Statement) (physical : String → Option String)
    (text renamed : String) (front gap behind last front' behind' : List Char) : Prop where
  parts : Parts query text front gap behind last
  madeFront : Rewrites physical statement.edited (gap ++ (behind' ++ last)) 0 front front' query.front
  madeBehind : Rewrites physical statement.edited last (width front + width gap) behind behind'
    query.behind
  endsGap : Trivia.between.length (gap ++ (behind' ++ last)) = gap.length
  empty : query.behind = [] → behind' ++ last = []
  renamed : renamed.toList = front' ++ (gap ++ (behind' ++ last))

theorem exists_renamedParts (describes : query.Describes dialect text statement)
    (valid : ∀ token ∈ list text, ∀ error, token.kind ≠ .invalid error)
    (names : ∀ logical name, routes.get? logical = some name → IsPlaceable name)
    (parted : (list text).IsChain (Parted routes.get? statement.edited)) :
    ∃ front gap behind last front' behind', RenamedParts query statement routes.get? text
      (statement.renamedText routes text) front gap behind last front' behind' := by
  obtain ⟨front, gap, behind, last, parts⟩ := describes.exists_parts
  rw [describes.tokens_eq] at parted valid
  have ends : Follows (madeOf routes.get? statement.edited) (isRouted routes.get? statement.edited)
      (width front + width gap + width behind) [] last last := by
    simpa using @Follows.of_trivia (width front + width gap + width behind) last [] _ _ parts.endsLast
      (by simp)
  obtain ⟨behind', madeBehind, follows, leads⟩ := parts.spellsBehind.rewritten_before
    (fun token member => valid token (List.mem_append_right _ member)) names
    (by simpa using parted.right_of_append) ends
  rw [List.append_nil] at follows
  have empty (stops : query.behind = []) : behind' ++ last = [] := by
    obtain ⟨rfl, rfl⟩ := List.append_eq_nil_iff.mp (parts.empty stops)
    rw [stops] at madeBehind
    rw [madeBehind.eq_nil, List.append_nil]
  have endsGap : Trivia.between.length (gap ++ (behind' ++ last)) = gap.length := by
    by_cases stops : query.behind = []
    · rw [empty stops, ← parts.empty stops, parts.endsGap]
    · have some := parts.ne_nil stops
      refine Trivia.length_before some parts.endsGap ?_
      obtain ⟨first, others, are⟩ := List.exists_cons_of_ne_nil stops
      have begins : first ∈ query.behind.head? := by rw [are]; rfl
      rw [leads first begins (by rw [isRouted, describes.kept_behind begins, Bool.false_and])]
      exact Trivia.length_behind some parts.endsGap
  have placed : Follows (madeOf routes.get? statement.edited) (isRouted routes.get? statement.edited)
      (0 + width front) query.behind (gap ++ (behind ++ last)) (gap ++ (behind' ++ last)) := by
    rw [Nat.zero_add]
    refine .behind_gap parts.endsGap (fun next first => ?_) ?_
    · obtain ⟨others, are⟩ := List.head?_eq_some_iff.mp first
      rw [parts.place, are, frontStart]
    · rintro rfl
      simpa using follows
  obtain ⟨front', madeFront, _⟩ := parts.spellsFront.rewritten_before
    (fun token member => valid token (List.mem_append_left _ member)) names parted placed
  refine ⟨front, gap, behind, last, front', behind', parts, madeFront, madeBehind, endsGap, empty, ?_⟩
  obtain ⟨_, makesBehind⟩ := madeBehind.makes (@Edit.Makes.kept _ _ last)
  have placed := makesBehind.behind
  rw [← Nat.zero_add (width front)] at placed
  obtain ⟨_, makes⟩ := madeFront.makes placed
  rw [← parts.split, describes.filter_front, describes.filter_behind, List.append_nil,
    ← List.map_append] at makes
  rw [Statement.renamedText, describes.filter_edits]
  exact describes.toList_shardQuery_anchors makes

/-- The tokens of a query with its names replaced, cut where the projection list ends. -/
theorem RenamedParts.tokens (made : RenamedParts query statement physical text renamed front gap behind
      last front' behind') : ∃ others more, list renamed = others ++ more ∧
      List.Forall₂ (Replaced physical statement.edited) query.front others ∧
      List.Forall₂ (Replaced physical statement.edited) query.behind more ∧
      frontStart renamed.utf8ByteSize more = width front' + width gap := by
  obtain ⟨others, reads, replaced⟩ := made.madeFront.reads 0
  obtain ⟨more, readsBehind, replacedBehind⟩ := made.madeBehind.reads (0 + width front' + width gap)
  have later : listFrom (0 + width front' + width gap) 0 (behind' ++ last) = more := by
    rw [readsBehind, listFrom_eq_nil.mpr made.parts.endsLast, List.append_nil]
  refine ⟨others, more, ?_, replaced, replacedBehind, ?_⟩
  · rw [list, made.renamed, reads, listFrom_gap made.endsGap, later]
  · rw [← Nat.zero_add (width front')]
    cases more with
    | nil =>
      rw [frontStart, ← width_toList, made.renamed,
        made.empty (List.forall₂_nil_right_iff.mp replacedBehind), List.append_nil, width_append,
        Nat.zero_add]
    | cons token more =>
      obtain ⟨lead, c, tail, rest, is, trivia, _, start, _⟩ := exists_first later
      have some : behind' ++ last ≠ [] := by rw [is]; simp
      rw [Trivia.length_behind some made.endsGap] at trivia
      obtain rfl := List.length_eq_zero_iff.mp trivia.symm
      rw [frontStart, start, width_nil, Nat.add_zero]

/-- A comment that is closed at the end of the query is closed when its names are replaced. -/
theorem RenamedParts.endsClosed (made : RenamedParts query statement physical text renamed front gap behind
      last front' behind') (valid : ∀ token ∈ query.front, ∀ error, token.kind ≠ .invalid error)
    (names : ∀ logical name, physical logical = some name → IsPlaceable name)
    (parted : query.front.IsChain (Parted physical statement.edited)) (stops : query.behind = [])
    (closed : EndsClosed text) : EndsClosed renamed := by
  obtain ⟨others, more, are, replaced, replacedBehind, _⟩ := made.tokens
  rw [stops, List.forall₂_nil_left_iff] at replacedBehind
  have spells := made.parts.spellsFront
  have ends := made.parts.endsGap
  rw [made.parts.empty stops, List.append_nil] at spells ends
  -- before a comma the front is made as before
  obtain ⟨front'', madeComma⟩ := spells.rewritten valid names parted fun offset =>
    @Follows.of_trivia offset gap [','] _ _ ends (by simp; decide)
  obtain rfl := made.madeFront.unique madeComma
  obtain ⟨others', reads, replaced'⟩ := madeComma.reads 0
  have comma : listFrom (0 + width front' + width gap) 0 [','] ≠ [] := by
    rw [Ne, listFrom_eq_nil, (read_comma []).1]
    simp
  have longer : list (renamed ++ ",") = others' ++ listFrom (0 + width front' + width gap) 0 [','] := by
    rw [list, String.toList_append, made.renamed, made.empty stops, List.append_nil, List.append_assoc]
    refine reads.trans (congrArg (others' ++ ·) (listFrom_gap ?_))
    exact made.parts.comma valid (fun _ => closed) []
  rw [EndsClosed, longer, are, replacedBehind, List.append_nil, ← replaced.length_eq,
    List.length_append, ← replaced'.length_eq]
  exact Nat.lt_add_of_pos_right (List.length_pos_iff.mpr comma)

end RenamedParts

end Query.Describes

/-- The text is none of the words that are looked for, and no star in quotes. -/
def Text.IsOrdinary (written : String) : Prop :=
  stripQuotes written ≠ "*" ∧ ∀ word ∈ Cursor.looseWords, sameIgnoringCase written word = false

instance {written : String} : Decidable (Text.IsOrdinary written) :=
  inferInstanceAs (Decidable (_ ∧ _))

/-- The tokens are written in the same way, or both in an ordinary one. -/
def Token.WrittenAlike (token other : Token) : Prop :=
  token.lexeme = other.lexeme ∨ Text.IsOrdinary token.lexeme ∧ Text.IsOrdinary other.lexeme

/-- The numbers of tokens count in place of their offsets, and their texts up to ordinary ones. -/
def Likeness.renamed (text renamed : String) : Likeness where
  text _ _ := True
  quote _ _ := True
  place := SamePlace text renamed
  count := Eq
  token token other := Token.SameNumber text renamed token other ∧ Token.WrittenAlike token other

section Renamed
variable {text renamed : String}

instance : (Likeness.renamed text renamed).Lawful where
  refl _ := trivial
  append _ _ := trivial
  stripQuotes_name := id
  text_of_name := id
  stripQuotes := id
  name_of_word _ _ := trivial
  spells alike word loose := by
    rcases alike.common.2 with same | ⟨ordinary, ordinary'⟩
    · rw [same]
    · rw [ordinary.2 word loose, ordinary'.2 word loose]
  stripQuotes_quote := id
  quote_empty := trivial
  count_succ := congrArg Nat.succ

/-- The statements have equally many items and tables, items of the same kinds, the same row limit and
number of placeholders, and projection lists that end at tokens of the same number. -/
structure Statement.Renamed (text renamed : String) (statement other : Statement) : Prop where
  distinct : other.distinct = statement.distinct
  items : List.Forall₂ (Item.Like (.renamed text renamed)) statement.items other.items
  tables : other.tables.length = statement.tables.length
  containsStar : other.containsStar = statement.containsStar
  projectionEnd : SamePlace text renamed statement.projectionEnd other.projectionEnd
  parameters : other.parameters = statement.parameters
  limit : Option.Rel (Limit.Like (.renamed text renamed)) statement.limit other.limit

namespace Statement.Renamed
variable {s s' : Statement}

instance : HeadRelation (.renamed text renamed) (Renamed text renamed) where
  edits alike _ _ := { alike with }
  distinct alike := { alike with distinct := rfl }
  items alike same :=
    { alike with
      items := List.rel_append alike.items (.cons same .nil)
      containsStar := congrArg₂ (· || ·) alike.containsStar same.isStar_eq }
  projectionEnd alike ends := { alike with projectionEnd := ends }

theorem withOwner (alike : Renamed text renamed s s') (owner owner' : Name) :
    Renamed text renamed (s.withOwner owner) (s'.withOwner owner') := by
  unfold Statement.withOwner
  split <;> split <;> exact { alike with }

instance : ClauseRelation (.renamed text renamed) AnyAlias (Renamed text renamed) where
  isEmpty_tables alike := by
    rw [Bool.eq_iff_iff, List.isEmpty_iff_length_eq_zero, List.isEmpty_iff_length_eq_zero,
      alike.tables]
  withOwner alike _ := alike.withOwner _ _
  aliasOf _ _ := trivial
  tables alike _ _ := { alike with tables := by simp [alike.tables] }
  parameters alike counted := { alike with parameters := Eq.symm counted }
  groupKeys alike _ := { alike with }
  orderKeys alike _ := { alike with }
  limits alike same := { alike with limit := .some same }

theorem withDerivedColumns (alike : Renamed text renamed s s') :
    Renamed text renamed s.withDerivedColumns s'.withDerivedColumns :=
  { alike with items := Item.splitAverages_like alike.items 0 }

end Statement.Renamed

/-- The tokens are alike wherever they stand. -/
def Token.Renamed (text renamed : String) (token other : Token) : Prop :=
  TokenKind.Like (.renamed text renamed) token.kind other.kind ∧ WrittenAlike token other

/-- The cursors before the first tokens are alike. -/
theorem Cursor.like_renamed (tokens : List.Forall₂ (Token.Renamed text renamed) (Token.list text)
      (Token.list renamed)) :
    Cursor.Like (.renamed text renamed) { text, rest := Token.list text }
      { text := renamed, rest := Token.list renamed } := by
  have all : List.Forall₂ (Token.Renamed text renamed) (Token.tokenize text) (Token.tokenize renamed) :=
    List.rel_append tokens (.cons ⟨.same _, .inl rfl⟩ .nil)
  refine like_of_numbers tokens.length_eq.symm (fun {token other} number => ?_)
    (fun _ _ _ _ => trivial) .front rfl fun _ _ => trivial
  have places : Span.Like (.renamed text renamed) token.span other.span :=
    ⟨.start number, .stop number⟩
  obtain ⟨n, found, found'⟩ := number
  obtain ⟨inside, is⟩ := List.getElem?_eq_some_iff.mp found
  obtain ⟨inside', is'⟩ := List.getElem?_eq_some_iff.mp found'
  obtain ⟨kind, written⟩ := (List.forall₂_iff_get.mp all).2 n inside inside'
  rw [List.get_eq_getElem, List.get_eq_getElem] at kind written
  rw [is, is'] at kind written
  exact ⟨kind, trivial, places, ⟨n, found, found'⟩, written⟩

/-- Texts whose tokens are renamed are analysed in the same way. -/
theorem Statement.ofText_agrees_renamed {dialect : Dialect} (plain : dialect.IsPlain)
    (tokens : List.Forall₂ (Token.Renamed text renamed) (Token.list text) (Token.list renamed)) :
    SameOutcome (ParseError.Alike (.renamed text renamed)) (Statement.Renamed text renamed)
      (ofText dialect text) (ofText dialect renamed) := by
  have ordered : (Likeness.renamed text renamed).Ordered :=
    ⟨fun places alike => places.le_iff tokens.length_eq.symm alike.common.1⟩
  have alike := Cursor.like_renamed tokens
  have start : Analysis.Like (.renamed text renamed) (Renamed text renamed)
      { cursor := { text, rest := Token.list text } }
      { cursor := { text := renamed, rest := Token.list renamed } } :=
    ⟨alike, ⟨rfl, .nil, rfl, rfl, .front, rfl, .none⟩⟩
  refine ofText_agrees alike.rest (AnalysisStep.select_agreesAt
    (fun _ _ renamed => renamed.withDerivedColumns) dialect start fun {_ begins begins'} _ same => ?_)
  refine ⟨fun word given => absurd (given.symm.trans plain.itemWord) (by simp), ?_⟩
  unfold AnalysisStep.itemFront
  rw [plain.itemWord]
  dsimp only
  rcases same.cursor.current.common.2 with written | ⟨ordinary, ordinary'⟩
  · rw [written]
  · rw [beq_eq_false_iff_ne.mpr ordinary.1, beq_eq_false_iff_ne.mpr ordinary'.1]

theorem Token.Becomes.isRenamed {physical : String → Option String} {edited : Token → Bool}
    {token other : Token} (becomes : Becomes physical edited token other)
    (names : ∀ logical name, physical logical = some name → Text.IsOrdinary name)
    (routed : isRouted physical edited token = true →
      (∃ name, token.kind = .identifier name) ∧ Text.IsOrdinary token.lexeme) :
    Token.Renamed text renamed token other := by
  cases becomes with
  | kept _ kind lexeme => exact ⟨by rw [kind]; exact .same _, .inl lexeme.symm⟩
  | renamed is answer kind lexeme =>
    obtain ⟨⟨name, isName⟩, ordinary⟩ := routed (by rw [isRouted, is, answer]; rfl)
    refine ⟨?_, .inr ⟨ordinary, by rw [lexeme]; exact names _ _ answer⟩⟩
    rw [isName, kind]
    exact .identifier trivial

end Renamed

/-- The names that are routed can be replaced in the text: tables have names that need no quotes and do
not run into the tokens that they touch, a name that is replaced is an identifier, and neither is a word
that is looked for. -/
structure Statement.Renamable (statement : Statement) (routes : Routes) (text : String) : Prop where
  names : ∀ logical name, routes.get? logical = some name → Text.IsName name ∧ Text.IsOrdinary name
  parted : (Token.list text).IsChain (Token.Parted routes.get? statement.edited)
  tokens : ∀ token ∈ Token.list text, Token.isRouted routes.get? statement.edited token = true →
    (∃ name, token.kind = .identifier name) ∧ Text.IsOrdinary token.lexeme

section Renamable
variable {statement : Statement} {routes : Routes} {text : String}

theorem Statement.Renamable.isName (renamable : statement.Renamable routes text) (logical name : String)
    (answer : routes.get? logical = some name) : Text.IsName name :=
  (renamable.names logical name answer).1

theorem Statement.Renamable.isPlaceable (renamable : statement.Renamable routes text)
    (logical name : String) (answer : routes.get? logical = some name) : Token.IsPlaceable name :=
  Token.isPlaceable_of_isName (renamable.isName logical name answer)

end Renamable

namespace Query.Describes
open Token Text

variable {query query' : Query} {dialect : Dialect} {text renamed : String} {s s' : Statement}
  {routes : Routes}

/-- Where its names are replaced, a query is read as before. -/
theorem ofText_renamed (describes : query.Describes dialect text s) (plain : dialect.IsPlain)
    (accepted : Statement.ofText dialect text = .ok s) (renamable : s.Renamable routes text) :
    ∃ front gap behind last front' behind' routed,
      RenamedParts query s routes.get? text (s.renamedText routes text) front gap behind last front'
        behind' ∧
      Statement.ofText dialect (s.renamedText routes text) = .ok routed ∧
      Statement.Renamed text (s.renamedText routes text) s routed := by
  obtain ⟨opened, _⟩ := Statement.ofText_ok accepted
  have valid := Cursor.valid_of_ofText opened
  obtain ⟨front, gap, behind, last, front', behind', made⟩ := describes.exists_renamedParts valid
    renamable.isPlaceable renamable.parted
  obtain ⟨others, more, are, replaced, replacedBehind, _⟩ := made.tokens
  generalize s.renamedText routes text = renamed at made are
  have all : List.Forall₂ (Replaced routes.get? s.edited) (list text) (list renamed) := by
    rw [are, describes.tokens_eq]
    exact List.rel_append replaced replacedBehind
  have tokens : List.Forall₂ (Token.Renamed text renamed) (list text) (list renamed) :=
    ((List.forall₂_and_left _ _).mpr ⟨fun _ => id, all⟩).imp fun token _ found =>
      (found.2.becomes renamable.isName).isRenamed
        (fun _ _ answer => (renamable.names _ _ answer).2) (renamable.tokens token found.1)
  have outcome := Statement.ofText_agrees_renamed plain tokens
  rw [accepted] at outcome
  generalize Statement.ofText dialect renamed = answer at outcome
  cases outcome with
  | ok alike => exact ⟨front, gap, behind, last, front', behind', _, made, rfl, alike⟩

/-- The projection list ends at a token. -/
theorem exists_stop (describes : query.Describes dialect text s) : ∃ token,
    (tokenize text)[query.front.length]? = some token ∧ token.start = s.projectionEnd := by
  rw [tokenize, describes.tokens_eq, List.append_assoc,
    List.getElem?_append_right (Nat.le_refl _), Nat.sub_self, describes.projectionEnd]
  cases query.behind with
  | nil => exact ⟨_, rfl, rfl⟩
  | cons token => exact ⟨token, rfl, rfl⟩

/-- Nothing is behind a projection list that ends with the text. -/
theorem behind_eq_nil (describes : query.Describes dialect text s)
    (ends : s.projectionEnd = text.utf8ByteSize) : query.behind = [] := by
  obtain ⟨stop, found, starts⟩ := describes.exists_stop
  have last : (tokenize text)[(list text).length]? = some (eof text.utf8ByteSize) := by
    simp [tokenize]
  have number := number_eq found last (starts.trans ends)
  rw [describes.tokens_eq, List.length_append] at number
  exact List.length_eq_zero_iff.mp (by omega)

/-- Projection lists that end at the same place have equally many tokens. -/
theorem length_front_eq (describes : query.Describes dialect text s)
    (describes' : query'.Describes dialect renamed s')
    (length : (list renamed).length = (list text).length)
    (places : SamePlace text renamed s.projectionEnd s'.projectionEnd) :
    query'.front.length = query.front.length := by
  have among {text : String} {n : Nat} (inside : n ≤ (list text).length) :
      ∃ token, (tokenize text)[n]? = some token :=
    ⟨_, List.getElem?_eq_getElem (by simpa [tokenize] using Nat.lt_succ_of_le inside)⟩
  obtain ⟨stop, found, starts⟩ := describes.exists_stop
  obtain ⟨stop', found', starts'⟩ := describes'.exists_stop
  obtain ⟨other, foundOther⟩ := among (length ▸ lt_length_tokenize found)
  obtain ⟨other', foundOther'⟩ := among (length.symm ▸ lt_length_tokenize found')
  rw [← starts, ← starts'] at places
  refine Nat.le_antisymm ?_ ?_
  · have before := (places.le_iff length ⟨_, found, foundOther⟩).mp (Nat.le_refl _)
    exact (start_le_start_iff found' foundOther).mp before
  · have before := (places.le_iff length ⟨_, foundOther', found'⟩).mpr (Nat.le_refl _)
    exact (start_le_start_iff found foundOther').mp before

/-- Where the projection list of the renamed query ends. -/
theorem RenamedParts.projectionEnd_eq {physical : String → Option String}
    {front gap behind last front' behind' : List Char}
    (made : RenamedParts query s physical text renamed front gap behind last front' behind')
    (describes : query.Describes dialect text s) (describes' : query'.Describes dialect renamed s')
    (alike : Statement.Renamed text renamed s s') : s'.projectionEnd = width front' + width gap ∧
      (query.behind = [] ↔ query'.behind = []) := by
  obtain ⟨others, more, are, replaced, replacedBehind, stop⟩ := made.tokens
  have size := congrArg List.length are
  rw [List.length_append, ← replaced.length_eq, ← replacedBehind.length_eq, ← List.length_append,
    ← describes.tokens_eq] at size
  have front := describes.length_front_eq describes' size alike.projectionEnd
  have cut := describes'.tokens_eq.symm.trans are
  obtain ⟨-, rfl⟩ := List.append_inj cut (front.trans replaced.length_eq)
  refine ⟨describes'.projectionEnd.trans stop, ?_⟩
  rw [← List.length_eq_zero_iff, replacedBehind.length_eq, List.length_eq_zero_iff]

/-- Where columns are added to both, it does not matter whether the names are replaced before or
after. -/
theorem RenamedParts.shardQuery_eq {front gap behind last front' behind' : List Char}
    (made : RenamedParts query s routes.get? text renamed front gap behind last front' behind')
    (describes : query.Describes dialect text s) (describes' : query'.Describes dialect renamed s')
    (valid : ∀ token ∈ list renamed, ∀ error, token.kind ≠ .invalid error)
    (closed : s'.projectionEnd = renamed.utf8ByteSize → EndsClosed renamed)
    (stop : s'.projectionEnd = width front' + width gap) (same : s'.addedColumns = s.addedColumns)
    (some : s.addedColumns ≠ []) :
    routes.shardQuery s.edits text = ({} : Routes).shardQuery s'.edits renamed := by
  obtain ⟨front'', gap', behind'', last', added⟩ :=
    describes'.exists_added valid closed (by rwa [same])
  have own := describes.toList_shardQuery made.parts made.madeFront made.madeBehind some
  -- the same columns are put in the renamed query, and at the same place
  have whole := added.parts.split.symm.trans made.renamed
  rw [← List.append_assoc, ← List.append_assoc front'] at whole
  obtain ⟨before, after⟩ := append_inj_of_width whole (by
    rw [width_append, width_append, added.parts.place, ← describes'.projectionEnd, stop])
  refine String.toList_inj.mp (own.trans (added.shard.trans ?_).symm)
  rw [same, after, ← List.append_assoc, before, List.append_assoc]

/-- Where the same columns are missing, it does not matter whether the names are replaced before or
after the columns are added. -/
theorem shardQuery_renamed (describes : query.Describes dialect text s) (plain : dialect.IsPlain)
    (accepted : Statement.ofText dialect text = .ok s) (renamable : s.Renamable routes text)
    (closed : s.addedColumns ≠ [] → s.projectionEnd = text.utf8ByteSize → EndsClosed text)
    (follows : ∀ routed, Statement.ofText dialect (s.renamedText routes text) = .ok routed →
      routed.addedColumns = s.addedColumns) : ∃ routed,
      Statement.ofText dialect (s.renamedText routes text) = .ok routed ∧
      (routed.addedColumns ≠ [] → routed.projectionEnd = (s.renamedText routes text).utf8ByteSize →
        EndsClosed (s.renamedText routes text)) ∧
      routes.shardQuery s.edits text =
        ({} : Routes).shardQuery routed.edits (s.renamedText routes text) := by
  obtain ⟨opened, _⟩ := Statement.ofText_ok accepted
  have valid := Cursor.valid_of_ofText opened
  obtain ⟨front, gap, behind, last, front', behind', routed, made, read, alike⟩ :=
    describes.ofText_renamed plain accepted renamable
  obtain ⟨opened', _⟩ := Statement.ofText_ok read
  obtain ⟨query', describes'⟩ := Statement.exists_query plain read
  obtain ⟨stop, stops⟩ := made.projectionEnd_eq describes describes' alike
  have same := follows routed read
  have closed' (added : routed.addedColumns ≠ [])
      (ends : routed.projectionEnd = (s.renamedText routes text).utf8ByteSize) :
      EndsClosed (s.renamedText routes text) := by
    have none := stops.mpr (describes'.behind_eq_nil ends)
    have parted := renamable.parted
    rw [describes.tokens_eq] at valid parted
    refine made.endsClosed (fun token member => valid token (List.mem_append_left _ member))
      renamable.isPlaceable parted.left_of_append none (closed (same ▸ added) ?_)
    rw [describes.projectionEnd, none, frontStart]
  refine ⟨routed, read, closed', ?_⟩
  by_cases none : s.addedColumns = []
  · have edits := describes.edits_eq
    rw [Statement.insertions, if_pos none, List.append_nil, ← describes.filter_edits] at edits
    rw [describes'.shardQuery_of_none (same.trans none), Statement.renamedText, ← edits]
  · exact made.shardQuery_eq describes describes' (Cursor.valid_of_ofText opened')
      (closed' (by rwa [same])) stop same none

end Query.Describes

/-- **A query stays a query when its names are replaced**, with equally many items and tables, the same
row limit and number of placeholders, and a projection list that ends at the token of the same number. -/
theorem Statement.renamedText_accepted {dialect : Dialect} (shipped : dialect ∈ Dialect.shipped)
    {text : String} {statement : Statement} (accepted : ofText dialect text = .ok statement)
    {routes : Routes} (renamable : statement.Renamable routes text) : ∃ routed,
      ofText dialect (statement.renamedText routes text) = .ok routed ∧
      Renamed text (statement.renamedText routes text) statement routed := by
  have plain := Dialect.isPlain_of_shipped shipped
  obtain ⟨query, describes⟩ := exists_query plain accepted
  obtain ⟨_, _, _, _, _, _, routed, _, read, alike⟩ := describes.ofText_renamed plain accepted renamable
  exact ⟨routed, read, alike⟩

end SelectRouting
