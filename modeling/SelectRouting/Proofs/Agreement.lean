import Mathlib.Data.List.Forall2
import SelectRouting.Expr.Parser
import SelectRouting.Proofs.Lexing
import SelectRouting.Proofs.Outcome

/-!
# Runs that agree

A reader sees little of its tokens: their shapes, the words that they spell, and the order of their
offsets. So on two token lists that are alike in what it sees it goes the same way: it answers on both
or fails on both, and the answers or the errors are alike again (`Step.Agrees`). From two states alone
it is `Step.AgreesAt`, for readers of which more is known where they start.

What is alike is a choice (`Likeness`), such as texts that differ in the case of their letters only, or
the same tokens at other places.
-/

namespace SelectRouting

/-- What of two queries counts as alike. -/
structure Likeness where
  /-- Texts of tokens, and what is put together from them. -/
  text : String → String → Prop
  /-- Parts that are quoted from the queries. -/
  quote : String → String → Prop
  /-- Byte offsets. -/
  place : Nat → Nat → Prop
  /-- Numbers of placeholders. -/
  count : Nat → Nat → Prop
  /-- Texts that are read as names of columns and tables. -/
  name : String → String → Prop := text
  /-- What tokens have in common besides their texts and places. -/
  token : Token → Token → Prop := fun _ _ => True

/-- Of names alone counts as alike what counts so of names. -/
def Likeness.named (like : Likeness) : Likeness :=
  { like with text := like.name }

theorem Text.sameIgnoringCase_iff {left right : String} : sameIgnoringCase left right = true ↔
    left.toList.map Char.toLower = right.toList.map Char.toLower := by
  rw [sameIgnoringCase, beq_iff_eq]

section Like
variable (like : Likeness)

/-- The spans begin and end at places that are alike. -/
structure Span.Like (span other : Span) : Prop where
  start : like.place span.start other.start
  stop : like.place span.stop other.stop

/-- The kinds are the same but for the text of a string or a name. -/
inductive TokenKind.Like : TokenKind → TokenKind → Prop where
  | string {text text' : String} : like.text text text' → Like (.string text) (.string text')
  | identifier {name name' : String} : like.text name name' →
      Like (.identifier name) (.identifier name')
  | same (kind : TokenKind) : Like kind kind

/-- The tokens are alike in what they are, in how they are written and in where they stand. -/
structure Token.Like (token other : Token) : Prop where
  kind : TokenKind.Like like token.kind other.kind
  lexeme : like.text token.lexeme other.lexeme
  span : Span.Like like token.span other.span
  common : like.token token other

/-- The errors have the same cause, at places that are alike. -/
inductive ParseError.Like : ParseError → ParseError → Prop where
  | lexical (error : LexicalError) {span span' : Span} : Span.Like like span span' →
      Like (.lexical error span) (.lexical error span')
  | unexpected (expected : Expectation) {found found' : TokenKind} {span span' : Span} :
      TokenKind.Like like found found' → Span.Like like span span' →
      Like (.unexpected expected found span) (.unexpected expected found' span')
  | unsupported (word : Keyword) {span span' : Span} : Span.Like like span span' →
      Like (.unsupported word span) (.unsupported word span')
  | subquery {span span' : Span} : Span.Like like span span' →
      Like (.subquery span) (.subquery span')

/-- The errors have the same cause, at tokens that are alike. -/
inductive ParseError.Alike : ParseError → ParseError → Prop where
  | lexical (error : LexicalError) {token token' : Token} : Token.Like like token token' →
      Alike (.lexical error token.span) (.lexical error token'.span)
  | unexpected (expected : Expectation) {token token' : Token} : Token.Like like token token' →
      Alike (.unexpected expected token.kind token.span)
        (.unexpected expected token'.kind token'.span)
  | unsupported (word : Keyword) {token token' : Token} : Token.Like like token token' →
      Alike (.unsupported word token.span) (.unsupported word token'.span)
  | subquery {token token' : Token} : Token.Like like token token' →
      Alike (.subquery token.span) (.subquery token'.span)

/-- The cursors stand before tokens that are alike, in texts of which the same parts are alike. What
stands behind a point is alike as a name. -/
structure Cursor.Like (cursor other : Cursor) : Prop where
  rest : List.Forall₂ (Token.Like like) cursor.rest other.rest
  points : ∀ n, (cursor.peek n).kind = .symbol .dot →
    like.name (cursor.peek (n + 1)).lexeme (other.peek (n + 1)).lexeme
  previous : Span.Like like cursor.previous other.previous
  parameters : like.count cursor.parameters other.parameters
  eof : Token.Like like (.eof cursor.text.utf8ByteSize) (.eof other.text.utf8ByteSize)
  quotes : ∀ {span span' : Span}, Span.Like like span span' →
    like.quote (span.slice cursor.text) (span'.slice other.text)

end Like

theorem ParseError.Alike.like {like : Likeness} {error other : ParseError}
    (alike : Alike like error other) : ParseError.Like like error other := by
  cases alike with
  | lexical error tokens => exact .lexical error tokens.span
  | unexpected expected tokens => exact .unexpected expected tokens.kind tokens.span
  | unsupported word tokens => exact .unsupported word tokens.span
  | subquery tokens => exact .subquery tokens.span

/-- The words that are looked for at a cursor without being keywords there. -/
def Cursor.looseWords : List String :=
  ["NULLS", "FIRST", "LAST", "ESCAPE", "UPDATE", "IN", "SHARE", "MODE"]

/-- Names that are alike are alike as texts, and none of what a reader does makes texts unlike. Tokens
that are alike spell the same of the words that are looked for, and a word is alike as a name. -/
class Likeness.Lawful (like : Likeness) : Prop where
  append : ∀ {left left' right right' : String}, like.name left left' → like.name right right' →
    like.name (left ++ right) (left' ++ right')
  refl : ∀ name, like.name name name
  stripQuotes_name : ∀ {name name' : String}, like.name name name' →
    like.name (Text.stripQuotes name) (Text.stripQuotes name')
  text_of_name : ∀ {name name' : String}, like.name name name' → like.text name name'
  stripQuotes : ∀ {text text' : String}, like.text text text' →
    like.text (Text.stripQuotes text) (Text.stripQuotes text')
  name_of_word : ∀ {token token' : Token}, Token.Like like token token' →
    token.kind.isWord = true → like.name token.lexeme token'.lexeme
  spells : ∀ {token token' : Token}, Token.Like like token token' → ∀ word ∈ Cursor.looseWords,
    Text.sameIgnoringCase token'.lexeme word = Text.sameIgnoringCase token.lexeme word
  stripQuotes_quote : ∀ {part part' : String}, like.quote part part' →
    like.quote (Text.stripQuotes part) (Text.stripQuotes part')
  quote_empty : like.quote "" ""
  count_succ : ∀ {index index' : Nat}, like.count index index' →
    like.count (index + 1) (index' + 1)

section Kinds
variable {like : Likeness} {kind other : TokenKind}

theorem TokenKind.Like.sameShape_eq (alike : Like like kind other) (shape : TokenKind) :
    other.sameShape shape = kind.sameShape shape := by
  cases alike with
  | string | identifier => cases shape <;> rfl
  | same => rfl

theorem TokenKind.Like.isSymbol_eq (alike : Like like kind other) : other.isSymbol = kind.isSymbol := by
  cases alike <;> rfl

theorem TokenKind.Like.keyword?_eq (alike : Like like kind other) : other.keyword? = kind.keyword? := by
  cases alike <;> rfl

theorem TokenKind.Like.eq_keyword (alike : Like like kind other) (word : Keyword) :
    (other == .keyword word) = (kind == .keyword word) := by
  cases alike <;> rfl

theorem TokenKind.Like.eq_symbol (alike : Like like kind other) (mark : Symbol) :
    (other == .symbol mark) = (kind == .symbol mark) := by
  cases alike <;> rfl

theorem TokenKind.Like.eq_endOfInput (alike : Like like kind other) :
    (other == .endOfInput) = (kind == .endOfInput) := by
  cases alike <;> rfl

end Kinds

namespace Cursor

/-- What the property says of two cursors that are alike is the same. -/
def IsShared {α : Type} (like : Likeness) (property : Cursor → α) : Prop :=
  ∀ ⦃cursor other : Cursor⦄, Like like cursor other → property other = property cursor

variable {like : Likeness} {cursor other : Cursor}

theorem Like.length_eq (alike : Like like cursor other) : other.rest.length = cursor.rest.length :=
  alike.rest.length_eq.symm

theorem Like.count (alike : Like like cursor other) {parameters parameters' : Nat}
    (counted : like.count parameters parameters') :
    Like like { cursor with parameters } { other with parameters := parameters' } :=
  ⟨alike.rest, alike.points, alike.previous, counted, alike.eof, alike.quotes⟩

theorem Like.countParameter [like.Lawful] (alike : Like like cursor other) :
    Like like cursor.countParameter other.countParameter :=
  alike.count (Likeness.Lawful.count_succ alike.parameters)

/-- In lists of tokens that are alike the tokens at each place are alike. -/
theorem peek_like (tokens : List.Forall₂ (Token.Like like) cursor.rest other.rest)
    (ended : Token.Like like (.eof cursor.text.utf8ByteSize) (.eof other.text.utf8ByteSize)) (n : Nat) :
    Token.Like like (cursor.peek n) (other.peek n) := by
  unfold Cursor.peek
  revert tokens
  generalize cursor.rest = rest
  generalize other.rest = rest'
  intro tokens
  induction tokens generalizing n with
  | nil => exact ended
  | cons first _ ih =>
    cases n with
    | zero => exact first
    | succ n => exact ih n

theorem Like.peek (alike : Like like cursor other) (n : Nat) :
    Token.Like like (cursor.peek n) (other.peek n) :=
  peek_like alike.rest alike.eof n

theorem Like.current (alike : Like like cursor other) : Token.Like like cursor.current other.current :=
  alike.peek 0

theorem Like.kind (alike : Like like cursor other) : TokenKind.Like like cursor.kind other.kind :=
  alike.current.kind

theorem Like.lexeme (alike : Like like cursor other) : like.text cursor.lexeme other.lexeme :=
  alike.current.lexeme

theorem Like.start (alike : Like like cursor other) : like.place cursor.start other.start :=
  alike.current.span.start

/-- The token behind the passed one is the next one. -/
theorem peek_advance (cursor : Cursor) (n : Nat) : cursor.advance.peek n = cursor.peek (n + 1) := by
  unfold Cursor.advance
  split
  · next none => simp [Cursor.peek, none]
  · next token rest some => simp [Cursor.peek, some]

theorem Like.advance (alike : Like like cursor other) : Like like cursor.advance other.advance := by
  have points : ∀ n, (cursor.advance.peek n).kind = .symbol .dot →
      like.name (cursor.advance.peek (n + 1)).lexeme (other.advance.peek (n + 1)).lexeme := by
    intro n
    rw [peek_advance, peek_advance, peek_advance]
    exact alike.points (n + 1)
  have tokens := alike.rest
  unfold Cursor.advance at points ⊢
  split
  · next here =>
    rw [here] at tokens
    rw [List.forall₂_nil_left_iff.mp tokens]
    exact alike
  · next token rest here =>
    rw [here] at tokens
    obtain ⟨token', rest', first, behind, there⟩ := List.forall₂_cons_left_iff.mp tokens
    rw [here, there] at points
    rw [there]
    exact ⟨behind, points, first.span, alike.parameters, alike.eof, alike.quotes⟩

/-- The errors for tokens that are alike are alike. -/
theorem Like.unexpected (alike : Like like cursor other) (expected : Expectation) :
    ParseError.Alike like (cursor.unexpected expected) (other.unexpected expected) :=
  .unexpected expected alike.current

section Properties

theorem isShared_at? (kind : TokenKind) : IsShared like (·.at? kind) :=
  fun _ _ alike => alike.kind.sameShape_eq kind

theorem isShared_atKeyword? (words : List Keyword) : IsShared like (·.atKeyword? words) := by
  intro cursor other alike
  dsimp only
  unfold atKeyword?
  have kinds := alike.kind
  revert kinds
  generalize cursor.kind = kind
  generalize other.kind = kind'
  intro kinds
  cases kinds <;> rfl

theorem isShared_atWord? [like.Lawful] {word : String} (loose : word ∈ looseWords) :
    IsShared like (·.atWord? word) :=
  fun _ _ alike => Likeness.Lawful.spells alike.current word loose

theorem isShared_atEnd : IsShared like atEnd :=
  fun _ _ alike => alike.kind.eq_endOfInput

theorem isShared_atSymbolOrEnd : IsShared like atSymbolOrEnd := by
  intro cursor other alike
  rw [atSymbolOrEnd, atSymbolOrEnd, isShared_atEnd alike, alike.kind.isSymbol_eq]

theorem isShared_opensSubquery : IsShared like opensSubquery :=
  fun _ _ alike => (alike.peek 1).kind.eq_keyword .SELECT

end Properties

end Cursor

/-- Both outcomes are answers or both are errors, and these are related. -/
inductive SameOutcome {ε δ α β : Type} (errors : ε → δ → Prop) (same : α → β → Prop) :
    Except ε α → Except δ β → Prop where
  | error {error : ε} {other : δ} : errors error other →
      SameOutcome errors same (.error error) (.error other)
  | ok {answer : α} {other : β} : same answer other → SameOutcome errors same (.ok answer) (.ok other)

/-- The rounds end in the same way, with `next` or `done` holding of what they answer. -/
inductive Round.Like {β γ δ ε : Type} (next : β → δ → Prop) (done : γ → ε → Prop) :
    Round β γ → Round δ ε → Prop where
  | next {value : β} {other : δ} : next value other → Like next done (.next value) (.next other)
  | done {answer : γ} {other : ε} : done answer other → Like next done (.done answer) (.done other)

namespace Step
variable {σ : Type}

/-- From these two states both steps answer or both fail, with answers that are the same in the sense
of `same` or with errors that are alike, and they leave related states. -/
abbrev AgreesAt {α β : Type} (like : Likeness) (related : σ → σ → Prop) (same : α → β → Prop)
    (step : Step σ α) (other : Step σ β) (state state' : σ) : Prop :=
  SameOutcome (ParseError.Alike like) same (step state).1 (other state').1 ∧
    related (step state).2 (other state').2

/-- From related states both steps answer or both fail. -/
structure Agrees {α β : Type} (like : Likeness) (related : σ → σ → Prop) (same : α → β → Prop)
    (step : Step σ α) (other : Step σ β) : Prop where
  runs : ∀ {state state' : σ}, related state state' → AgreesAt like related same step other state state'

/-- States are related by their cursors, which are alike, and by what stays when these move. -/
class Relates [HasCursor σ] (like : outParam Likeness) (related : σ → σ → Prop) : Prop where
  cursor : ∀ {state other : σ}, related state other →
    Cursor.Like like (HasCursor.cursor state) (HasCursor.cursor other)
  move : ∀ {state other : σ} {cursor cursor' : Cursor}, related state other →
    Cursor.Like like cursor cursor' →
      related (HasCursor.setCursor cursor state) (HasCursor.setCursor cursor' other)

instance (like : Likeness) : Relates like (Cursor.Like like) := ⟨id, fun _ alike => alike⟩

/-- Behind steps that agree from two states run others that agree from the states that they leave. -/
theorem AgreesAt.bind {α β γ δ : Type} {like : Likeness} {related : σ → σ → Prop}
    {same : α → β → Prop} {then' : γ → δ → Prop} {first : Step σ α} {first' : Step σ β}
    {next : α → Step σ γ} {next' : β → Step σ δ} {state state' : σ}
    (left : AgreesAt like related same first first' state state')
    (right : ∀ value value' after after', Yields first state value after →
      Yields first' state' value' after' → same value value' → related after after' →
        AgreesAt like related then' (next value) (next' value') after after') :
    AgreesAt like related then' (first >>= next) (first' >>= next') state state' := by
  unfold AgreesAt at left ⊢
  rw [bind_run, bind_run]
  generalize ran : first state = outcome at left ⊢
  generalize ran' : first' state' = outcome' at left ⊢
  obtain ⟨answer, between⟩ := outcome
  obtain ⟨answer', between'⟩ := outcome'
  obtain ⟨answers, after⟩ := left
  cases answers with
  | error alike => exact ⟨.error alike, after⟩
  | ok alike => exact right _ _ _ _ ran ran' alike after

theorem AgreesAt.scan {α β : Type} [HasCursor σ] {like : Likeness} {related : σ → σ → Prop}
    [Relates like related] {same : α → β → Prop} {scan : Scan α} {other : Scan β} {state state' : σ}
    (before : related state state') (agrees : AgreesAt like (Cursor.Like like) same scan other
      (HasCursor.cursor state) (HasCursor.cursor state')) :
    AgreesAt like related same (liftM scan : Step σ α) (liftM other : Step σ β) state state' :=
  ⟨agrees.1, Relates.move before agrees.2⟩

/-- A look leaves the states as they are. -/
theorem AgreesAt.seeing {α β γ δ : Type} [HasCursor σ] [LawfulCursor σ] {like : Likeness}
    {related : σ → σ → Prop} {then' : γ → δ → Prop} {property : Cursor → α} {property' : Cursor → β}
    {next : α → Step σ γ} {next' : β → Step σ δ} {state state' : σ}
    (right : ∀ value value', value = property (HasCursor.cursor state) →
      value' = property' (HasCursor.cursor state') →
        AgreesAt like related then' (next value) (next' value') state state') :
    AgreesAt like related then' ((liftM (Scan.look property) : Step σ α) >>= next)
      ((liftM (Scan.look property') : Step σ β) >>= next') state state' := by
  have looked : Yields (liftM (Scan.look property) : Step σ α) state
      (property (HasCursor.cursor state)) state := yields_look.mpr ⟨rfl, rfl⟩
  have looked' : Yields (liftM (Scan.look property') : Step σ β) state'
      (property' (HasCursor.cursor state')) state' := yields_look.mpr ⟨rfl, rfl⟩
  unfold AgreesAt
  rw [bind_run, bind_run, looked, looked']
  exact right _ _ rfl rfl

/-- Rounds agree from states of which something is known that the rounds keep. -/
theorem AgreesAt.rounds {α β γ δ : Type} [HasCursor σ] {like : Likeness} {related : σ → σ → Prop}
    [Relates like related] {next : α → β → Prop} {done : γ → δ → Prop}
    {body : α → Step σ (Round α γ)} {body' : β → Step σ (Round β δ)} {known : α → σ → Prop}
    (round : ∀ value value', next value value' → ∀ state state', related state state' →
      known value state →
        AgreesAt like related (Round.Like next done) (body value) (body' value') state state')
    (keep : ∀ value state value' after, known value state →
      Yields (body value) state (.next value') after → known value' after)
    (limit : Nat) {start : α} {start' : β} (alike : next start start') {state state' : σ}
    (before : related state state') (initial : known start state) :
    AgreesAt like related done (Step.rounds body limit start) (Step.rounds body' limit start') state
      state' := by
  induction limit generalizing start start' state state' with
  | zero => exact ⟨.error ((Relates.cursor before).unexpected _), Relates.move before (Relates.cursor before)⟩
  | succ limit ih =>
    refine (round _ _ alike _ _ before initial).bind fun value value' after after' ran _ outcome related => ?_
    cases outcome with
    | next following => exact ih following related (keep _ _ _ _ initial ran)
    | done ended => exact ⟨.ok ended, related⟩

/-- A repetition agrees from states of which something is known that its rounds keep. -/
theorem AgreesAt.rounding {α β γ δ : Type} [HasCursor σ] [LawfulCursor σ] {like : Likeness}
    {related : σ → σ → Prop} [Relates like related] {next : α → β → Prop} {done : γ → δ → Prop}
    {body : α → Step σ (Round α γ)} {body' : β → Step σ (Round β δ)} {known : α → σ → Prop}
    (round : ∀ value value', next value value' → ∀ state state', related state state' →
      known value state →
        AgreesAt like related (Round.Like next done) (body value) (body' value') state state')
    (keep : ∀ value state value' after, known value state →
      Yields (body value) state (.next value') after → known value' after)
    {start : α} {start' : β} (alike : next start start') {state state' : σ}
    (before : related state state') (initial : known start state) :
    AgreesAt like related done (Step.rounding body start) (Step.rounding body' start') state
      state' := by
  refine .seeing fun left left' here there => ?_
  obtain rfl : left = left' := here.trans ((Relates.cursor before).length_eq.symm.trans there.symm)
  exact .rounds round keep (left + 1) alike before initial

namespace Agrees
variable {α β γ δ : Type} {like : Likeness} {related : σ → σ → Prop} {same : α → β → Prop}
  {then' : γ → δ → Prop}

/-- The errors are alike at places that are alike. -/
theorem run {step : Step σ α} {other : Step σ β} (agrees : Agrees like related same step other)
    {state state' : σ} (start : related state state') :
    SameOutcome (ParseError.Like like) same (step state).1 (other state').1 ∧
      related (step state).2 (other state').2 := by
  obtain ⟨outcome, after⟩ := agrees.runs start
  refine ⟨?_, after⟩
  generalize (step state).1 = answer at *
  generalize (other state').1 = answer' at *
  cases outcome with
  | error alike => exact .error alike.like
  | ok alike => exact .ok alike

theorem pure {value : α} {other : β} (alike : same value other) :
    Agrees like related same (pure value) (pure other) where
  runs before := ⟨.ok alike, before⟩

theorem bind {first : Step σ α} {first' : Step σ β} {next : α → Step σ γ} {next' : β → Step σ δ}
    (left : Agrees like related same first first')
    (right : ∀ value other, same value other → Agrees like related then' (next value) (next' other)) :
    Agrees like related then' (first >>= next) (first' >>= next') where
  runs before := (left.runs before).bind fun _ _ _ _ _ _ alike after => (right _ _ alike).runs after

/-- A step behind one with the same answer on both sides. -/
theorem bind_eq {first first' : Step σ α} {next : α → Step σ γ} {next' : α → Step σ δ}
    (left : Agrees like related Eq first first')
    (right : ∀ value, Agrees like related then' (next value) (next' value)) :
    Agrees like related then' (first >>= next) (first' >>= next') :=
  left.bind fun value other alike => by
    subst alike
    exact right value

theorem ite {condition : Prop} [Decidable condition] {first second : Step σ α}
    {first' second' : Step σ β} (left : Agrees like related same first first')
    (right : Agrees like related same second second') : Agrees like related same
      (if condition then first else second) (if condition then first' else second') := by
  split
  · exact left
  · exact right

/-- Nothing is read behind an error. -/
theorem throw_bind {error error' : ParseError} {next : α → Step σ γ} {next' : β → Step σ δ}
    (alike : ParseError.Alike like error error') :
    Agrees like related then' ((throw error : Step σ α) >>= next)
      ((throw error' : Step σ β) >>= next') :=
  bind (show Agrees like related (fun _ _ => False) _ _ from ⟨fun before => ⟨.error alike, before⟩⟩)
    fun _ _ => False.elim

theorem throw {error error' : ParseError} (alike : ParseError.Alike like error error') :
    Agrees like related same (throw error) (throw error') where
  runs before := ⟨.error alike, before⟩

/-- Where the one step answers, the other one answers from every related state. -/
theorem of_yields {step : Step σ α} {other : Step σ β} (agrees : Agrees like related same step other)
    {before after before' : σ} {answer : α} (answers : Yields step before answer after)
    (start : related before before') : ∃ answer' after', Yields other before' answer' after' ∧
      same answer answer' ∧ related after after' := by
  have ran := agrees.runs start
  have whole : step before = (.ok answer, after) := answers
  rw [AgreesAt, whole] at ran
  obtain ⟨outcome, leaves⟩ := ran
  generalize found : (other before').1 = answer' at outcome
  cases outcome with
  | ok alike => exact ⟨_, _, Prod.ext found rfl, alike, leaves⟩

section Cursor
variable [HasCursor σ]

/-- A scan agrees inside of any state. -/
theorem scan [Relates like related] {scan : Scan α} {other : Scan β}
    (agrees : Agrees like (Cursor.Like like) same scan other) :
    Agrees like related same (liftM scan : Step σ α) (liftM other : Step σ β) where
  runs before := .scan before (agrees.runs (Relates.cursor before))

theorem fail [Relates like related] {expected : Expectation} :
    Agrees like related same (liftM (Scan.fail expected : Scan α) : Step σ α)
      (liftM (Scan.fail expected : Scan β)) :=
  .scan ⟨fun before => ⟨.error (before.unexpected expected), before⟩⟩

/-- Behind a look at the cursors run steps that agree from the states that were looked at. -/
theorem seeing [LawfulCursor σ] {property : Cursor → α} {property' : Cursor → β} {next : α → Step σ γ}
    {next' : β → Step σ δ}
    (right : ∀ state state', related state state' → ∀ value value',
      value = property (HasCursor.cursor state) → value' = property' (HasCursor.cursor state') →
        AgreesAt like related then' (next value) (next' value') state state') :
    Agrees like related then' ((liftM (Scan.look property) : Step σ α) >>= next)
      ((liftM (Scan.look property') : Step σ β) >>= next') :=
  ⟨fun before => .seeing (right _ _ before)⟩

variable [Relates like related]

theorem fail_bind {expected : Expectation} {next : α → Step σ γ} {next' : β → Step σ δ} :
    Agrees like related then' ((liftM (Scan.fail expected : Scan α) : Step σ α) >>= next)
      ((liftM (Scan.fail expected : Scan β) : Step σ β) >>= next') :=
  bind (show Agrees like related (fun _ _ => False) _ _ from fail) fun _ _ => False.elim

section Rounds
variable {next : α → β → Prop} {done : γ → δ → Prop} {body : α → Step σ (Round α γ)}
  {body' : β → Step σ (Round β δ)}

theorem rounds (round : ∀ value other, next value other →
      Agrees like related (Round.Like next done) (body value) (body' other)) (limit : Nat) {start : α}
    {start' : β} (alike : next start start') :
    Agrees like related done (rounds body limit start) (Step.rounds body' limit start') :=
  ⟨fun before => .rounds (fun _ _ alike _ _ before _ => (round _ _ alike).runs before)
    (fun _ _ _ _ _ _ => trivial) limit alike before trivial⟩

end Rounds

end Cursor

end Agrees

end Step

namespace Scan
open Step Cursor

variable {like : Likeness}

theorem fail_agrees {α β : Type} {same : α → β → Prop} (expected : Expectation) :
    Agrees like (Like like) same (fail expected) (fail expected) :=
  ⟨fun before => ⟨.error (before.unexpected expected), before⟩⟩

/-- What is seen of the cursors. -/
theorem look_agrees {α β : Type} {same : α → β → Prop} {property : Cursor → α}
    {property' : Cursor → β}
    (agree : ∀ cursor other, Like like cursor other → same (property cursor) (property' other)) :
    Agrees like (Like like) same (look property) (look property') where
  runs before := ⟨.ok (agree _ _ before), before⟩

theorem seen {α : Type} {property : Cursor → α} (shared : IsShared like property) :
    Agrees like (Like like) Eq (look property) (look property) :=
  look_agrees fun _ _ alike => (shared alike).symm

theorem advance_agrees : Agrees like (Like like) Eq advance advance where
  runs before := ⟨.ok rfl, before.advance⟩

theorem countParameter_agrees [like.Lawful] : Agrees like (Like like) Eq
    (modify Cursor.countParameter : Scan Unit) (modify Cursor.countParameter) where
  runs before := ⟨.ok rfl, before.countParameter⟩

/-- A token is skipped at both cursors or at none. -/
theorem skipWhen_agreesAt {property : Cursor → Bool} {cursor other : Cursor}
    (alike : Like like cursor other) (same : property other = property cursor) :
    AgreesAt like (Like like) Eq (skipWhen property) (skipWhen property) cursor other := by
  refine AgreesAt.seeing fun value value' here there => ?_
  obtain rfl : value = value' := here.trans (same.symm.trans there.symm)
  cases value with
  | true => exact ⟨.ok rfl, alike.advance⟩
  | false => exact ⟨.ok rfl, alike⟩

end Scan

namespace Step.Agrees
open Scan
variable {σ α β γ δ : Type} [HasCursor σ] {like : Likeness} {related : σ → σ → Prop}
  [Relates like related]

theorem rounding {next : α → β → Prop} {done : γ → δ → Prop} {body : α → Step σ (Round α γ)}
    {body' : β → Step σ (Round β δ)} {start : α} {start' : β}
    (round : ∀ value other, next value other →
      Agrees like related (Round.Like next done) (body value) (body' other))
    (alike : next start start') :
    Agrees like related done (Step.rounding body start) (Step.rounding body' start') :=
  .bind_eq (.scan (seen fun _ _ alike => alike.length_eq)) fun left => rounds round (left + 1) alike

/-- Rounds that go on from the same values. -/
theorem rounding_eq {done : γ → δ → Prop} {body : α → Step σ (Round α γ)}
    {body' : α → Step σ (Round α δ)} {start : α}
    (round : ∀ value, Agrees like related (Round.Like Eq done) (body value) (body' value)) :
    Agrees like related done (Step.rounding body start) (Step.rounding body' start) :=
  rounding (fun _ _ same => by
    subst same
    exact round _) rfl

theorem whileTrue {body body' : Step σ Bool} (round : Agrees like related Eq body body') :
    Agrees like related Eq (Step.whileTrue body) (Step.whileTrue body') := by
  refine rounding_eq fun _ => .bind_eq round fun more => .pure ?_
  cases more
  · exact .done rfl
  · exact .next rfl

end Step.Agrees

end SelectRouting
