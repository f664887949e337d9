import SelectRouting.Proofs.ClauseEnds

/-!
# Runs over a text and a shorter one

Of two texts the one ends with an `OFFSET` clause, and the other is the same up to the clause and has no
more tokens (`OffsetClause.Trims`). A reader goes the same way in both as long as it leaves the clause
alone: it has the same answer and stands before the same tokens again, or it has passed the word of the
clause (`Step.Shadows`).
-/

namespace SelectRouting

/-- The word of a clause that stands before the last token has been passed. -/
def Cursor.Entered (cursor : Cursor) : Prop :=
  cursor.rest.length ≤ 1

theorem Cursor.Moves.length_le {before after : Cursor} {tokens : List Token}
    (moves : Moves before tokens after) : after.rest.length ≤ before.rest.length := by
  rw [moves.rest, List.length_append]
  exact Nat.le_add_left _ _

namespace OffsetClause
variable {α : Type} {clause : OffsetClause} {cursor other : Cursor}

/-- The cursors stand at the same place, the one in a text that ends with the clause, the other in a text
without it. -/
structure Trims (clause : OffsetClause) (cursor other : Cursor) : Prop where
  rest : cursor.rest = other.rest ++ [clause.word, clause.number]
  previous : other.previous = cursor.previous
  parameters : other.parameters = cursor.parameters
  stop : cursor.previous.stop ≤ clause.word.start
  ahead : ∀ token ∈ other.rest, token.span.stop ≤ clause.word.start
  quotes : ∀ span : Span, span.stop ≤ clause.word.start →
    span.slice other.text = span.slice cursor.text

/-- What the property says of cursors at the same place is the same. -/
def IsShared (clause : OffsetClause) (property : Cursor → α) : Prop :=
  ∀ ⦃cursor other : Cursor⦄, clause.Trims cursor other → property other = property cursor

/-- Before the clause both cursors stand at the same token. -/
theorem Trims.current (trims : clause.Trims cursor other) (some : other.rest ≠ []) :
    other.current = cursor.current := by
  obtain ⟨token, rest, tokens⟩ := List.exists_cons_of_ne_nil some
  have whole := trims.rest
  rw [tokens, List.cons_append] at whole
  rw [Cursor.current_of_cons tokens, Cursor.current_of_cons whole]

theorem Trims.kind_of_end (trims : clause.Trims cursor other) (none : other.rest = []) :
    cursor.kind = .keyword .OFFSET := by
  have tokens := trims.rest
  rw [none, List.nil_append] at tokens
  rw [Cursor.kind, Cursor.current_of_cons tokens, clause.isWord]

theorem Trims.kind_of_none (none : other.rest = []) : other.kind = .endOfInput := by
  rw [Cursor.kind_eq_frontKind, none]
  rfl

/-- The kinds are the same, or the clause begins. -/
theorem Trims.kind_cases (trims : clause.Trims cursor other) :
    other.kind = cursor.kind ∨ other.kind = .endOfInput ∧ cursor.kind = .keyword .OFFSET := by
  by_cases none : other.rest = []
  · exact .inr ⟨Trims.kind_of_none none, trims.kind_of_end none⟩
  · exact .inl (congrArg Token.kind (trims.current none))

/-- The cursors are the same, or stand at the same place before the clause. -/
def Alike (clause : OffsetClause) (cursor other : Cursor) : Prop :=
  other = cursor ∨ clause.Trims cursor other ∧ other.rest ≠ []

theorem Alike.current (alike : clause.Alike cursor other) : other.current = cursor.current := by
  rcases alike with rfl | ⟨trims, some⟩
  · rfl
  · exact trims.current some

theorem Alike.kind (alike : clause.Alike cursor other) : other.kind = cursor.kind :=
  congrArg Token.kind alike.current

theorem Alike.start (alike : clause.Alike cursor other) : other.start = cursor.start :=
  congrArg Token.start alike.current

theorem Alike.lexeme (alike : clause.Alike cursor other) : other.lexeme = cursor.lexeme :=
  congrArg Token.lexeme alike.current

theorem Alike.atSymbolOrEnd (alike : clause.Alike cursor other) :
    other.atSymbolOrEnd = cursor.atSymbolOrEnd := by
  rw [Cursor.atSymbolOrEnd, Cursor.atSymbolOrEnd, Cursor.atEnd, Cursor.atEnd, alike.kind, alike.current]

/-- The kinds of the next tokens are the same, or the clause begins there. -/
theorem Alike.next_cases (alike : clause.Alike cursor other) :
    (other.peek 1).kind = (cursor.peek 1).kind ∨
      (other.peek 1).kind = .endOfInput ∧ (cursor.peek 1).kind = .keyword .OFFSET := by
  rcases alike with rfl | ⟨trims, some⟩
  · exact .inl rfl
  · obtain ⟨token, rest, tokens⟩ := List.exists_cons_of_ne_nil some
    rw [Cursor.kind_peek_one, Cursor.kind_peek_one, trims.rest, tokens]
    cases rest with
    | nil => exact .inr ⟨rfl, clause.isWord⟩
    | cons next rest => exact .inl rfl

/-- What does not tell the word of the clause from the end of the input is the same of the next tokens. -/
theorem Alike.eq_of_next (alike : clause.Alike cursor other) (property : TokenKind → α)
    (same : property .endOfInput = property (.keyword .OFFSET)) :
    property (other.peek 1).kind = property (cursor.peek 1).kind := by
  rcases alike.next_cases with stays | ⟨ends, word⟩
  · rw [stays]
  · rw [ends, word, same]

theorem Trims.source (trims : clause.Trims cursor other) {span : Span}
    (within : span.stop ≤ clause.word.start) : other.source span = cursor.source span :=
  trims.quotes span within

theorem Trims.countParameter (trims : clause.Trims cursor other) :
    clause.Trims cursor.countParameter other.countParameter :=
  ⟨trims.rest, trims.previous, congrArg (· + 1) trims.parameters, trims.stop, trims.ahead,
    trims.quotes⟩

/-- The current token is passed in both texts, or it is the word of the clause. -/
theorem Trims.advance (trims : clause.Trims cursor other) (some : other.rest ≠ []) :
    clause.Trims cursor.advance other.advance := by
  obtain ⟨token, rest, tokens⟩ := List.exists_cons_of_ne_nil some
  have whole := trims.rest
  rw [tokens, List.cons_append] at whole
  have advanced : cursor.advance =
      { cursor with rest := rest ++ [clause.word, clause.number], previous := token.span } := by
    simp only [Cursor.advance, whole]
  have moved : other.advance = { other with rest, previous := token.span } := by
    simp only [Cursor.advance, tokens]
  have ahead := trims.ahead
  rw [tokens] at ahead
  rw [advanced, moved]
  exact ⟨rfl, rfl, trims.parameters, ahead token List.mem_cons_self,
    fun next member => ahead next (List.mem_cons_of_mem _ member), trims.quotes⟩

theorem Trims.entered (trims : clause.Trims cursor other) (none : other.rest = []) :
    cursor.advance.Entered := by
  rw [Cursor.Entered, Cursor.rest_advance, trims.rest, none]
  exact le_rfl

/-- What is passed from the end of the shorter text on begins with the word of the clause. -/
theorem Trims.entered_of_moves {after : Cursor} {tokens : List Token} (trims : clause.Trims cursor other)
    (none : other.rest = []) (moves : cursor.Moves tokens after) (some : tokens ≠ []) :
    after.Entered := by
  have size := congrArg List.length moves.rest
  rw [trims.rest, none, List.length_append, List.length_append] at size
  have long := List.length_pos_iff.mpr some
  simp only [List.length_nil, List.length_cons] at size
  rw [Cursor.Entered]
  omega

section Shared

theorem isShared_at? (mark : Symbol) : clause.IsShared (·.at? (.symbol mark)) := by
  intro cursor other trims
  dsimp only
  rw [Cursor.at?, Cursor.at?]
  rcases trims.kind_cases with same | ⟨ends, word⟩
  · rw [same]
  · rw [ends, word]
    rfl

theorem isShared_atKeyword? {words : List Keyword} (without : words.contains .OFFSET = false) :
    clause.IsShared (·.atKeyword? words) := by
  intro cursor other trims
  dsimp only
  rw [Cursor.atKeyword?, Cursor.atKeyword?]
  rcases trims.kind_cases with same | ⟨ends, word⟩
  · rw [same]
  · rw [ends, word]
    exact without.symm

/-- The word of the clause is not the one before an escape character. -/
theorem isShared_escape : clause.IsShared (·.atWord? "ESCAPE") := by
  intro cursor other trims
  by_cases none : other.rest = []
  · have tokens := trims.rest
    rw [none, List.nil_append] at tokens
    have empty : other.lexeme = "" := by
      simp [Cursor.lexeme, Cursor.current, Cursor.peek, none, Token.eof]
    have word : ¬ cursor.atWord? "ESCAPE" = true := by
      rw [Cursor.atWord?, Cursor.lexeme, Cursor.current_of_cons tokens]
      exact fun escapes => not_joins (.inr escapes)
    rw [Bool.not_eq_true] at word
    dsimp only
    rw [word, Cursor.atWord?, empty]
    rfl
  · dsimp only
    rw [Cursor.atWord?, Cursor.lexeme, trims.current none, ← Cursor.lexeme, ← Cursor.atWord?]

theorem isShared_parameters : clause.IsShared (·.parameters) :=
  fun _ _ trims => trims.parameters

/-- What has been passed is quoted alike. -/
theorem isShared_quoted (start : Nat) :
    clause.IsShared fun cursor => cursor.source ⟨start, cursor.previous.stop⟩ := by
  intro cursor other trims
  dsimp only
  rw [trims.previous]
  exact trims.source trims.stop

end Shared

end OffsetClause

namespace Step
open Scan OffsetClause
variable {σ α β γ : Type} [HasCursor σ]

/-- States are related by their cursors, which stand at the same place, and by what stays when these
move. -/
class Trimming (clause : outParam OffsetClause) (related : σ → σ → Prop) : Prop where
  cursor : ∀ {state other : σ}, related state other →
    clause.Trims (HasCursor.cursor state) (HasCursor.cursor other)
  move : ∀ {state other : σ} {cursor cursor' : Cursor}, related state other →
    clause.Trims cursor cursor' →
      related (HasCursor.setCursor cursor state) (HasCursor.setCursor cursor' other)

instance (clause : OffsetClause) : Trimming clause clause.Trims := ⟨id, fun _ trims => trims⟩

/-- Where both steps answer from these states, they have the same answer and leave related states, or the
first one has passed the word of the clause. -/
def FollowsAt (related : σ → σ → Prop) (step other : Step σ α) (before before' : σ) : Prop :=
  ∀ answer answer' after after', Yields step before answer after →
    Yields other before' answer' after' →
      answer' = answer ∧ related after after' ∨ (HasCursor.cursor after).Entered

/-- The step adds no tokens, and from related states the other one follows it up to the clause. -/
structure Shadows (related : σ → σ → Prop) (step other : Step σ α) : Prop where
  shrinks : ∀ {before after : σ} {answer : α}, Yields step before answer after →
    (HasCursor.cursor after).rest.length ≤ (HasCursor.cursor before).rest.length
  follows : ∀ {before before' : σ}, related before before' → FollowsAt related step other before before'

variable {related : σ → σ → Prop}

theorem Shadows.entered {step other : Step σ α} (shadows : Shadows related step other)
    {before after : σ} {answer : α} (ran : Yields step before answer after)
    (entered : (HasCursor.cursor before).Entered) : (HasCursor.cursor after).Entered :=
  (shadows.shrinks ran).trans entered

theorem FollowsAt.bind {first first' : Step σ α} {next next' : α → Step σ β} {before before' : σ}
    (left : FollowsAt related first first' before before')
    (right : ∀ value, Shadows related (next value) (next' value)) :
    FollowsAt related (first >>= next) (first' >>= next') before before' := by
  intro answer answer' after after' ran ran'
  obtain ⟨value, between, first, rest⟩ := yields_bind.mp ran
  obtain ⟨value', between', first', rest'⟩ := yields_bind.mp ran'
  rcases left _ _ _ _ first first' with ⟨rfl, related⟩ | entered
  · exact (right _).follows related _ _ _ _ rest rest'
  · exact .inr ((right _).entered rest entered)

/-- A step that has no answer at the end of the shorter text. -/
theorem FollowsAt.of_none {step other : Step σ α} {before before' : σ}
    (none : ∀ answer after, ¬ Yields other before' answer after) :
    FollowsAt related step other before before' :=
  fun _ _ _ _ _ ran => absurd ran (none _ _)

namespace Shadows

theorem pure (value : α) : Shadows related (pure value) (pure value) where
  shrinks ran := by
    obtain ⟨rfl, rfl⟩ := yields_pure.mp ran
    exact le_rfl
  follows before answer answer' after after' ran ran' := by
    obtain ⟨rfl, rfl⟩ := yields_pure.mp ran
    obtain ⟨rfl, rfl⟩ := yields_pure.mp ran'
    exact .inl ⟨rfl, before⟩

theorem bind {first first' : Step σ α} {next next' : α → Step σ β}
    (left : Shadows related first first')
    (right : ∀ value, Shadows related (next value) (next' value)) :
    Shadows related (first >>= next) (first' >>= next') where
  shrinks ran := by
    obtain ⟨value, between, first, rest⟩ := yields_bind.mp ran
    exact ((right value).shrinks rest).trans (left.shrinks first)
  follows before := (left.follows before).bind right

theorem ite {condition : Prop} [Decidable condition] {first first' second second' : Step σ α}
    (left : Shadows related first first') (right : Shadows related second second') :
    Shadows related (if condition then first else second)
      (if condition then first' else second') := by
  split
  · exact left
  · exact right

/-- A step that never answers. -/
theorem of_none {step other : Step σ α}
    (none : ∀ before answer after, ¬ Yields step before answer after) :
    Shadows related step other :=
  ⟨fun ran => absurd ran (none _ _ _), fun _ _ _ _ _ ran => absurd ran (none _ _ _)⟩

theorem throw {error : ParseError} {other : Step σ α} : Shadows related (throw error) other :=
  of_none fun _ _ _ => not_yields_throw

theorem throw_bind {error : ParseError} {next : α → Step σ β} {other : Step σ β} :
    Shadows related ((MonadExcept.throw error : Step σ α) >>= next) other :=
  of_none fun _ _ _ => not_yields_throw_bind

theorem fail {expected : Expectation} {other : Step σ α} :
    Shadows related (liftM (Scan.fail expected : Scan α) : Step σ α) other :=
  of_none fun _ _ _ => not_yields_fail

theorem fail_bind {expected : Expectation} {next : α → Step σ β} {other : Step σ β} :
    Shadows related ((liftM (Scan.fail expected : Scan α) : Step σ α) >>= next) other :=
  of_none fun _ _ _ => not_yields_fail_bind

section Rounds
variable [LawfulCursor σ] {body body' : β → Step σ (Round β γ)}

/-- Rounds that go the same way do so up to the last one. -/
theorem rounding (round : ∀ value, Shadows related (body value) (body' value)) (start : β) :
    Shadows related (Step.rounding body start) (Step.rounding body' start) where
  shrinks answers := by
    have ran := rounds_of_rounding answers
    clear answers
    induction ran with
    | done answers => exact (round _).shrinks answers
    | next answers _ ih => exact ih.trans ((round _).shrinks answers)
  follows {before before'} start answer answer' after after' answers answers' := by
    have ran := rounds_of_rounding answers
    have ran' := rounds_of_rounding answers'
    clear answers answers'
    have shrinks {value : β} {before after : σ} {answer : γ}
        (ran : Rounds body value before answer after) (entered : (HasCursor.cursor before).Entered) :
        (HasCursor.cursor after).Entered := by
      induction ran with
      | done answers => exact (round _).entered answers entered
      | next answers _ ih => exact ih ((round _).entered answers entered)
    -- by induction on the rounds of the first run: where the second one ends sooner or later, the word of
    -- the clause has been passed in that round, and stays passed in the rounds behind it
    induction ran generalizing before' with
    | done answers =>
      cases ran' with
      | done answers' =>
        rcases (round _).follows start _ _ _ _ answers answers' with ⟨same, related⟩ | entered
        · cases same
          exact .inl ⟨rfl, related⟩
        · exact .inr entered
      | next answers' _ =>
        rcases (round _).follows start _ _ _ _ answers answers' with ⟨same, _⟩ | entered
        · cases same
        · exact .inr entered
    | next answers more ih =>
      cases ran' with
      | done answers' =>
        rcases (round _).follows start _ _ _ _ answers answers' with ⟨same, _⟩ | entered
        · cases same
        · exact .inr (shrinks more entered)
      | next answers' more' =>
        rcases (round _).follows start _ _ _ _ answers answers' with ⟨same, related⟩ | entered
        · cases same
          exact ih related more'
        · exact .inr (shrinks more entered)

theorem whileTrue {body body' : Step σ Bool} (round : Shadows related body body') :
    Shadows related (Step.whileTrue body) (Step.whileTrue body') :=
  rounding (fun _ => .bind round fun _ => .pure _) ()

end Rounds

section Cursor
variable [LawfulCursor σ] {clause : OffsetClause} [trimming : Trimming clause related]
include trimming

/-- A scan goes the same way inside of any state. -/
theorem scan {scan other : Scan α} (shadows : Shadows clause.Trims scan other) :
    Shadows related (liftM scan : Step σ α) (liftM other : Step σ α) where
  shrinks ran := by
    obtain ⟨cursor, scanned, rfl⟩ := yields_onCursor.mp ran
    rw [LawfulCursor.cursor_set]
    exact shadows.shrinks scanned
  follows before answer answer' after after' ran ran' := by
    obtain ⟨cursor, scanned, rfl⟩ := yields_onCursor.mp ran
    obtain ⟨cursor', scanned', rfl⟩ := yields_onCursor.mp ran'
    rw [LawfulCursor.cursor_set]
    rcases shadows.follows (Trimming.cursor before) _ _ _ _ scanned scanned' with ⟨same, trims⟩ | entered
    · exact .inl ⟨same, Trimming.move before trims⟩
    · exact .inr entered

/-- Behind a look at cursors, which are alike or stand at the ends of their texts. -/
theorem look_bind {property : Cursor → α} {next next' : α → Step σ β}
    (same : ∀ {cursor other : Cursor}, clause.Alike cursor other →
      Shadows related (next (property cursor)) (next' (property other)))
    (ended : ∀ {before before' : σ}, related before before' →
      clause.Trims (HasCursor.cursor before) (HasCursor.cursor before') →
      (HasCursor.cursor before').rest = [] →
        FollowsAt related (next (property (HasCursor.cursor before)))
          (next' (property (HasCursor.cursor before'))) before before') :
    Shadows related ((liftM (look property) : Step σ α) >>= next)
      ((liftM (look property) : Step σ α) >>= next') where
  shrinks ran := (same (.inl rfl)).shrinks (yields_look_bind.mp ran)
  follows {before before'} start answer answer' after after' ran ran' := by
    rw [yields_look_bind] at ran ran'
    have trims := Trimming.cursor start
    by_cases none : (HasCursor.cursor before').rest = []
    · exact ended start trims none _ _ _ _ ran ran'
    · exact (same (.inr ⟨trims, none⟩)).follows start _ _ _ _ ran ran'

/-- Behind a look at all of the cursor. -/
theorem look_cursor {next next' : Cursor → Step σ β}
    (same : ∀ {cursor other : Cursor}, clause.Alike cursor other →
      Shadows related (next cursor) (next' other))
    (ended : ∀ {before before' : σ}, related before before' →
      clause.Trims (HasCursor.cursor before) (HasCursor.cursor before') →
      (HasCursor.cursor before').rest = [] → FollowsAt related (next (HasCursor.cursor before))
        (next' (HasCursor.cursor before')) before before') :
    Shadows related ((liftM (look id) : Step σ Cursor) >>= next)
      ((liftM (look id) : Step σ Cursor) >>= next') :=
  look_bind same ended

/-- What is seen does not matter. -/
theorem look_any {property : Cursor → α} {next next' : α → Step σ β}
    (same : ∀ value value', Shadows related (next value) (next' value')) :
    Shadows related ((liftM (look property) : Step σ α) >>= next)
      ((liftM (look property) : Step σ α) >>= next') :=
  look_bind (fun _ => same _ _) fun start _ _ => (same _ _).follows start

/-- At the end of the shorter text a token is asked for. -/
theorem inside {expected : Expectation} {next next' : Step σ β} (same : Shadows related next next') :
    Shadows related
      (do
        if ← look (·.atSymbolOrEnd) then Scan.fail expected
        next)
      (do
        if ← look (·.atSymbolOrEnd) then Scan.fail expected
        next') := by
  refine look_bind (fun {cursor other} alike => ?_) fun {before before'} _ _ none => ?_
  · rw [alike.atSymbolOrEnd]
    exact .ite .fail_bind same
  · have ends : (HasCursor.cursor before').atSymbolOrEnd = true :=
      Cursor.atSymbolOrEnd_iff.mpr (.inr (Trims.kind_of_none none))
    rw [ends]
    exact .of_none fun _ _ => not_yields_fail_bind

/-- What is shared is seen in both texts, also at their ends. -/
theorem seen {property : Cursor → α} (shared : clause.IsShared property) :
    Shadows related (liftM (look property) : Step σ α) (liftM (look property)) where
  shrinks ran := by
    obtain ⟨_, rfl⟩ := yields_look.mp ran
    exact le_rfl
  follows before answer answer' after after' ran ran' := by
    obtain ⟨rfl, rfl⟩ := yields_look.mp ran
    obtain ⟨rfl, rfl⟩ := yields_look.mp ran'
    exact .inl ⟨shared (Trimming.cursor before), before⟩

theorem advance : Shadows related (liftM Scan.advance : Step σ Unit) (liftM Scan.advance) where
  shrinks ran := by
    obtain rfl := yields_advance.mp ran
    rw [LawfulCursor.cursor_set, Cursor.rest_advance, List.length_tail]
    exact Nat.sub_le _ _
  follows {before before'} start answer answer' after after' ran ran' := by
    obtain rfl := yields_advance.mp ran
    obtain rfl := yields_advance.mp ran'
    have trims := Trimming.cursor start
    by_cases none : (HasCursor.cursor before').rest = []
    · rw [LawfulCursor.cursor_set]
      exact .inr (trims.entered none)
    · exact .inl ⟨rfl, Trimming.move start (trims.advance none)⟩

/-- At the end of the shorter text the token that is passed is the word of the clause. -/
theorem entered_of_advance {next : Unit → Step σ β} {other : Step σ β} {before before' after : σ}
    {answer : β} (same : Shadows related (next ()) other) (start : related before before')
    (none : (HasCursor.cursor before').rest = [])
    (ran : Yields ((liftM Scan.advance : Step σ Unit) >>= next) before answer after) :
    (HasCursor.cursor after).Entered := by
  refine same.entered (yields_advance_bind.mp ran) ?_
  rw [LawfulCursor.cursor_set]
  exact (Trimming.cursor start).entered none

/-- Behind a look at the current token it is passed. -/
theorem taking {property : Cursor → α} {next next' : α → Unit → Step σ β}
    (same : ∀ {cursor other : Cursor}, clause.Alike cursor other →
      Shadows related (next (property cursor) ()) (next' (property other) ())) :
    Shadows related
      ((liftM (look property) : Step σ α) >>= fun value =>
        (liftM Scan.advance : Step σ Unit) >>= next value)
      ((liftM (look property) : Step σ α) >>= fun value =>
        (liftM Scan.advance : Step σ Unit) >>= next' value) := by
  refine look_bind (fun alike => .bind advance fun _ => same alike) ?_
  intro before before' start _ none answer answer' after after' ran _
  exact .inr (entered_of_advance (same (.inl rfl)) start none ran)

end Cursor

end Shadows

end Step

namespace Scan
open Step OffsetClause
variable {α β : Type} {clause : OffsetClause} {property : Cursor → α}

theorem look_shadows (shared : clause.IsShared property) :
    Shadows clause.Trims (look property) (look property) :=
  .seen shared

/-- Behind a look at the cursors alone. -/
theorem look_bind_shadows {next next' : α → Scan β}
    (same : ∀ {cursor other : Cursor}, clause.Alike cursor other →
      Shadows clause.Trims (next (property cursor)) (next' (property other)))
    (ended : ∀ {cursor other : Cursor}, clause.Trims cursor other → other.rest = [] →
      FollowsAt clause.Trims (next (property cursor)) (next' (property other)) cursor other) :
    Shadows clause.Trims (look property >>= next) (look property >>= next') :=
  .look_bind same fun _ trims none => ended trims none

end Scan

end SelectRouting
