import SelectRouting.Proofs.Phrase

/-!
# What a reader of operands passes

An operand without an operator is a literal, a placeholder, a variable, a dotted name or a call. Its
reader passes one phrase, collects its qualifiers, and answers the shape of the phrase
(`ExprState.ReadsAs`). A cast and the words of the syntax are passed in the same way.
-/

namespace SelectRouting

namespace Expr

/-- The operator holds its left operand with `power` or more. -/
def Holds (power : Nat) (kind : TokenKind) : Prop :=
  (∃ binding, castPower? kind = some binding ∧ power ≤ binding) ∨
    ∃ binding, binaryPower? kind = some binding ∧ power ≤ binding

end Expr

namespace Phrase

/-- A name at the front stands alone or before an operator that binds with `power` or more. -/
def Continues (power : Nat) (phrases : List Phrase) : Prop :=
  ∀ owners last rest, phrases = .name owners last :: rest →
    rest = [] ∨ Expr.Holds power (Token.frontKind (text rest))

/-- A name at the front stands alone. -/
def Alone (phrases : List Phrase) : Prop :=
  ∀ owners last rest, phrases = .name owners last :: rest → rest = []

theorem Alone.continues {power : Nat} {phrases : List Phrase} (alone : Alone phrases) :
    Continues power phrases := fun owners last rest same => .inl (alone owners last rest same)

theorem Alone.single (phrase : Phrase) : Alone [phrase] := fun _ _ _ same =>
  (List.cons.inj same).2.symm

theorem Alone.mark (token : Token) (phrases : List Phrase) : Alone (.mark token :: phrases) :=
  fun _ _ _ same => nomatch (List.cons.inj same).1

end Phrase

namespace ExprState

/-- The reader passes phrases whose parentheses are balanced. -/
structure ReadsBalanced (before : ExprState) (phrases : List Phrase) (after : ExprState) : Prop
    extends Reads before phrases after where
  balanced : Token.AreLexed (Phrase.text phrases) → Token.Balanced (Phrase.text phrases)

theorem ReadsBalanced.refl (state : ExprState) : ReadsBalanced state [] state :=
  ⟨.refl state, fun _ => .nil⟩

theorem ReadsBalanced.trans {first second third : ExprState} {one two : List Phrase}
    (left : ReadsBalanced first one second) (right : ReadsBalanced second two third) :
    ReadsBalanced first (one ++ two) third where
  toReads := left.toReads.trans right.toReads
  balanced := by
    rw [Phrase.text_append]
    intro lexed
    exact (left.balanced lexed.left).append (right.balanced lexed.right)

/-- A word of the syntax is read when it is passed. -/
theorem ReadsBalanced.word {before after : ExprState} {token : Token} {word : Keyword}
    (reads : Reads before [.mark token] after) (is : token.kind = .keyword word) :
    ReadsBalanced before [.mark token] after :=
  ⟨reads, fun _ => .word (by simp [is, TokenKind.isWritten, TokenKind.isSymbol]) .nil⟩

/-- The reader passes the phrases of an expression of the given power, and answers its shape. -/
structure ReadsAs (power : Nat) (before : ExprState) (phrases : List Phrase) (expr : Expr)
    (after : ExprState) : Prop extends ReadsBalanced before phrases after where
  shapes : Phrase.Shapes phrases expr
  continues : Phrase.Continues power phrases

/-- A single phrase goes on with nothing. -/
theorem ReadsAs.single {power : Nat} {before after : ExprState} {phrase : Phrase}
    {expr : Expr} (reads : Reads before [phrase] after) (balanced : Token.Balanced phrase.tokens)
    (shapes : Phrase.Shapes [phrase] expr) : ReadsAs power before [phrase] expr after where
  toReadsBalanced := ⟨reads, fun _ => by simpa using balanced⟩
  shapes := shapes
  continues := (Phrase.Alone.single phrase).continues

/-- Several phrases have the shape of the bytes that they cover. -/
theorem ReadsBalanced.spanning {power : Nat} {before after : ExprState} {phrases : List Phrase}
    (reads : ReadsBalanced before phrases after) (several : 2 ≤ phrases.length)
    (continues : Phrase.Continues power phrases) :
    ReadsAs power before phrases (.other ⟨before.cursor.start, after.cursor.previous.stop⟩)
      after where
  toReadsBalanced := reads
  shapes := by
    refine reads.spans ?_ ?_ ?_
    · rintro rfl
      simp at several
    · rintro owners last rfl
      simp at several
    · rintro token value rfl
      simp at several
  continues := continues

/-- A token that stands by itself and what follows it have the shape of the bytes that they
cover. -/
theorem ReadsBalanced.marked {power : Nat} {before after : ExprState} {token : Token}
    {phrases : List Phrase} (reads : ReadsBalanced before (.mark token :: phrases) after)
    (some : phrases ≠ []) :
    ∃ phrases, Phrase.Alone phrases ∧ ReadsAs power before phrases
      (.other ⟨before.cursor.start, after.cursor.previous.stop⟩) after := by
  have long : 2 ≤ (Phrase.mark token :: phrases).length :=
    Nat.succ_le_succ (List.length_pos_iff.mpr some)
  have first := Phrase.Alone.mark token phrases
  exact ⟨_, first, reads.spanning long first.continues⟩

end ExprState

namespace ExprStep
open Scan Step Cursor ExprState

variable {before after : ExprState}

@[simp] theorem cursor_expr (state : ExprState) : HasCursor.cursor state = state.cursor := rfl

@[simp] theorem setCursor_expr (cursor : Cursor) (state : ExprState) :
    HasCursor.setCursor cursor state = { state with cursor } := rfl

theorem yields_scan {α : Type} {scan : Scan α} {answer : α} :
    Yields (liftM scan : ExprStep α) before answer after ↔
      ∃ cursor, Yields scan before.cursor answer cursor ∧ after = { before with cursor } :=
  yields_onCursor

theorem yields_takeName {name : Name} :
    Yields takeName before name after ↔
      name = .ofToken before.cursor.current ∧
        after = { before with cursor := before.cursor.advance } := by
  unfold takeName
  rw [Step.yields_look_bind, Step.yields_advance_bind, yields_pure]
  rfl

@[simp] theorem yields_qualify {owner : Name} {answer : Unit} :
    Yields (qualify owner) before answer after ↔
      after = { before with qualifiers := before.qualifiers ++ [owner] } := by
  constructor
  · intro answers
    cases answers
    rfl
  · rintro rfl
    rfl

@[simp] theorem yields_spanningFrom {start : Nat} {expr : Expr} :
    Yields (spanningFrom start) before expr after ↔
      expr = .other ⟨start, before.cursor.previous.stop⟩ ∧ after = before :=
  Step.yields_look

section Marks
variable {word : Keyword} {sign : Symbol}

/-- A literal or an operator is read by passing it. -/
theorem reads_advance (stands : Expr.isSyntax before.cursor.kind = true)
    (plain : Expr.IsPlain before.cursor.kind) :
    ∃ token, token.kind = before.cursor.kind ∧ before.cursor.current = token ∧
      ReadsBalanced before [.mark token] { before with cursor := before.cursor.advance } := by
  have inside : before.cursor.kind ≠ .endOfInput := by
    intro atEnd
    simp [atEnd, Expr.isSyntax] at stands
  obtain ⟨token, is, current, passes⟩ := passes_advance rfl inside (plain _ (by simp))
  refine ⟨token, is, current, .mark passes (by rwa [is]), fun _ => .single ?_ ?_ ?_⟩
  · exact is ▸ plain _ (by simp)
  · exact is ▸ plain _ (by simp)
  · exact is ▸ plain _ (by simp)

theorem expectKeyword_reads {answer : Unit}
    (answers : Yields (liftM (expectKeyword word) : ExprStep Unit) before answer after)
    (syntactic : Expr.isSyntax (.keyword word) = true) :
    ∃ token, token.kind = .keyword word ∧ ReadsBalanced before [.mark token] after := by
  obtain ⟨cursor, scanned, rfl⟩ := yields_scan.mp answers
  obtain ⟨token, is, passes⟩ := expectKeyword_passes scanned
  exact ⟨token, is, .word (.mark passes (by rwa [is])) is⟩

theorem skipAnyKeyword_reads {words : List Keyword} {answer : Bool}
    (answers : Yields (liftM (skipAnyKeyword words) : ExprStep Bool) before answer after)
    (syntactic : ∀ word ∈ words, Expr.isSyntax (.keyword word) = true) :
    (answer = true ∧ ∃ word ∈ words, ∃ token, token.kind = .keyword word ∧
        ReadsBalanced before [.mark token] after) ∨
      (answer = false ∧ (∀ word ∈ words, before.cursor.kind ≠ .keyword word) ∧ before = after) := by
  obtain ⟨cursor, scanned, rfl⟩ := yields_scan.mp answers
  rcases skipAnyKeyword_cases scanned with ⟨rfl, word, member, token, is, passes⟩ | ⟨rfl, none, rfl⟩
  · have stands := syntactic word member
    exact .inl ⟨rfl, word, member, token, is, .word (.mark passes (by rwa [is])) is⟩
  · exact .inr ⟨rfl, none, rfl⟩

theorem skipKeyword_reads {answer : Bool}
    (answers : Yields (liftM (skipKeyword word) : ExprStep Bool) before answer after)
    (syntactic : Expr.isSyntax (.keyword word) = true) :
    (answer = true ∧ ∃ token, token.kind = .keyword word ∧
        ReadsBalanced before [.mark token] after) ∨
      (answer = false ∧ before.cursor.kind ≠ .keyword word ∧ before = after) := by
  rcases skipAnyKeyword_reads answers (by simpa using syntactic) with
    ⟨rfl, _, member, token, is, reads⟩ | ⟨rfl, none, rfl⟩
  · rw [List.mem_singleton.mp member] at is
    exact .inl ⟨rfl, token, is, reads⟩
  · exact .inr ⟨rfl, none word (List.mem_singleton.mpr rfl), rfl⟩

theorem expectSymbol_reads {answer : Unit}
    (answers : Yields (liftM (expectSymbol sign) : ExprStep Unit) before answer after)
    (syntactic : Expr.isSyntax (.symbol sign) = true) (uncounted : sign ≠ .question) :
    ∃ token, token.kind = .symbol sign ∧ Reads before [.mark token] after := by
  obtain ⟨cursor, scanned, rfl⟩ := yields_scan.mp answers
  obtain ⟨token, is, passes⟩ := expectSymbol_passes scanned uncounted
  exact ⟨token, is, .mark passes (by rwa [is])⟩

theorem skipSymbol_reads {answer : Bool}
    (answers : Yields (liftM (skipSymbol sign) : ExprStep Bool) before answer after)
    (syntactic : Expr.isSyntax (.symbol sign) = true) (uncounted : sign ≠ .question) :
    (answer = true ∧ ∃ token, token.kind = .symbol sign ∧ Reads before [.mark token] after) ∨
      (answer = false ∧ before.cursor.kind ≠ .symbol sign ∧ before = after) := by
  obtain ⟨cursor, scanned, rfl⟩ := yields_scan.mp answers
  rcases skipSymbol_cases scanned uncounted with ⟨rfl, token, is, passes⟩ | ⟨rfl, elsewhere, rfl⟩
  · exact .inl ⟨rfl, token, is, .mark passes (by rwa [is])⟩
  · exact .inr ⟨rfl, elsewhere, rfl⟩

end Marks

section Arguments

/-- A token of the arguments of a function takes its turn, and is collected when it is a name with
a point behind it. -/
theorem argumentsRound_turns {depth : Nat} {answer : Round Nat Unit}
    (answers : Yields (argumentsRound depth) before answer after)
    (inside : depth = 0 → before.cursor.kind = .symbol .leftParen) :
    ∃ token, Token.Turns depth token answer ∧ Passes before.cursor [token] after.cursor ∧
      after.qualifiers = before.qualifiers ++
        (Token.ownerBefore after.cursor.rest token).map Name.ofToken ∧
      Token.subqueryBefore after.cursor.rest token = [] := by
  have within : before.cursor.kind ≠ .symbol .leftParen → ∃ outer, depth = outer + 1 := by
    intro other
    cases depth with
    | zero => exact absurd (inside rfl) other
    | succ outer => exact ⟨outer, rfl⟩
  unfold argumentsRound at answers
  simp only [Step.yields_look_bind, id_eq, cursor_expr] at answers
  split at answers
  · next named =>
    simp only [yields_ite, not_yields_throw_bind, and_false, false_or, Step.yields_advance_bind,
      yields_pure] at answers
    obtain ⟨noSubquery, rfl, rfl⟩ := answers
    obtain ⟨token, is, _, passes⟩ := passes_advance named (by simp) (by simp)
    refine ⟨token, .opens is, passes, by simp [Token.ownerBefore, is, TokenKind.isIdentifier], ?_⟩
    refine Token.subqueryBefore_of_front (fun select => noSubquery ?_) token
    rw [opensSubquery_iff, ← rest_advance]
    exact select
  · next named =>
    rw [Step.yields_advance_bind, yields_pure] at answers
    obtain ⟨rfl, rfl⟩ := answers
    obtain ⟨token, is, _, passes⟩ := passes_advance named (by simp) (by simp)
    refine ⟨token, ?_, passes, by simp [Token.ownerBefore, is, TokenKind.isIdentifier],
      Token.subqueryBefore_of_kind (by simp [is]) _⟩
    obtain ⟨outer, rfl⟩ := within (by simp [named])
    cases outer with
    | zero => exact .last is
    | succ outer => exact .closes is
  · next named =>
    obtain ⟨index, between, counted, rest⟩ := yields_bind.mp answers
    obtain ⟨rfl, rfl⟩ := yields_pure.mp rest
    obtain ⟨cursor, scanned, rfl⟩ := yields_scan.mp counted
    obtain ⟨_, token, is, passes⟩ := parameter_passes scanned
    obtain ⟨outer, rfl⟩ := within (by simp [named])
    exact ⟨token, .other (by simp [is]) (by simp [is]), passes, by
      simp [Token.ownerBefore, is, TokenKind.isIdentifier],
      Token.subqueryBefore_of_kind (by simp [is]) _⟩
  · next written named =>
    obtain ⟨name, between, taken, rest⟩ := yields_bind.mp answers
    obtain ⟨rfl, rfl⟩ := yields_takeName.mp taken
    obtain ⟨token, is, current, passes⟩ := passes_advance named (by simp) (by simp)
    obtain ⟨outer, rfl⟩ := within (by simp [named])
    rw [Step.yields_look_bind, yields_ite] at rest
    simp only [yields_bind, yields_qualify, yields_pure, cursor_expr, at?_symbol,
      kind_eq_frontKind] at rest
    refine ⟨token, ?_⟩
    have turns : Token.Turns (outer + 1) token (.next (outer + 1)) :=
      .other (by simp [is]) (by simp [is])
    have noSubquery (rest : List Token) : Token.subqueryBefore rest token = [] :=
      Token.subqueryBefore_of_kind (by simp [is]) rest
    rcases rest with ⟨point, _, _, rfl, rfl, rfl⟩ | ⟨noPoint, rfl, rfl⟩
    · exact ⟨turns, passes, by
        simp [Token.ownerBefore, is, TokenKind.isIdentifier, point, current], noSubquery _⟩
    · exact ⟨turns, passes, by simp [Token.ownerBefore, noPoint], noSubquery _⟩
  · exact absurd answers Step.not_yields_fail
  · next noOpening noClosing noPlaceholder noName inText =>
    rw [Step.yields_advance_bind, yields_pure] at answers
    obtain ⟨rfl, rfl⟩ := answers
    obtain ⟨token, is, _, passes⟩ := passes_advance rfl inText noPlaceholder
    obtain ⟨outer, rfl⟩ := within noOpening
    refine ⟨token, .other (by rw [is]; exact noOpening) (by rw [is]; exact noClosing), passes, ?_,
      Token.subqueryBefore_of_kind (by rw [is]; exact noOpening) _⟩
    have unnamed : token.kind.isIdentifier = false := by
      rw [is]
      unfold TokenKind.isIdentifier
      split
      · next written named => exact absurd named (noName written)
      · rfl
    simp [Token.ownerBefore, unnamed]

/-- The arguments of a function are a group in which no subquery begins, and the names before points in
it are collected. -/
theorem arguments_of_rounds {depth : Nat} {answer : Unit}
    (ran : Rounds argumentsRound depth before answer after)
    (inside : depth = 0 → before.cursor.kind = .symbol .leftParen) :
    ∃ tokens, Token.Closing depth tokens ∧ Passes before.cursor tokens after.cursor ∧
      after.qualifiers = before.qualifiers ++ (Token.owners tokens).map Name.ofToken ∧
      Token.subqueries tokens = [] := by
  induction ran with
  | done answers =>
    obtain ⟨token, turns, passes, collected, _⟩ := argumentsRound_turns answers inside
    refine ⟨[token], turns.closing_done, passes, ?_, ?_⟩
    · cases turns with
      | last closing =>
        rw [collected]
        simp [Token.owners, Token.ownerBefore, closing, TokenKind.isIdentifier]
    · cases turns with
      | last closing => exact Token.subqueries_cons_of_kind (by simp [closing]) []
  | next answers _ ih =>
    obtain ⟨token, turns, passes, collected, noSubquery⟩ := argumentsRound_turns answers inside
    obtain ⟨tokens, closing, more, added, none⟩ :=
      ih fun outside => absurd outside turns.following_ne_zero
    refine ⟨token :: tokens, turns.closing_next closing, passes.trans more, ?_, ?_⟩
    · rw [added, collected, List.append_assoc, ← List.map_append, Token.owners]
      unfold Token.ownerBefore
      rw [more.rest, Token.frontKind_append closing.ne_nil]
    · unfold Token.subqueryBefore at noSubquery
      rw [more.rest, Token.frontKind_append closing.ne_nil] at noSubquery
      rw [Token.subqueries, none, List.append_nil]
      exact noSubquery

end Arguments

section Names
variable {start : Nat} {expr : Expr}

/-- A word or a literal is passed and answered as a name. -/
theorem takeName_passes {name : Name} (answers : Yields takeName before name after)
    (written : before.cursor.kind.isWritten = true) :
    ∃ token, name = .ofToken token ∧ token.kind = before.cursor.kind ∧
      Passes before.cursor [token] after.cursor ∧ after.qualifiers = before.qualifiers := by
  obtain ⟨rfl, rfl⟩ := yields_takeName.mp answers
  obtain ⟨noSymbol, inside⟩ := TokenKind.isWritten_iff.mp written
  obtain ⟨token, is, rfl, passes⟩ := passes_advance rfl inside (by
    intro placeholder
    simp [placeholder, TokenKind.isSymbol] at noSymbol)
  exact ⟨_, rfl, is, passes, rfl⟩

/-- A part of a dotted name: its end, all columns behind a point, or one more name behind a
point. -/
theorem nameRound_cases {owner : Option Name} {name : Name}
    {answer : Round (Option Name × Name) Expr}
    (answers : Yields (nameRound start (owner, name)) before answer after) :
    (before.cursor.kind ≠ .symbol .dot ∧
        answer = .done (owner.elim (.identifier name) (.property · name)) ∧
        after = { before with qualifiers := before.qualifiers ++ owner.toList }) ∨
      (∃ point star, point.kind = .symbol .dot ∧ star.kind = .symbol .star ∧
        Passes before.cursor [point, star] after.cursor ∧
        after.qualifiers = before.qualifiers ++ [name] ∧
        answer = .done (.other ⟨start, star.span.stop⟩)) ∨
      ∃ point part, point.kind = .symbol .dot ∧ part.kind.isWritten = true ∧
        Passes before.cursor [point, part] after.cursor ∧
        after.qualifiers = before.qualifiers ∧ answer = .next (some name, .ofToken part) := by
  unfold nameRound at answers
  obtain ⟨dotted, between, first, rest⟩ := yields_bind.mp answers
  obtain ⟨cursor, scanned, rfl⟩ := yields_scan.mp first
  rcases skipSymbol_cases scanned (by simp) with ⟨rfl, point, is, passes⟩ | ⟨rfl, noPoint, rfl⟩
  · rw [if_pos rfl] at rest
    obtain ⟨starred, between, second, rest⟩ := yields_bind.mp rest
    obtain ⟨further, scanned, rfl⟩ := yields_scan.mp second
    rcases skipSymbol_cases scanned (by simp) with ⟨rfl, star, isStar, more⟩ | ⟨rfl, _, rfl⟩
    · simp only [if_pos, yields_bind, yields_qualify, yields_spanningFrom, yields_pure] at rest
      obtain ⟨_, _, rfl, _, _, ⟨rfl, rfl⟩, rfl, rfl⟩ := rest
      refine .inr (.inl ⟨point, star, is, isStar, passes.trans more, rfl, ?_⟩)
      rw [(passes.trans more).previous]
      rfl
    · rw [if_neg Bool.false_ne_true, Step.yields_look_bind] at rest
      simp only [yields_ite, not_yields_fail_bind, and_false, false_or] at rest
      obtain ⟨inside, rest⟩ := rest
      obtain ⟨part, _, taken, rest⟩ := yields_bind.mp rest
      obtain ⟨rfl, rfl⟩ := yields_pure.mp rest
      have written : cursor.kind.isWritten = true :=
        TokenKind.isWritten_iff.mpr (atSymbolOrEnd_eq_false.mp (by simpa using inside))
      obtain ⟨token, rfl, named, more, same⟩ := takeName_passes taken written
      exact .inr (.inr ⟨point, token, is, by rw [named, written], passes.trans more, same, rfl⟩)
  · rw [if_neg Bool.false_ne_true] at rest
    refine .inl ⟨noPoint, ?_⟩
    cases owner with
    | none =>
      obtain ⟨rfl, rfl⟩ := yields_pure.mp rest
      exact ⟨rfl, by simp⟩
    | some owner =>
      simp only [yields_bind, yields_qualify, yields_pure] at rest
      obtain ⟨_, _, rfl, rfl, rfl⟩ := rest
      exact ⟨rfl, rfl⟩

/-- A dotted name as it is read from `start`, with `rest` behind it: the phrase and its shape. -/
inductive NameRead (start : Nat) (rest : List Token) : Phrase → Expr → Prop where
  | column {owners : List (Token × Token)} {last : Token} {expr : Expr} : Phrase.Dotted owners →
      last.kind.isWritten = true → Token.frontKind rest ≠ .symbol .dot →
        Phrase.Shapes [.name owners last] expr → NameRead start rest (.name owners last) expr
  | columns {owners : List (Token × Token)} {star : Token} : owners ≠ [] → Phrase.Dotted owners →
      star.kind = .symbol .star →
        NameRead start rest (.columns owners star) (.other ⟨start, star.span.stop⟩)

/-- The parts of a dotted name are read one after the other, behind those that have been read. -/
theorem nameRounds_reads {parts : Option Name × Name}
    (ran : Rounds (nameRound start) parts before expr after)
    (owners : List (Token × Token)) (last : Token)
    (are : parts = (owners.getLast?.map fun part => .ofToken part.1, .ofToken last))
    (dotted : Phrase.Dotted owners) (written : last.kind.isWritten = true) :
    ∃ phrase tokens, NameRead start after.cursor.rest phrase expr ∧
      phrase.tokens = Phrase.joined owners ++ last :: tokens ∧
      Passes before.cursor tokens after.cursor ∧
      after.qualifiers = before.qualifiers ++ phrase.qualifiers.map Name.ofToken := by
  induction ran generalizing owners last with
  | done answers =>
    rw [are] at answers
    rcases nameRound_cases answers with ⟨noPoint, shape, rfl⟩ |
      ⟨point, star, is, isStar, passes, collected, shape⟩ | ⟨_, _, _, _, _, _, next⟩
    · refine ⟨.name owners last, [], .column dotted written ?_ ?_, rfl, .refl _, ?_⟩
      · rwa [← kind_eq_frontKind]
      · cases shape
        rcases List.eq_nil_or_concat owners with rfl | ⟨outer, ⟨owner, point⟩, rfl⟩
        · exact .identifier
        · simpa using Phrase.Shapes.property
      · simp only [Phrase.qualifiers]
        cases owners.getLast? <;> rfl
    · cases shape
      have dottedAll := dotted.append written is
      refine ⟨.columns (owners ++ [(last, point)]) star, [point, star],
        .columns (by simp) dottedAll isStar, ?_, passes, ?_⟩
      · simp [Phrase.tokens, Phrase.joined]
      · simp [collected, Phrase.qualifiers]
    · cases next
  | next answers _ ih =>
    rw [are] at answers
    rcases nameRound_cases answers with ⟨_, shape, _⟩ | ⟨_, _, _, _, _, _, shape⟩ |
      ⟨point, part, is, partWritten, passes, same, next⟩
    · cases shape
    · cases shape
    · cases next
      obtain ⟨phrase, tokens, read, text, more, collected⟩ :=
        ih (owners ++ [(last, point)]) part (by simp)
          (dotted.append written is) partWritten
      refine ⟨phrase, point :: part :: tokens, read, ?_, passes.trans more, ?_⟩
      · simp [text, Phrase.joined]
      · rw [collected, same]

/-- What begins as a column is a call with its arguments, or a dotted name up to its last part. -/
theorem name_cases (starts : Expr.startsColumn before.cursor.kind = true)
    (answers : Yields name before expr after) :
    (∃ function arguments, function.kind = before.cursor.kind ∧ Token.IsGroup arguments ∧
        Passes before.cursor (function :: arguments) after.cursor ∧
        after.qualifiers = before.qualifiers ++ (Token.owners arguments).map Name.ofToken ∧
        Token.subqueries arguments = [] ∧
        expr = .other ⟨before.cursor.start, after.cursor.previous.stop⟩) ∨
      ∃ phrase first tokens, first.kind = before.cursor.kind ∧ phrase.tokens = first :: tokens ∧
        NameRead before.cursor.start after.cursor.rest phrase expr ∧
        Passes before.cursor phrase.tokens after.cursor ∧
        after.qualifiers = before.qualifiers ++ phrase.qualifiers.map Name.ofToken ∧
        (tokens = [] → Token.frontKind after.cursor.rest ≠ .symbol .leftParen) := by
  unfold name at answers
  rw [Step.yields_look_bind] at answers
  obtain ⟨first, between, taken, rest⟩ := yields_bind.mp answers
  have word := Expr.isWritten_of_startsColumn starts
  obtain ⟨token, rfl, is, passes, same⟩ := takeName_passes taken word
  rw [Step.yields_look_bind, yields_ite] at rest
  rcases rest with ⟨opens, called⟩ | ⟨plain, dotted⟩
  · obtain ⟨_, _, ran, spanned⟩ := yields_bind.mp called
    obtain ⟨rfl, rfl⟩ := yields_spanningFrom.mp spanned
    obtain ⟨tokens, closing, more, collected, noSubquery⟩ :=
      arguments_of_rounds (rounds_of_rounding ran) fun _ => at?_symbol.mp opens
    rw [same] at collected
    exact .inl ⟨token, tokens, is, closing, passes.trans more, collected, noSubquery, rfl⟩
  · obtain ⟨phrase, tokens, read, text, more, collected⟩ :=
      nameRounds_reads (rounds_of_rounding dotted) [] token rfl (by simp [Phrase.Dotted])
        (by rwa [is])
    rw [same] at collected
    refine .inr ⟨phrase, token, tokens, is, text, read, ?_, collected, ?_⟩
    · rw [text]
      exact passes.trans more
    · rintro rfl
      rw [← show between.cursor.rest = after.cursor.rest from more.rest, ← kind_eq_frontKind]
      exact fun opens => plain (at?_symbol.mpr opens)

/-- A column, all columns of an owner, or a call. -/
theorem name_reads {power : Nat} (answers : Yields name before expr after)
    (starts : Expr.startsColumn before.cursor.kind = true) :
    ∃ phrase, ReadsAs power before [phrase] expr after := by
  rcases name_cases starts answers with
    ⟨function, arguments, is, closing, whole, collected, noSubquery, rfl⟩ |
    ⟨phrase, first, tokens, is, text, read, whole, collected, noOpening⟩
  · have reads : Reads before [.call function arguments] after :=
      .single (.call function arguments) whole
        ⟨by rw [is]; exact Expr.startsCall_of_startsColumn starts, closing⟩ noSubquery (by simp)
        collected
    refine ⟨.call function arguments, .single reads ?_ (reads.spans (by simp) (by simp) (by simp))⟩
    exact .word (by rw [is]; exact Expr.isWritten_of_startsColumn starts) (.of_group closing)
  · have front : Expr.startsColumn (Token.frontKind phrase.tokens) = true := by
      rw [text]
      exact (congrArg Expr.startsColumn is).trans starts
    cases read with
    | @column owners last _ ownersDotted written noPoint shapes =>
      refine ⟨.name owners last, .single (.single _ whole ?_ trivial (by simp) collected) ?_ shapes⟩
      · refine ⟨ownersDotted, written, front, noPoint, ?_⟩
        rintro rfl
        exact noOpening (List.cons.inj text).2.symm
      · exact Phrase.balanced_joined ownersDotted (.word written .nil)
    | @columns owners star some ownersDotted isStar =>
      have reads : Reads before [.columns owners star] after :=
        .single (.columns owners star) whole ⟨some, ownersDotted, front, isStar⟩ trivial (by simp)
          collected
      refine ⟨.columns owners star, .single reads ?_ ?_⟩
      · exact Phrase.balanced_joined ownersDotted
          (.single (by simp [isStar]) (by simp [isStar]) (by simp [isStar]))
      · have last : star.span = after.cursor.previous := by
          simp [whole.previous, Phrase.tokens]
        rw [last]
        exact reads.spans (by simp) (by simp) (by simp)

end Names

/-- A word or a literal is passed where no symbol stands. -/
theorem passes_written {cursor : Cursor} (inside : ¬ cursor.atSymbolOrEnd = true) :
    ∃ token, token.kind.isWritten = true ∧ Passes cursor [token] cursor.advance := by
  obtain ⟨noSymbol, inText⟩ := atSymbolOrEnd_eq_false.mp (by simpa using inside)
  obtain ⟨token, is, _, passes⟩ := passes_advance rfl inText (by
    intro placeholder
    simp [placeholder, TokenKind.isSymbol] at noSymbol)
  exact ⟨token, TokenKind.isWritten_iff.mpr ⟨by rwa [is], by rwa [is]⟩, passes⟩

/-- A named parameter or a session variable is its marks and its name. -/
theorem parameterName_reads {answer : Unit} (answers : Yields parameterName before answer after)
    (stands : before.cursor.kind = .symbol .colon ∨ before.cursor.kind = .symbol .atSign) :
    ∃ marks written, Reads before [.variable marks written] after ∧
      Token.Balanced (Phrase.variable marks written).tokens := by
  unfold parameterName at answers
  rw [Step.yields_advance_bind] at answers
  obtain ⟨doubled, between, skipped, rest⟩ := yields_bind.mp answers
  obtain ⟨cursor, scanned, rfl⟩ := yields_scan.mp skipped
  simp only [Step.yields_look_bind, yields_ite, not_yields_fail_bind, and_false, false_or,
    cursor_expr, Step.yields_advance] at rest
  obtain ⟨inside, rfl⟩ := rest
  obtain ⟨written, isWritten, last⟩ := passes_written inside
  obtain ⟨mark, is, _, first⟩ : ∃ token, token.kind = before.cursor.kind ∧
      before.cursor.current = token ∧ Passes before.cursor [token] before.cursor.advance := by
    rcases stands with stands | stands
    · exact passes_advance rfl (by simp [stands]) (by simp [stands])
    · exact passes_advance rfl (by simp [stands]) (by simp [stands])
  obtain ⟨marks, passes, are⟩ : ∃ marks, Passes before.cursor.advance marks cursor ∧
      ∀ sign ∈ marks, sign.kind = .symbol .colon ∨ sign.kind = .symbol .atSign := by
    rcases skipSymbol_cases scanned (by simp) with ⟨_, second, isAt, passes⟩ | ⟨_, _, rfl⟩
    · exact ⟨[second], passes, by simp [isAt]⟩
    · exact ⟨[], .refl _, by simp⟩
  have all : ∀ sign ∈ mark :: marks, sign.kind = .symbol .colon ∨ sign.kind = .symbol .atSign := by
    simpa [is] using ⟨stands, are⟩
  refine ⟨mark :: marks, written, .single _ ((first.trans passes).trans last)
    ⟨by simp, all, isWritten⟩ trivial (by simp) (by simp [Phrase.qualifiers]), ?_⟩
  refine Token.Balanced.append ?_ (.word isWritten .nil)
  generalize mark :: marks = signs at all
  induction signs with
  | nil => exact .nil
  | cons sign signs ih =>
    have own := all sign List.mem_cons_self
    refine .other ?_ ?_ ?_ (ih fun other member => all other (List.mem_cons_of_mem _ member)) <;>
    · rcases own with own | own <;> simp [own]

/-- A cast is its mark, a type and the arguments of the type. -/
theorem cast_reads {answer : Unit} (answers : Yields cast before answer after) :
    ∃ sign type arguments, Reads before [.cast sign type arguments] after ∧
      Token.Balanced (Phrase.cast sign type arguments).tokens ∧
      sign.kind = .symbol .doubleColon := by
  unfold cast at answers
  obtain ⟨_, between, expected, rest⟩ := yields_bind.mp answers
  obtain ⟨cursor, scanned, rfl⟩ := yields_scan.mp expected
  obtain ⟨sign, is, first⟩ := expectSymbol_passes scanned (by simp)
  simp only [Step.yields_look_bind, yields_ite, not_yields_fail_bind, and_false, false_or,
    cursor_expr, Step.yields_advance_bind] at rest
  obtain ⟨inside, rest⟩ := rest
  obtain ⟨type, isWritten, second⟩ := passes_written inside
  obtain ⟨text, last, grouped, ended⟩ := yields_bind.mp rest
  obtain ⟨_, rfl⟩ := yields_pure.mp ended
  obtain ⟨behind, scanned, rfl⟩ := yields_scan.mp grouped
  have noOpening : sign.kind ≠ .symbol .leftParen := by simp [is]
  have noClosing : sign.kind ≠ .symbol .rightParen := by simp [is]
  have noComma : sign.kind ≠ .symbol .comma := by simp [is]
  rcases group_cases scanned with ⟨noGroup, _, rfl⟩ | ⟨arguments, closing, third, _⟩
  · rw [kind_eq_frontKind] at noGroup
    exact ⟨sign, type, [], .single _ (first.trans second) ⟨is, isWritten, .inl ⟨rfl, noGroup⟩⟩
      trivial (by simp) (by simp [Phrase.qualifiers]),
      .other noOpening noClosing noComma (.word isWritten .nil), is⟩
  · exact ⟨sign, type, arguments,
      .single _ ((first.trans second).trans third) ⟨is, isWritten, .inr closing⟩ trivial (by simp)
        (by simp [Phrase.qualifiers]),
      .other noOpening noClosing noComma (.word isWritten (.of_group closing)), is⟩

section Operands
variable {power : Nat} {expr : Expr}

/-- A literal other than an integer has the shape of the bytes that it covers. -/
theorem literal_reads (literal : Expr.isLiteral before.cursor.kind = true)
    (answers : Yields (do advance; return .other before.cursor.current.span : ExprStep Expr)
      before expr after) : ∃ phrase, ReadsAs power before [phrase] expr after := by
  rw [Step.yields_advance_bind, yields_pure] at answers
  obtain ⟨rfl, rfl⟩ := answers
  have written := Expr.isWritten_of_isLiteral literal
  obtain ⟨token, is, current, reads⟩ :=
    reads_advance (Expr.isSyntax_of_isLiteral literal) (Expr.isPlain_of_isWritten written)
  have last : before.cursor.advance.previous = token.span := reads.moves.previous
  refine ⟨.mark token, .single reads.toReads (.word (by rwa [is]) .nil) ?_⟩
  have shapes := reads.spans (by simp) (by simp) (by
    rintro _ value ⟨⟩ number
    simp [← is, number, Expr.isLiteral] at literal)
  rw [Cursor.start, current, last] at shapes
  rw [current]
  exact shapes

/-- The word that introduces the escape character of a pattern is read by passing it. -/
theorem word_reads (stands : before.cursor.atWord? "ESCAPE" = true) :
    ∃ token, ReadsBalanced before [.word token]
      { before with cursor := before.cursor.advance } := by
  obtain ⟨token, rest, tokens, _, word⟩ := exists_word stands (by decide)
  refine ⟨token, ⟨moves_advance tokens, ⟨word, trivial⟩, parameters_advance _, ?_,
    by simp [Phrase.Guarded]⟩, ?_⟩
  · simp [Phrase.qualifiers]
  · intro lexed
    exact .word ((lexed token (by simp [Phrase.tokens])).isWritten_of_word word (by decide)) .nil

/-- A number has its value as its shape. -/
theorem number_reads {value : Nat} (stands : before.cursor.kind = .integer value)
    (answers : Yields (do advance; return .number value : ExprStep Expr) before expr after) :
    ∃ phrase, ReadsAs power before [phrase] expr after := by
  rw [Step.yields_advance_bind, yields_pure] at answers
  obtain ⟨rfl, rfl⟩ := answers
  have syntactic : Expr.isSyntax before.cursor.kind = true := by simp [stands, Expr.isSyntax]
  obtain ⟨token, is, _, reads⟩ := reads_advance syntactic (by simp [stands, Expr.IsPlain])
  refine ⟨.mark token, .single reads.toReads ?_ (.number (is.trans stands))⟩
  exact .word (by simp [is, stands, TokenKind.isWritten, TokenKind.isSymbol]) .nil

/-- A placeholder has the shape of the bytes that it covers. -/
theorem placeholder_reads
    (answers : Yields (do
      let _ ← parameter
      return .other before.cursor.current.span : ExprStep Expr) before expr after) :
    ∃ phrase, ReadsAs power before [phrase] expr after := by
  obtain ⟨index, between, counted, rest⟩ := yields_bind.mp answers
  obtain ⟨rfl, rfl⟩ := yields_pure.mp rest
  obtain ⟨cursor, scanned, rfl⟩ := yields_scan.mp counted
  obtain ⟨_, token, is, passes⟩ := parameter_passes scanned
  have reads : Reads before [.mark token] { before with cursor } :=
    .mark passes (by simp [is, Expr.isSyntax])
  have current : before.cursor.current = token := by
    simp [Cursor.current, Cursor.peek, passes.rest]
  have last : cursor.previous = token.span := passes.previous
  refine ⟨.mark token, .single reads
    (.single (by simp [is]) (by simp [is]) (by simp [is])) ?_⟩
  have shapes := reads.spans (by simp) (by simp) (by
    rintro _ value ⟨⟩
    simp [is])
  rw [Cursor.start, current, last] at shapes
  rw [current]
  exact shapes

/-- A named parameter or a session variable has the shape of the bytes that it covers. -/
theorem variable_reads
    (stands : before.cursor.kind = .symbol .colon ∨ before.cursor.kind = .symbol .atSign)
    (answers : Yields (do
      parameterName
      spanningFrom before.cursor.start) before expr after) :
    ∃ phrase, ReadsAs power before [phrase] expr after := by
  obtain ⟨_, _, named, spanned⟩ := yields_bind.mp answers
  obtain ⟨rfl, rfl⟩ := yields_spanningFrom.mp spanned
  obtain ⟨marks, written, reads, balanced⟩ := parameterName_reads named stands
  exact ⟨_, .single reads balanced (reads.spans (by simp) (by simp) (by simp))⟩

/-- A call of a function that is named by a keyword. -/
theorem call_reads {word : Keyword} (stands : before.cursor.kind = .keyword word)
    (function : isFunctionName word = true)
    (opens : (before.cursor.peek 1).kind = .symbol .leftParen)
    (answers : Yields (do
      advance
      arguments
      spanningFrom before.cursor.start : ExprStep Expr) before expr after) :
    ∃ token tokens, token.kind = .keyword word ∧
      ReadsAs power before [.call token tokens] expr after := by
  rw [Step.yields_advance_bind] at answers
  obtain ⟨_, _, ran, spanned⟩ := yields_bind.mp answers
  obtain ⟨rfl, rfl⟩ := yields_spanningFrom.mp spanned
  obtain ⟨token, is, _, first⟩ := passes_advance stands (by simp) (by simp)
  have behind : before.cursor.advance.kind = .symbol .leftParen := by
    rw [← opens]
    simp [Cursor.kind, Cursor.current, Cursor.peek, first.text, first.rest]
  obtain ⟨tokens, closing, second, collected, noSubquery⟩ :=
    arguments_of_rounds (rounds_of_rounding ran) fun _ => behind
  have reads : Reads before [.call token tokens] after :=
    .single (.call token tokens) (first.trans second)
      ⟨by simp [is, Expr.startsCall, function], closing⟩ noSubquery (by simp) collected
  exact ⟨token, tokens, is, .single reads
    (.word (by simp [is, TokenKind.isWritten, TokenKind.isSymbol]) (.of_group closing))
    (reads.spans (by simp) (by simp) (by simp))⟩

end Operands

end ExprStep

end SelectRouting
