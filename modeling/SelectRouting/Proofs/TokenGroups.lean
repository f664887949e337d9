import SelectRouting.Proofs.Lexing

/-!
# Lists of tokens

What the readers look at in a list of tokens: the kind at the front, parentheses and what they
enclose, and the names that stand before a point.
-/

namespace SelectRouting

/-- The kind is a name. -/
def TokenKind.isIdentifier : TokenKind → Bool
  | .identifier _ => true
  | _ => false

namespace Token

/-- The number of placeholders among the tokens. -/
def placeholders (tokens : List Token) : Nat :=
  tokens.countP (·.kind == .symbol .question)

@[simp] theorem placeholders_append (first second : List Token) :
    placeholders (first ++ second) = placeholders first + placeholders second :=
  List.countP_append

/-- The kind of the first token, the end of the input when there is none. -/
def frontKind (tokens : List Token) : TokenKind :=
  (tokens.head?.map Token.kind).getD .endOfInput

@[simp] theorem frontKind_nil : frontKind [] = .endOfInput := rfl

@[simp] theorem frontKind_cons (token : Token) (tokens : List Token) :
    frontKind (token :: tokens) = token.kind := rfl

theorem frontKind_append {first : List Token} (some : first ≠ []) (second : List Token) :
    frontKind (first ++ second) = frontKind first := by
  cases first with
  | nil => exact absurd rfl some
  | cons token tokens => rfl

/-- The offset at which the first of the tokens starts, or a text of `size` bytes ends. -/
def frontStart (size : Nat) : List Token → Nat
  | [] => size
  | token :: _ => token.start

/-- The bytes from the first token to the last one. -/
def cover (tokens : List Token) : Span :=
  ⟨(tokens.head?.map Token.start).getD 0, (tokens.getLast?.map fun token => token.span.stop).getD 0⟩

section Parentheses
variable {depth : Nat} {token : Token} {tokens first second : List Token}

/-- The tokens behind `depth` open parentheses, up to the one that closes the outermost of them. -/
inductive Closing : Nat → List Token → Prop where
  | last {token : Token} : token.kind = .symbol .rightParen → Closing 1 [token]
  | opens {depth : Nat} {token : Token} {tokens : List Token} :
      token.kind = .symbol .leftParen → Closing (depth + 1) tokens → Closing depth (token :: tokens)
  | closes {depth : Nat} {token : Token} {tokens : List Token} :
      token.kind = .symbol .rightParen → Closing (depth + 1) tokens →
        Closing (depth + 2) (token :: tokens)
  | other {depth : Nat} {token : Token} {tokens : List Token} :
      token.kind ≠ .symbol .leftParen → token.kind ≠ .symbol .rightParen →
        Closing (depth + 1) tokens → Closing (depth + 1) (token :: tokens)

theorem Closing.ne_nil (closing : Closing depth tokens) : tokens ≠ [] := by
  cases closing <;> simp

/-- The tokens are a parenthesis and all that follows up to the one that closes it. -/
def IsGroup (tokens : List Token) : Prop :=
  Closing 0 tokens

/-- A group begins with a parenthesis. -/
theorem IsGroup.frontKind (group : IsGroup tokens) : frontKind tokens = .symbol .leftParen := by
  cases group with
  | opens opening _ => exact opening

/-- The tokens behind `depth` open parentheses close all of them, and no comma stands outside of
parentheses. -/
inductive Level : Nat → List Token → Prop where
  | nil : Level 0 []
  | opens {depth : Nat} {token : Token} {tokens : List Token} :
      token.kind = .symbol .leftParen → Level (depth + 1) tokens → Level depth (token :: tokens)
  | closes {depth : Nat} {token : Token} {tokens : List Token} :
      token.kind = .symbol .rightParen → Level depth tokens → Level (depth + 1) (token :: tokens)
  | other {depth : Nat} {token : Token} {tokens : List Token} :
      token.kind ≠ .symbol .leftParen → token.kind ≠ .symbol .rightParen →
        (depth = 0 → token.kind ≠ .symbol .comma) → Level depth tokens →
          Level depth (token :: tokens)

/-- The parentheses are balanced, and no comma stands outside of them. -/
def Balanced (tokens : List Token) : Prop :=
  Level 0 tokens

theorem Balanced.nil : Balanced [] :=
  Level.nil

theorem Balanced.other (noOpening : token.kind ≠ .symbol .leftParen)
    (noClosing : token.kind ≠ .symbol .rightParen) (noComma : token.kind ≠ .symbol .comma)
    (rest : Balanced tokens) : Balanced (token :: tokens) :=
  Level.other noOpening noClosing (fun _ => noComma) rest

theorem Balanced.single (noOpening : token.kind ≠ .symbol .leftParen)
    (noClosing : token.kind ≠ .symbol .rightParen) (noComma : token.kind ≠ .symbol .comma) :
    Balanced [token] :=
  .other noOpening noClosing noComma .nil

/-- A word or a literal does not disturb the balance. -/
theorem Balanced.word (written : token.kind.isWritten = true) (rest : Balanced tokens) :
    Balanced (token :: tokens) := by
  have noSymbol := (TokenKind.isWritten_iff.mp written).1
  refine .other ?_ ?_ ?_ rest <;>
  · intro symbol
    simp [symbol, TokenKind.isSymbol] at noSymbol

theorem Level.append (left : Level depth first) (right : Balanced second) :
    Level depth (first ++ second) := by
  induction left with
  | nil => exact right
  | opens opening _ ih => exact .opens opening ih
  | closes closing _ ih => exact .closes closing ih
  | other noOpening noClosing noComma _ ih => exact .other noOpening noClosing noComma ih

theorem Balanced.append (left : Balanced first) (right : Balanced second) :
    Balanced (first ++ second) :=
  Level.append left right

theorem Closing.level (closing : Closing depth tokens) : Level depth tokens := by
  induction closing with
  | last closing => exact .closes closing .nil
  | opens opening _ ih => exact .opens opening ih
  | closes closing _ ih => exact .closes closing ih
  | other noOpening noClosing _ ih =>
    exact .other noOpening noClosing (fun outside => absurd outside (Nat.succ_ne_zero _)) ih

theorem Balanced.of_group (group : IsGroup tokens) : Balanced tokens :=
  Closing.level group

/-- Behind balanced tokens as many parentheses are open as before. -/
theorem Level.append_closing {outer : Nat} (left : Level depth first)
    (right : Closing (outer + 1) second) : Closing (depth + outer + 1) (first ++ second) := by
  induction left with
  | nil => simpa using right
  | @opens depth token tokens opening _ ih =>
    rw [Nat.add_right_comm depth 1 outer] at ih
    exact .opens opening ih
  | @closes depth token tokens closing _ ih =>
    rw [show depth + 1 + outer + 1 = depth + outer + 2 by omega]
    exact .closes closing ih
  | other noOpening noClosing _ _ ih => exact .other noOpening noClosing ih

theorem Balanced.append_closing (left : Balanced first) (right : Closing (depth + 1) second) :
    Closing (depth + 1) (first ++ second) := by
  simpa using Level.append_closing left right

end Parentheses

section Depth
variable {depth : Nat} {token : Token} {tokens first second : List Token}

/-- The parentheses that are open behind the token, when `depth` are open before it. A token that
closes one where none is open has no answer. -/
def deepen? (depth : Nat) (token : Token) : Option Nat :=
  if token.kind = .symbol .leftParen then some (depth + 1)
  else if token.kind = .symbol .rightParen then
    match depth with
    | 0 => none
    | outer + 1 => some outer
  else some depth

/-- The parentheses that are open behind the tokens, when `depth` are open before them. -/
def depthBehind? (depth : Nat) (tokens : List Token) : Option Nat :=
  tokens.foldlM deepen? depth

/-- Every parenthesis in the tokens is closed in them, and none is closed that is not open. -/
def IsNested (tokens : List Token) : Prop :=
  depthBehind? 0 tokens = some 0

instance (tokens : List Token) : Decidable (IsNested tokens) :=
  inferInstanceAs (Decidable (_ = _))

/-- The tokens before which no parenthesis is open, when `depth` are open before the first. -/
def outside : (depth : Nat) → List Token → List Token
  | _, [] => []
  | 0, token :: tokens => token :: outside ((deepen? 0 token).getD 0) tokens
  | depth + 1, token :: tokens => outside ((deepen? (depth + 1) token).getD 0) tokens

theorem deepen?_of_opening (opening : token.kind = .symbol .leftParen) :
    deepen? depth token = some (depth + 1) := by
  simp [deepen?, opening]

theorem deepen?_of_closing (closing : token.kind = .symbol .rightParen) :
    deepen? (depth + 1) token = some depth := by
  simp [deepen?, closing]

theorem deepen?_of_other (noOpening : token.kind ≠ .symbol .leftParen)
    (noClosing : token.kind ≠ .symbol .rightParen) : deepen? depth token = some depth := by
  simp [deepen?, noOpening, noClosing]

@[simp] theorem depthBehind?_nil : depthBehind? depth [] = some depth := rfl

@[simp] theorem outside_nil : outside depth [] = [] := by
  cases depth <;> rfl

theorem depthBehind?_cons {following : Nat} (deepened : deepen? depth token = some following) :
    depthBehind? depth (token :: tokens) = depthBehind? following tokens := by
  simp [depthBehind?, deepened]

theorem mem_outside_cons {following : Nat} {other : Token}
    (deepened : deepen? depth token = some following) :
    other ∈ outside depth (token :: tokens) ↔
      (depth = 0 ∧ other = token) ∨ other ∈ outside following tokens := by
  cases depth <;> simp [outside, deepened]

theorem Level.depthBehind? (level : Level depth tokens) : depthBehind? depth tokens = some 0 := by
  induction level with
  | nil => rfl
  | opens opening _ ih => rw [depthBehind?_cons (deepen?_of_opening opening), ih]
  | closes closing _ ih => rw [depthBehind?_cons (deepen?_of_closing closing), ih]
  | other noOpening noClosing _ _ ih =>
    rw [depthBehind?_cons (deepen?_of_other noOpening noClosing), ih]

theorem Balanced.isNested (balanced : Balanced tokens) : IsNested tokens :=
  Level.depthBehind? balanced

theorem IsNested.nil : IsNested [] := rfl

theorem IsNested.append (left : IsNested first) (right : IsNested second) :
    IsNested (first ++ second) := by
  rw [IsNested, Token.depthBehind?, List.foldlM_append]
  exact (congrArg (· >>= _) left).trans right

theorem IsNested.flatMap {α : Type} {tokensOf : α → List Token} {parts : List α}
    (each : ∀ part ∈ parts, IsNested (tokensOf part)) : IsNested (parts.flatMap tokensOf) := by
  induction parts with
  | nil => exact .nil
  | cons part parts ih =>
    obtain ⟨first, others⟩ := List.forall_mem_cons.mp each
    exact first.append (ih others)

/-- Tokens among which there is no parenthesis are nested. -/
theorem IsNested.of_other (others : ∀ token ∈ tokens,
    token.kind ≠ .symbol .leftParen ∧ token.kind ≠ .symbol .rightParen) : IsNested tokens := by
  induction tokens with
  | nil => exact .nil
  | cons token tokens ih =>
    obtain ⟨⟨noOpening, noClosing⟩, others⟩ := List.forall_mem_cons.mp others
    rw [IsNested, depthBehind?_cons (deepen?_of_other noOpening noClosing)]
    exact ih others

/-- Behind tokens that are nested stands outside what stands there by itself. -/
theorem mem_outside_append {other : Token} (nested : Token.depthBehind? depth first = some 0) :
    other ∈ outside depth (first ++ second) ↔
      other ∈ outside depth first ∨ other ∈ outside 0 second := by
  induction first generalizing depth with
  | nil =>
    obtain rfl : depth = 0 := Option.some.inj nested
    simp
  | cons token tokens ih =>
    rw [Token.depthBehind?, List.foldlM_cons, Option.bind_eq_bind, Option.bind_eq_some_iff] at nested
    obtain ⟨following, deepened, nested⟩ := nested
    rw [List.cons_append, mem_outside_cons deepened, mem_outside_cons deepened, ih nested, or_assoc]

theorem mem_outside_flatMap {α : Type} {tokensOf : α → List Token} {parts : List α} {other : Token}
    (each : ∀ part ∈ parts, IsNested (tokensOf part)) :
    other ∈ outside 0 (parts.flatMap tokensOf) ↔ ∃ part ∈ parts, other ∈ outside 0 (tokensOf part) := by
  induction parts with
  | nil => simp
  | cons part parts ih =>
    obtain ⟨first, others⟩ := List.forall_mem_cons.mp each
    rw [List.flatMap_cons, mem_outside_append first, ih others]
    simp

theorem outside_sublist (depth : Nat) (tokens : List Token) :
    (outside depth tokens).Sublist tokens := by
  induction tokens generalizing depth with
  | nil => simp
  | cons token tokens ih =>
    cases depth with
    | zero => exact (ih _).cons_cons token
    | succ depth => exact (ih _).cons token

/-- Of the tokens behind an open parenthesis up to the one that closes it none stands outside. -/
theorem Closing.outside (closing : Closing (depth + 1) tokens) : outside (depth + 1) tokens = [] := by
  generalize opened : depth + 1 = deep at closing
  induction closing generalizing depth with
  | last closing =>
    cases opened
    simp [Token.outside]
  | opens opening _ ih =>
    cases opened
    rw [Token.outside, deepen?_of_opening opening]
    exact ih rfl
  | closes closing _ ih =>
    cases opened
    rw [Token.outside, deepen?_of_closing closing]
    exact ih rfl
  | other noOpening noClosing _ ih =>
    cases opened
    rw [Token.outside, deepen?_of_other noOpening noClosing]
    exact ih rfl

/-- Of a group only its first parenthesis stands outside. -/
theorem IsGroup.outside (group : IsGroup tokens) :
    ∀ token ∈ outside 0 tokens, token.kind = .symbol .leftParen := by
  cases group with
  | opens opening closing =>
    rw [Token.outside, deepen?_of_opening opening]
    simpa [closing.outside] using opening

end Depth

section Owners

/-- The token, when it is a name and `rest`, which stands behind it, begins with a point. -/
def ownerBefore (rest : List Token) (token : Token) : List Token :=
  if token.kind.isIdentifier && frontKind rest == .symbol .dot then [token] else []

/-- The names that stand directly before a point. -/
def owners : List Token → List Token
  | [] => []
  | token :: rest => ownerBefore rest token ++ owners rest

variable {tokens first second : List Token}

theorem ownerBefore_sublist (rest : List Token) (token : Token) :
    (ownerBefore rest token).Sublist [token] := by
  unfold ownerBefore
  split
  · exact .refl _
  · exact List.nil_sublist _

@[simp] theorem owners_nil : owners [] = [] := rfl

theorem ownerBefore_of_front {rest : List Token} (noPoint : frontKind rest ≠ .symbol .dot)
    (token : Token) : ownerBefore rest token = [] := by
  simp [ownerBefore, noPoint]

theorem owners_sublist (tokens : List Token) : (owners tokens).Sublist tokens := by
  induction tokens with
  | nil => exact .slnil
  | cons token tokens ih => exact (ownerBefore_sublist tokens token).append ih

theorem ownerBefore_append (noPoint : frontKind second ≠ .symbol .dot) (token : Token) :
    ownerBefore (first ++ second) token = ownerBefore first token := by
  cases first with
  | nil => rw [List.nil_append, ownerBefore_of_front noPoint, ownerBefore_of_front (by simp)]
  | cons next tokens => rfl

/-- Where no point begins the second list, the names before points are those of the two lists. -/
theorem owners_append (noPoint : frontKind second ≠ .symbol .dot) :
    owners (first ++ second) = owners first ++ owners second := by
  induction first with
  | nil => rfl
  | cons token tokens ih =>
    rw [List.cons_append, owners, owners, ownerBefore_append noPoint, ih, List.append_assoc]

/-- Where no name ends the first list, the names before points are those of the two lists. -/
theorem owners_append_of_last (noName : ∀ token ∈ first.getLast?, token.kind.isIdentifier = false) :
    owners (first ++ second) = owners first ++ owners second := by
  induction first with
  | nil => rfl
  | cons token tokens ih =>
    cases tokens with
    | nil =>
      have unnamed := noName token (by simp)
      simp [owners, ownerBefore, unnamed]
    | cons next tokens =>
      have rest := ih fun last member => noName last (by simpa using member)
      rw [List.cons_append, owners, owners, rest, ← List.append_assoc]
      rfl

theorem owners_eq_nil (noPoint : ∀ token ∈ tokens, token.kind ≠ .symbol .dot) :
    owners tokens = [] := by
  induction tokens with
  | nil => rfl
  | cons token tokens ih =>
    have front : frontKind tokens ≠ .symbol .dot := by
      cases tokens with
      | nil => simp
      | cons next tokens => exact noPoint next (by simp)
    rw [owners, ih fun other member => noPoint other (List.mem_cons_of_mem _ member),
      ownerBefore_of_front front, List.nil_append]

/-- A point behind a name does not fall between the two lists. -/
def Splits (first second : List Token) : Prop :=
  frontKind second ≠ .symbol .dot ∨ ∀ token ∈ first.getLast?, token.kind.isIdentifier = false

/-- Where the two lists are split between parts, a name before a point stands in one of them. -/
theorem Splits.mem_owners {token : Token} (splits : Splits first second)
    (member : token ∈ owners (first ++ second)) : token ∈ owners first ∨ token ∈ owners second := by
  rcases splits with noPoint | noName
  · rw [owners_append noPoint] at member
    exact List.mem_append.mp member
  · rw [owners_append_of_last noName] at member
    exact List.mem_append.mp member

theorem not_mem_owners {token : Token} (noPoint : ∀ token ∈ tokens, token.kind ≠ .symbol .dot) :
    token ∉ owners tokens := by
  rw [owners_eq_nil noPoint]
  exact List.not_mem_nil

/-- A group ends with its closing parenthesis. -/
theorem Closing.getLast {depth : Nat} (closing : Closing depth tokens) :
    ∀ token ∈ tokens.getLast?, token.kind = .symbol .rightParen := by
  induction closing with
  | last closing => simpa using closing
  | opens _ rest ih | closes _ rest ih | other _ _ rest ih =>
    rwa [List.getLast?_cons_of_ne_nil rest.ne_nil]

theorem IsGroup.splits (group : IsGroup first) (second : List Token) : Splits first second := by
  refine .inr fun token last => ?_
  simp [Closing.getLast group token last, TokenKind.isIdentifier]

theorem IsGroup.splits_cons (group : IsGroup first) (token : Token) (second : List Token) :
    Splits (token :: first) second := by
  refine .inr fun last member => ?_
  rw [List.getLast?_cons_of_ne_nil (Closing.ne_nil group)] at member
  simp [Closing.getLast group last member, TokenKind.isIdentifier]

/-- Tokens that are no names split from whatever stands behind them. -/
theorem splits_of_no_name (noName : ∀ token ∈ first, token.kind.isIdentifier = false)
    (second : List Token) : Splits first second :=
  .inr fun token last => noName token (List.mem_of_getLast? last)

end Owners

section Subqueries
variable {tokens first second : List Token}

/-- The token, when it is a parenthesis and `rest`, which stands behind it, begins with `SELECT`. -/
def subqueryBefore (rest : List Token) (token : Token) : List Token :=
  if token.kind == .symbol .leftParen && frontKind rest == .keyword .SELECT then [token] else []

/-- The parentheses directly before `SELECT`: those with which a subquery begins. -/
def subqueries : List Token → List Token
  | [] => []
  | token :: rest => subqueryBefore rest token ++ subqueries rest

theorem subqueryBefore_of_front {rest : List Token} (noSelect : frontKind rest ≠ .keyword .SELECT)
    (token : Token) : subqueryBefore rest token = [] := by
  simp [subqueryBefore, noSelect]

theorem subqueryBefore_of_kind {token : Token} (noOpening : token.kind ≠ .symbol .leftParen)
    (rest : List Token) : subqueryBefore rest token = [] := by
  simp [subqueryBefore, noOpening]

theorem subqueries_cons_of_kind {token : Token} (noOpening : token.kind ≠ .symbol .leftParen)
    (rest : List Token) : subqueries (token :: rest) = subqueries rest := by
  rw [subqueries, subqueryBefore_of_kind noOpening, List.nil_append]

/-- Where `SELECT` does not begin the second list, the subqueries are those of the two lists. -/
theorem subqueries_append (noSelect : frontKind second ≠ .keyword .SELECT) :
    subqueries (first ++ second) = subqueries first ++ subqueries second := by
  induction first with
  | nil => rfl
  | cons token tokens ih =>
    have same : subqueryBefore (tokens ++ second) token = subqueryBefore tokens token := by
      cases tokens with
      | nil => rw [List.nil_append, subqueryBefore_of_front noSelect, subqueryBefore_of_front (by simp)]
      | cons next tokens => rfl
    rw [List.cons_append, subqueries, subqueries, same, ih, List.append_assoc]

/-- Where no parenthesis ends the first list, the subqueries are those of the two lists. -/
theorem subqueries_append_of_last
    (noOpening : ∀ token ∈ first.getLast?, token.kind ≠ .symbol .leftParen) :
    subqueries (first ++ second) = subqueries first ++ subqueries second := by
  induction first with
  | nil => rfl
  | cons token tokens ih =>
    cases tokens with
    | nil =>
      have other := noOpening token rfl
      rw [List.singleton_append, subqueries_cons_of_kind other, subqueries_cons_of_kind other]
      rfl
    | cons next tokens =>
      have rest := ih fun last member => noOpening last (by simpa using member)
      rw [List.cons_append, subqueries, subqueries, rest, ← List.append_assoc]
      rfl

theorem subqueryBefore_sublist (rest : List Token) (token : Token) :
    (subqueryBefore rest token).Sublist [token] := by
  unfold subqueryBefore
  split
  · exact .refl _
  · exact List.nil_sublist _

theorem subqueries_sublist (tokens : List Token) : (subqueries tokens).Sublist tokens := by
  induction tokens with
  | nil => exact .slnil
  | cons token tokens ih => exact (subqueryBefore_sublist tokens token).append ih

theorem subqueries_eq_nil (noOpening : ∀ token ∈ tokens, token.kind ≠ .symbol .leftParen) :
    subqueries tokens = [] := by
  induction tokens with
  | nil => rfl
  | cons token tokens ih =>
    rw [subqueries_cons_of_kind (noOpening token List.mem_cons_self)]
    exact ih fun other member => noOpening other (List.mem_cons_of_mem _ member)

/-- What has no parenthesis begins no subquery. -/
theorem subqueries_append_of_noOpening (noOpening : ∀ token ∈ first, token.kind ≠ .symbol .leftParen) :
    subqueries (first ++ second) = subqueries second := by
  have last : ∀ token ∈ first.getLast?, token.kind ≠ .symbol .leftParen :=
    fun token last => noOpening token (List.mem_of_getLast? last)
  rw [subqueries_append_of_last last, subqueries_eq_nil noOpening, List.nil_append]

/-- A subquery has two tokens at least. -/
theorem subqueries_of_length_le_one (short : tokens.length ≤ 1) : subqueries tokens = [] := by
  rcases tokens with _ | ⟨only, _ | ⟨next, tokens⟩⟩
  · rfl
  · rw [subqueries, subqueryBefore_of_front (by simp)]
    rfl
  · simp at short

end Subqueries

section Fit
variable {α : Type} (tokensOf : α → List Token) (fits : List Token → α → Prop)

/-- Each of the parts fits where the next ones, and at last `rest`, stand behind it. -/
def Fit : List α → List Token → Prop
  | [], _ => True
  | part :: parts, rest => fits (parts.flatMap tokensOf ++ rest) part ∧ Fit parts rest

variable {tokensOf fits}

theorem Fit.append {first second : List α} {rest : List Token}
    (left : Fit tokensOf fits first (second.flatMap tokensOf ++ rest))
    (right : Fit tokensOf fits second rest) : Fit tokensOf fits (first ++ second) rest := by
  induction first with
  | nil => exact right
  | cons part parts ih =>
    refine ⟨?_, ih left.2⟩
    change fits ((parts ++ second).flatMap tokensOf ++ rest) part
    rw [List.flatMap_append, List.append_assoc]
    exact left.1

theorem Fit.of_mem {parts : List α} {rest : List Token} (fit : Fit tokensOf fits parts rest)
    {part : α} (member : part ∈ parts) : ∃ behind, fits behind part := by
  induction parts with
  | nil => cases member
  | cons first parts ih =>
    rcases List.mem_cons.mp member with rfl | member
    · exact ⟨_, fit.1⟩
    · exact ih fit.2 member

/-- Parts of which none begins with a token of the kind do not begin with one together. -/
theorem frontKind_flatMap_ne {kind : TokenKind} {parts : List α} {rest : List Token}
    (each : ∀ part ∈ parts, frontKind (tokensOf part) ≠ kind) (behind : frontKind rest ≠ kind) :
    frontKind (parts.flatMap tokensOf ++ rest) ≠ kind := by
  induction parts with
  | nil => exact behind
  | cons part parts ih =>
    have others := ih fun other member => each other (List.mem_cons_of_mem _ member)
    rw [List.flatMap_cons, List.append_assoc]
    by_cases empty : tokensOf part = []
    · rwa [empty, List.nil_append]
    · rw [frontKind_append empty]
      exact each part List.mem_cons_self

/-- The names before points in parts of which none begins with a point are those of each part. -/
theorem owners_flatMap {parts : List α}
    (noPoint : ∀ part ∈ parts, frontKind (tokensOf part) ≠ .symbol .dot) :
    owners (parts.flatMap tokensOf) = parts.flatMap fun part => owners (tokensOf part) := by
  induction parts with
  | nil => rfl
  | cons part parts ih =>
    have rest : ∀ other ∈ parts, frontKind (tokensOf other) ≠ .symbol .dot :=
      fun other member => noPoint other (List.mem_cons_of_mem _ member)
    have front : frontKind (parts.flatMap tokensOf) ≠ .symbol .dot := by
      rw [← List.append_nil (parts.flatMap tokensOf)]
      exact frontKind_flatMap_ne rest (by simp)
    rw [List.flatMap_cons, List.flatMap_cons, owners_append front, ih rest]

/-- The subqueries in parts of which none begins with `SELECT` are those of each part. -/
theorem subqueries_flatMap {parts : List α}
    (noSelect : ∀ part ∈ parts, frontKind (tokensOf part) ≠ .keyword .SELECT) :
    subqueries (parts.flatMap tokensOf) = parts.flatMap fun part => subqueries (tokensOf part) := by
  induction parts with
  | nil => rfl
  | cons part parts ih =>
    have rest : ∀ other ∈ parts, frontKind (tokensOf other) ≠ .keyword .SELECT :=
      fun other member => noSelect other (List.mem_cons_of_mem _ member)
    have front : frontKind (parts.flatMap tokensOf) ≠ .keyword .SELECT := by
      rw [← List.append_nil (parts.flatMap tokensOf)]
      exact frontKind_flatMap_ne rest (by simp)
    rw [List.flatMap_cons, List.flatMap_cons, subqueries_append front, ih rest]

end Fit

end Token

end SelectRouting
