import SelectRouting.Proofs.ProjectionPassage

/-!
# Items that are passed token by token

An item goes on with tokens among which no word and no mark ends it outside of parentheses and no
subquery begins (`AnalysisStep.GoesOn`). It passes them all, and its expression is all of them when
the last one is no name behind a value (`AnalysisStep.plainItem_of_goes`).
-/

namespace SelectRouting

namespace AnalysisStep
open Scan Step Cursor Analysis

/-- The item goes on with the tokens, where `depth` parentheses are open, and ends behind them. -/
structure GoesOn (depth : Nat) (tokens : List Token) : Prop where
  level : Token.Level depth tokens
  guarded : Projected.GuardedText depth tokens
  noSemicolon : ∀ token ∈ Token.outside depth tokens, token.kind ≠ .symbol .semicolon
  noExists : ∀ token ∈ tokens, token.kind ≠ .keyword .EXISTS
  inside : ∀ token ∈ tokens, token.kind ≠ .endOfInput

/-- The item behind the tokens. -/
def PlainItem.behind (item : PlainItem) (tokens : List Token) : PlainItem :=
  tokens.foldl (fun item token => item.pass token ((Token.deepen? item.depth token).getD 0)) item

section PlainItem
variable {before : Analysis} {item : PlainItem} {depth : Nat} {token : Token} {tokens : List Token}

/-- Behind the first of the tokens the others close the parentheses that are open there. -/
theorem exists_deepens (level : Token.Level depth (token :: tokens)) :
    ∃ following, Deepens depth token following ∧ Token.Level following tokens ∧
      (depth = 0 → token.kind ≠ .symbol .comma) := by
  cases level with
  | opens opening rest => exact ⟨_, .opens opening, rest, fun _ => by simp [opening]⟩
  | closes closing rest => exact ⟨_, .closes closing, rest, nofun⟩
  | other noOpening noClosing noComma rest =>
    exact ⟨_, .other noOpening noClosing, rest, noComma⟩

/-- The item goes on with the first of the tokens and behind it with the others. -/
theorem GoesOn.uncons (goes : GoesOn depth (token :: tokens)) {cursor : Cursor}
    (stands : cursor.current = token) : ∃ following, Deepens depth token following ∧
      GoesOn following tokens ∧ (depth = 0 → atTerminator cursor = false) := by
  obtain ⟨following, deepens, level, noComma⟩ := exists_deepens goes.level
  have outside {other : Token} (member : other ∈ Token.outside following tokens) :
      other ∈ Token.outside depth (token :: tokens) :=
    (Token.mem_outside_cons deepens.deepen?).mpr (.inr member)
  have noSubquery : Token.subqueryBefore tokens token ++ Token.subqueries tokens = [] :=
    goes.guarded.subqueries
  refine ⟨following, deepens, ?_, fun unopened => ?_⟩
  · exact
      { level
        guarded := ⟨(List.append_eq_nil_iff.mp noSubquery).2, fun other member =>
          goes.guarded.words other (outside member)⟩
        noSemicolon := fun other member => goes.noSemicolon other (outside member)
        noExists := fun other member => goes.noExists other (List.mem_cons_of_mem _ member)
        inside := fun other member => goes.inside other (List.mem_cons_of_mem _ member) }
  · have here : token ∈ Token.outside depth (token :: tokens) :=
      (Token.mem_outside_cons deepens.deepen?).mpr (.inl ⟨unopened, rfl⟩)
    unfold atTerminator
    rw [Cursor.kind, stands]
    split
    · next comma => exact absurd comma (noComma unopened)
    · next semicolon => exact absurd semicolon (goes.noSemicolon token here)
    · next ended => exact absurd ended (goes.inside token List.mem_cons_self)
    · next word is =>
      rw [← Bool.not_eq_true, List.contains_iff_mem]
      exact fun closing => goes.guarded.words token here word closing is
    · rfl

theorem GoesOn.admits (goes : GoesOn depth (token :: tokens)) {following : Nat}
    (deepens : Deepens depth token following) (rest : List Token) :
    Admits depth token (Token.frontKind (tokens ++ rest)) following where
  deepens := deepens
  noSubquery opening := by
    have noSubquery : Token.subqueryBefore tokens token ++ Token.subqueries tokens = [] :=
      goes.guarded.subqueries
    have some : tokens ≠ [] := by
      rintro rfl
      obtain ⟨_, opens, level, _⟩ := exists_deepens goes.level
      cases opens with
      | opens _ => cases level
      | closes closing => simp [opening] at closing
      | other noOpening _ => exact noOpening opening
    rw [Token.frontKind_append some]
    intro select
    simp [Token.subqueryBefore, opening, select] at noSubquery
  noExists := goes.noExists token List.mem_cons_self
  inside := goes.inside token List.mem_cons_self

/-- An item passes the tokens with which it goes on, up to where it ends. -/
theorem plainItemRounds_of_goes {cursor : Cursor} (goes : GoesOn item.depth tokens)
    (passes : Passes before.cursor tokens cursor) (ends : atTerminator cursor = true) :
    ∃ after, after.cursor = cursor ∧
      Rounds plainItemRound item before (item.behind tokens) after := by
  induction tokens generalizing item before with
  | nil =>
    obtain rfl := passes.unique (.refl _)
    have outside : item.depth = 0 := by
      generalize item.depth = depth at goes
      cases goes.level
      rfl
    exact ⟨before, rfl, .done (yields_plainItemRound.mpr (.inl ⟨outside, ends, rfl, rfl⟩))⟩
  | cons token tokens ih =>
    obtain ⟨between, first, rest⟩ := passes.uncons
    have current := current_of_cons first.rest
    obtain ⟨following, deepens, later, goesHere⟩ := goes.uncons current
    have admits := goes.admits deepens cursor.rest
    have tail : before.cursor.rest.tail = tokens ++ cursor.rest := by
      rw [first.rest, ← rest.rest]
      rfl
    rw [← tail, ← current] at admits
    have behind := passes_behind admits.inside
    rw [current] at behind
    obtain rfl := behind.unique first
    have deepened : (Token.deepen? item.depth token).getD 0 = following := by
      rw [deepens.deepen?]
      rfl
    obtain ⟨after, same, ran⟩ := @ih before.behind (item.pass token following)
      (by rwa [pass_depth]) rest
    refine ⟨after, same, .next (yields_plainItemRound.mpr (.inr ⟨goesHere, following, admits, ?_, rfl⟩))
      (?_ : Rounds plainItemRound (item.pass token following) _ _ _)⟩
    · rw [current]
    · rw [PlainItem.behind, List.foldl_cons, deepened]
      exact ran

theorem depth_behind (level : Token.Level item.depth tokens) : (item.behind tokens).depth = 0 := by
  induction tokens generalizing item with
  | nil =>
    generalize same : item.depth = depth at level
    cases level
    exact same
  | cons token tokens ih =>
    obtain ⟨following, deepens, rest, _⟩ := exists_deepens level
    rw [PlainItem.behind, List.foldl_cons, deepens.deepen?]
    exact ih (by rwa [pass_depth])

theorem behind_append (first second : List Token) :
    item.behind (first ++ second) = (item.behind first).behind second :=
  List.foldl_append

theorem stop_behind : (item.behind tokens).stop = Token.stopOf item.stop tokens := by
  induction tokens generalizing item with
  | nil => rfl
  | cons token tokens ih =>
    rw [PlainItem.behind, List.foldl_cons, Token.stopOf_cons]
    refine (ih).trans ?_
    rw [show ∀ depth, (item.pass token depth).stop = token.span.stop from fun depth => by
      unfold PlainItem.pass
      split <;> rfl]

/-- Outside of parentheses the last token decides whether a name behind it reads as an alias. -/
theorem afterValue_behind (outside : (item.behind tokens).depth = 0) :
    (item.behind tokens).afterValue =
      (tokens.getLast?.map fun token => aliasMayFollow token.kind).getD item.afterValue := by
  rcases List.eq_nil_or_concat tokens with rfl | ⟨front, last, rfl⟩
  · rfl
  · rw [List.concat_eq_append] at outside ⊢
    rw [behind_append] at outside ⊢
    change ((item.behind front).pass last _).depth = 0 at outside
    change ((item.behind front).pass last _).afterValue = _
    rw [pass_depth] at outside
    rw [outside, List.getLast?_concat]
    rfl

/-- A name does not read as an alias behind what is no value, and nothing else reads as one. -/
theorem aliasName_pass (noName : token.kind.readsAsAlias = true → item.afterValue = false) :
    (item.pass token 0).aliasName = none := by
  unfold PlainItem.pass
  rw [if_pos (by rfl)]
  dsimp only
  split
  · next named =>
    rw [noName (by rw [named]; rfl)]
    rfl
  · next named =>
    rw [noName (by rw [named]; rfl)]
    rfl
  · rfl

/-- A name at the end of an item is no alias when it stands behind no value. -/
theorem aliasName_behind (level : Token.Level item.depth tokens) (some : tokens ≠ [])
    (joined : ∀ front last, tokens = front ++ [last] → last.kind.readsAsAlias = true →
      (front.getLast?.map fun token => aliasMayFollow token.kind).getD item.afterValue = false) :
    (item.behind tokens).aliasName = none := by
  obtain ⟨front, last, rfl⟩ := (List.eq_nil_or_concat tokens).resolve_left some
  rw [List.concat_eq_append] at level joined ⊢
  have outside := depth_behind level
  rw [behind_append] at outside ⊢
  change ((item.behind front).pass last _).depth = 0 at outside
  change ((item.behind front).pass last _).aliasName = _
  rw [pass_depth] at outside
  rw [outside]
  refine aliasName_pass fun named => ?_
  have noSymbol (sign : Symbol) : last.kind ≠ .symbol sign := by
    intro is
    simp [is, TokenKind.readsAsAlias] at named
  rw [Token.deepen?_of_other (noSymbol _) (noSymbol _)] at outside
  rw [afterValue_behind outside]
  exact joined front last rfl named

/-- An item that goes on up to its end is answered with all of its tokens as its expression. -/
theorem plainItem_of_goes {start : Nat} {afterValue : Bool} {cursor last : Cursor}
    {aliasGiven : Option String} (goes : GoesOn 0 tokens) (some : tokens ≠ [])
    (passes : Passes before.cursor tokens cursor) (ends : atTerminator cursor = true)
    (joined : ∀ front last, tokens = front ++ [last] → last.kind.readsAsAlias = true →
      (front.getLast?.map fun token => aliasMayFollow token.kind).getD afterValue = false)
    (covers : start < Token.stopOf (max before.cursor.previous.stop start) tokens)
    (aliased : Yields Scan.aliasName cursor aliasGiven last) :
    ∃ after, after.cursor = last ∧ Yields (plainItem start afterValue) before
      (.plain (Text.stripQuotes (last.source
        ⟨start, Token.stopOf (max before.cursor.previous.stop start) tokens⟩)) aliasGiven) after := by
  let item : PlainItem := { stop := max before.cursor.previous.stop start, afterValue }
  obtain ⟨between, rfl, ran⟩ := @plainItemRounds_of_goes before item tokens _ goes passes ends
  exact ⟨{ between with cursor := last }, rfl, yields_plainItem.mpr ⟨item.behind tokens, between, _,
    aliasGiven, ran, covers, rfl, .inr ⟨@aliasName_behind item tokens goes.level some joined,
      (@stop_behind item tokens).symm, yields_scan.mpr ⟨last, aliased, rfl⟩⟩⟩⟩

end PlainItem

end AnalysisStep

end SelectRouting
