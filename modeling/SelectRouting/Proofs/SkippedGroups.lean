import SelectRouting.Proofs.ExpressionAnswers
import SelectRouting.Proofs.ExpressionEnds
import SelectRouting.Proofs.FailingRuns

/-!
# Two ways to pass a group

The arguments of a function are passed token by token with a look at each, other groups without one. The
two ways have the same outcome unless a subquery begins in the group, which only the first way finds
(`ExprStep.arguments_like_group`).
-/

namespace SelectRouting

namespace Token
variable {depth : Nat} {tokens rest : List Token}

/-- How far a group reaches that begins with the tokens: up to the parenthesis that closes it, or up to
the last token where none does. -/
inductive GroupReach (tokens : List Token) : List Token → Prop where
  | closed {group behind : List Token} : tokens = group ++ behind → IsGroup group →
      GroupReach tokens group
  | unclosed : (∀ group behind, tokens = group ++ behind → ¬ IsGroup group) → GroupReach tokens tokens

theorem exists_groupReach (tokens : List Token) : ∃ reach, GroupReach tokens reach := by
  by_cases closes : ∃ group behind, tokens = group ++ behind ∧ IsGroup group
  · obtain ⟨group, behind, split, isGroup⟩ := closes
    exact ⟨group, .closed split isGroup⟩
  · exact ⟨tokens, .unclosed fun group behind split isGroup => closes ⟨group, behind, split, isGroup⟩⟩

section Reach
variable {reach : List Token}

theorem GroupReach.exists_behind (reaches : GroupReach tokens reach) :
    ∃ behind, tokens = reach ++ behind := by
  cases reaches with
  | closed split _ => exact ⟨_, split⟩
  | unclosed => exact ⟨[], (List.append_nil _).symm⟩

/-- Nothing is reached behind a group. -/
theorem GroupReach.eq_nil_of_group {group more : List Token} (reaches : GroupReach tokens reach)
    (split : reach = group ++ more) (isGroup : IsGroup group) : more = [] := by
  cases reaches with
  | closed _ whole =>
    have overlap : reach ++ [] = group ++ more := by rw [List.append_nil, split]
    have same := whole.eq_of_append isGroup overlap
    rw [same] at split
    exact List.append_right_eq_self.mp split.symm
  | unclosed none => exact absurd isGroup (none group more split)

end Reach

/-- The tokens turn the `depth` parentheses that are open before them into those that are open behind
them, without closing all of them on the way. -/
inductive Leaves : Nat → List Token → Nat → Prop where
  | nil {depth : Nat} : Leaves depth [] depth
  | cons {depth following last : Nat} {token : Token} {tokens : List Token} :
      Turns depth token (.next following) → Leaves following tokens last →
        Leaves depth (token :: tokens) last

/-- A token takes its turn where parentheses are open, or where it opens the first one. -/
theorem exists_turns {token : Token} (opens : depth = 0 → token.kind = .symbol .leftParen) :
    ∃ answer, Turns depth token answer := by
  by_cases opening : token.kind = .symbol .leftParen
  · exact ⟨_, .opens opening⟩
  · obtain _ | outer := depth
    · exact absurd (opens rfl) opening
    · by_cases closing : token.kind = .symbol .rightParen
      · cases outer with
        | zero => exact ⟨_, .last closing⟩
        | succ outer => exact ⟨_, .closes closing⟩
      · exact ⟨_, .other opening closing⟩

/-- Tokens behind open parentheses close all of them at some place, or leave some open. -/
theorem closing_or_leaves (opens : depth = 0 → ∀ token ∈ tokens.head?, token.kind = .symbol .leftParen) :
    (∃ group behind, tokens = group ++ behind ∧ Closing depth group) ∨
      ∃ last, Leaves depth tokens last := by
  induction tokens generalizing depth with
  | nil => exact .inr ⟨depth, .nil⟩
  | cons token tokens ih =>
    obtain ⟨answer, turns⟩ := exists_turns fun outside => opens outside token rfl
    cases answer with
    | done => exact .inl ⟨[token], tokens, rfl, turns.closing_done⟩
    | next following =>
      rcases ih fun outside => absurd outside turns.following_ne_zero with
        ⟨group, behind, rfl, closing⟩ | ⟨last, leaves⟩
      · exact .inl ⟨token :: group, behind, rfl, turns.closing_next closing⟩
      · exact .inr ⟨last, .cons turns leaves⟩

/-- The first subquery stands behind tokens among which none begins. -/
theorem exists_first_subquery {opening : Token} {others : List Token}
    (first : subqueries tokens = opening :: others) :
    ∃ front select behind, tokens = front ++ opening :: select :: behind ∧
      opening.kind = .symbol .leftParen ∧ select.kind = .keyword .SELECT ∧
      subqueries (front ++ [opening]) = [] := by
  induction tokens with
  | nil => cases first
  | cons token tokens ih =>
    by_cases opens : token.kind = .symbol .leftParen ∧ frontKind tokens = .keyword .SELECT
    · obtain ⟨opens, selects⟩ := opens
      have own : subqueryBefore tokens token = [token] := by simp [subqueryBefore, opens, selects]
      rw [subqueries, own, List.singleton_append, List.cons.injEq] at first
      obtain ⟨rfl, _⟩ := first
      obtain ⟨select, behind, rfl⟩ := List.exists_cons_of_ne_nil (show tokens ≠ [] from fun none => by
        simp [none] at selects)
      exact ⟨[], select, behind, rfl, opens, selects, subqueries_of_length_le_one (by simp)⟩
    · have none : subqueryBefore tokens token = [] := by
        by_cases opening : token.kind = .symbol .leftParen
        · exact subqueryBefore_of_front (fun selects => opens ⟨opening, selects⟩) token
        · exact subqueryBefore_of_kind opening tokens
      rw [subqueries, none, List.nil_append] at first
      obtain ⟨front, select, behind, rfl, opening, selects, before⟩ := ih first
      refine ⟨token :: front, select, behind, rfl, opening, selects, ?_⟩
      rw [List.cons_append, subqueries, before, List.append_nil, ← none]
      cases front <;> rfl

end Token

namespace Scan
open Step Cursor
variable {before after : Cursor} {depth last : Nat} {tokens : List Token}

/-- Tokens that leave parentheses open are passed one by one. -/
theorem groupRounds_of_leaves (leaves : Token.Leaves depth tokens last)
    (passes : Passes before tokens after) (inside : ∀ token ∈ tokens, token.kind ≠ .endOfInput) :
    Reaches groupRound depth before last after := by
  induction leaves generalizing before with
  | nil =>
    obtain rfl := passes.unique (.refl before)
    exact .refl
  | @cons _ _ _ token _ turns _ ih =>
    obtain ⟨between, first, rest⟩ := passes.uncons
    exact .next (groupRound_answers turns first (inside token List.mem_cons_self))
      (ih rest fun other member => inside other (List.mem_cons_of_mem _ member))

theorem groupRound_fails (ends : before.kind = .endOfInput) :
    Fails (groupRound depth) before (before.unexpected .closingParen) before := by
  unfold groupRound
  rw [fails_look_bind, ends]
  exact fails_bind.mpr (.inl (fails_fail.mpr ⟨rfl, rfl⟩))

/-- The closing parenthesis of a group is missed at the end of the input. -/
theorem group_fails (opens : before.kind = .symbol .leftParen) (leaves : Token.Leaves 0 tokens last)
    (passes : Passes before tokens after) (inside : ∀ token ∈ tokens, token.kind ≠ .endOfInput)
    (ends : after.kind = .endOfInput) : Fails group before (after.unexpected .closingParen) after := by
  have reaches := groupRounds_of_leaves leaves passes inside
  have rounds := fails_rounding_of_reaches reaches (groupRound_fails ends) groupRound_shrinks
  unfold group
  rw [fails_look_bind, if_pos (at?_symbol.mpr opens), fails_look_bind]
  exact fails_bind.mpr (.inl rounds)

end Scan

namespace ExprStep
open Scan Step Cursor ExprState
variable {before : ExprState} {depth last : Nat} {tokens rest : List Token}

/-- Tokens that leave parentheses open are passed one by one where no subquery begins with one of
them. -/
theorem argumentsRounds_of_leaves (leaves : Token.Leaves depth tokens last)
    (stands : before.cursor.rest = tokens ++ rest) (lexed : Token.AreLexed before.cursor.rest)
    (noSubquery : Token.subqueries (tokens ++ rest.take 1) = []) :
    ∃ after, Reaches argumentsRound depth before last after ∧
      Passes before.cursor tokens after.cursor := by
  induction leaves generalizing before with
  | nil => exact ⟨before, .refl, .refl _⟩
  | @cons depth following last token tokens turns _ ih =>
    obtain ⟨none, noSubquery⟩ := List.append_eq_nil_iff.mp noSubquery
    have first : before.cursor.rest = [token] ++ (tokens ++ rest) := stands
    obtain ⟨between, crosses, behind⟩ := exists_crosses first lexed
      (Token.ownerBefore (tokens ++ rest) token)
    have goesOn : Yields (argumentsRound depth) before (.next following) between := by
      refine argumentsRound_answers turns (by rwa [behind]) ?_
      rw [behind, ← none]
      cases tokens
      · cases rest <;> rfl
      · rfl
    obtain ⟨after, reaches, passes⟩ := ih behind crosses.lexed_after noSubquery
    exact ⟨after, .next goesOn reaches, crosses.passes.trans passes⟩

theorem argumentsRound_fails (ends : before.cursor.kind = .endOfInput) :
    Fails (argumentsRound depth) before (before.cursor.unexpected .closingParen) before := by
  unfold argumentsRound
  rw [Step.fails_look_bind]
  simp only [id_eq, cursor_expr, ends]
  exact fails_onCursor.mpr ⟨_, fails_fail.mpr ⟨rfl, rfl⟩, rfl⟩

theorem argumentsRound_rejects {opening select : Token} (opens : opening.kind = .symbol .leftParen)
    (selects : select.kind = .keyword .SELECT) (stands : before.cursor.rest = opening :: select :: rest) :
    Fails (argumentsRound depth) before (.subquery opening.span) before := by
  have current := current_of_cons stands
  have subquery : before.cursor.opensSubquery = true := by
    rw [opensSubquery_iff, stands]
    exact selects
  unfold argumentsRound
  rw [Step.fails_look_bind]
  simp only [id_eq, cursor_expr, kind, current, opens, subquery]
  exact fails_bind.mpr (.inl (fails_throw.mpr ⟨rfl, rfl⟩))

/-- A list of tokens from the cursor on begins with the parenthesis that stands there. -/
theorem head_opens (opens : before.cursor.kind = .symbol .leftParen)
    (stands : before.cursor.rest = tokens ++ rest) :
    0 = 0 → ∀ token ∈ tokens.head?, token.kind = .symbol .leftParen := by
  intro _ token first
  obtain ⟨others, rfl⟩ := List.head?_eq_some_iff.mp first
  rw [← opens, kind, current_of_cons stands]

/-- The arguments of a function and any other group are passed alike, or they are not closed and missed
alike, where no subquery begins in them. Where one does, the arguments are rejected for the first. -/
theorem arguments_like_group (lexed : Token.AreLexed before.cursor.rest)
    (opens : before.cursor.kind = .symbol .leftParen) :
    (∃ reach, Token.GroupReach before.cursor.rest reach) ∧
      ∀ reach, Token.GroupReach before.cursor.rest reach →
        (Token.subqueries reach = [] → Token.IsGroup reach → ∃ after, Yields arguments before () after ∧
          Yields group before.cursor (before.cursor.source (Token.cover reach)) after.cursor ∧
          Passes before.cursor reach after.cursor) ∧
        (Token.subqueries reach = [] → ¬ Token.IsGroup reach → ∃ error after,
          Fails arguments before error after ∧ Fails group before.cursor error after.cursor) ∧
        ∀ opening others, Token.subqueries reach = opening :: others →
          ∃ after, Fails arguments before (.subquery opening.span) after := by
  refine ⟨Token.exists_groupReach _, fun reach reaches => ⟨fun none isGroup => ?_,
    fun none unclosed => ?_, fun opening others first => ?_⟩⟩
  · obtain ⟨behind, split⟩ := reaches.exists_behind
    obtain ⟨after, crosses, _⟩ := exists_crosses split lexed (Token.owners reach)
    exact ⟨after, arguments_answers isGroup crosses none,
      group_answers isGroup crosses.passes fun token member =>
        (crosses.lexed_tokens token member).kind_ne_endOfInput, crosses.passes⟩
  · cases reaches with
    | closed _ isGroup => exact absurd isGroup unclosed
    | unclosed noGroup =>
      rcases Token.closing_or_leaves (head_opens opens (List.append_nil _).symm) with
        ⟨group, behind, split, closing⟩ | ⟨last, leaves⟩
      · exact absurd closing (noGroup group behind split)
      · obtain ⟨after, argued, passes⟩ := argumentsRounds_of_leaves leaves
          (List.append_nil _).symm lexed (by rwa [List.take_nil, List.append_nil])
        have ended : after.cursor.rest = [] := by
          have split := passes.rest
          rwa [List.self_eq_append_right] at split
        have ends : after.cursor.kind = .endOfInput := by rw [kind_eq_frontKind, ended]; rfl
        refine ⟨_, after, fails_rounding_of_reaches argued (argumentsRound_fails ends)
          argumentsRound_shrinks, group_fails opens leaves passes ?_ ends⟩
        exact fun token member => (lexed token member).kind_ne_endOfInput
  · obtain ⟨front, select, behind, rfl, isOpening, selects, before⟩ := Token.exists_first_subquery first
    obtain ⟨others, split⟩ := reaches.exists_behind
    rw [List.append_assoc] at split
    rcases Token.closing_or_leaves (head_opens opens split) with
      ⟨group, more, rfl, closing⟩ | ⟨last, leaves⟩
    · have none := reaches.eq_nil_of_group (List.append_assoc _ _ _) closing
      simp at none
    · obtain ⟨after, argued, passes⟩ := argumentsRounds_of_leaves leaves split lexed (by simpa using before)
      have left := List.append_cancel_left (passes.rest.symm.trans split)
      exact ⟨after, fails_rounding_of_reaches argued (argumentsRound_rejects isOpening selects left)
        argumentsRound_shrinks⟩

/-- A point without a column behind it and a group inside of the group are passed alike. -/
theorem arguments_like_group_of_point :
    let text := "(t. ?, (1)) + 1"
    let before : ExprState := { cursor := { text, rest := Token.list text } }
    ∃ after, Yields arguments before () after ∧ Yields group before.cursor "(t. ?, (1))" after.cursor ∧
      after.cursor.parameters = 1 ∧ after.cursor.kind = .symbol .plus := by
  intro text before
  let reach : List Token := [⟨.symbol .leftParen, 0, "("⟩, ⟨.identifier "t", 1, "t"⟩,
    ⟨.symbol .dot, 2, "."⟩, ⟨.symbol .question, 4, "?"⟩, ⟨.symbol .comma, 5, ","⟩,
    ⟨.symbol .leftParen, 7, "("⟩, ⟨.integer 1, 8, "1"⟩, ⟨.symbol .rightParen, 9, ")"⟩,
    ⟨.symbol .rightParen, 10, ")"⟩]
  have split : before.cursor.rest = reach ++ [⟨.symbol .plus, 12, "+"⟩, ⟨.integer 1, 14, "1"⟩] := by
    decide +kernel
  have isGroup : Token.IsGroup reach :=
    .opens rfl <| .other nofun nofun <| .other nofun nofun <| .other nofun nofun <|
      .other nofun nofun <| .opens rfl <| .other nofun nofun <| .closes rfl <| .last rfl
  have opens : before.cursor.kind = .symbol .leftParen := by decide +kernel
  obtain ⟨after, argued, grouped, passes⟩ :=
    ((arguments_like_group (Token.areLexed_list text) opens).2 reach (.closed split isGroup)).1 rfl isGroup
  have counted : after.cursor.parameters = 1 := passes.parameters
  have left := List.append_cancel_left (passes.rest.symm.trans split)
  refine ⟨after, argued, ?_, counted, by rw [kind_eq_frontKind, left]; rfl⟩
  have quoted : before.cursor.source (Token.cover reach) = "(t. ?, (1))" := by decide +kernel
  rwa [quoted] at grouped

end ExprStep

end SelectRouting
