import SelectRouting.Proofs.ClausePassage

/-!
# What the last clauses pass

The readers of row limits and locking reads pass tokens of the language that the dialect has behind
`ORDER BY` (`AnalysisStep.trailingClauses_closes`), and record nothing that names a table.
-/

namespace SelectRouting

/-- The cursor moves over tokens of the language. -/
def Cursor.PassesClosing (language : Language Token) (before after : Cursor) : Prop :=
  ∃ tokens ∈ language, Moves before tokens after

namespace Cursor

theorem PassesClosing.refl (cursor : Cursor) : PassesClosing 1 cursor cursor :=
  ⟨[], Language.nil_mem_one, .refl cursor⟩

section Languages
variable {first second third : Cursor} {language other : Language Token}

theorem PassesClosing.trans (left : PassesClosing language first second)
    (right : PassesClosing other second third) : PassesClosing (language * other) first third := by
  obtain ⟨one, among, moves⟩ := left
  obtain ⟨two, amongMore, more⟩ := right
  exact ⟨one ++ two, Language.append_mem_mul among amongMore, moves.trans more⟩

theorem PassesClosing.mono (passes : PassesClosing language first second)
    (within : ∀ tokens ∈ language, tokens ∈ other) : PassesClosing other first second := by
  obtain ⟨tokens, among, moves⟩ := passes
  exact ⟨tokens, within tokens among, moves⟩

/-- What may be missing is missing. -/
theorem PassesClosing.missing (passes : PassesClosing 1 first second) :
    PassesClosing (1 + language) first second :=
  passes.mono fun _ among => .inl among

/-- What may be missing stands there. -/
theorem PassesClosing.standing (passes : PassesClosing language first second) :
    PassesClosing (1 + language) first second :=
  passes.mono fun _ among => .inr among

theorem PassesClosing.optional {answer : Bool}
    (passes : PassesClosing (if answer then language else 1) first second) :
    PassesClosing (1 + language) first second := by
  cases answer with
  | true => exact passes.standing
  | false => exact passes.missing

end Languages

end Cursor

namespace Scan
open Step Cursor
open scoped Computability

variable {before after : Cursor}

theorem skipAnyKeyword_closing {words : List Keyword} {answer : Bool}
    (answers : Yields (skipAnyKeyword words) before answer after) :
    PassesClosing (if answer then Closing.word words else 1) before after := by
  rcases skipAnyKeyword_cases answers with ⟨rfl, word, among, token, is, passes⟩ | ⟨rfl, _, rfl⟩
  · exact ⟨[token], ⟨token, rfl, word, among, is⟩, passes.toMoves⟩
  · exact .refl _

theorem skipKeyword_closing {word : Keyword} {answer : Bool}
    (answers : Yields (skipKeyword word) before answer after) :
    PassesClosing (if answer then Closing.word [word] else 1) before after :=
  skipAnyKeyword_closing answers

theorem skipMark_closing {sign : Symbol} (uncounted : sign ≠ .question) {answer : Bool}
    (answers : Yields (skipSymbol sign) before answer after) :
    PassesClosing (if answer then Closing.mark sign else 1) before after := by
  rcases skipSymbol_cases answers uncounted with ⟨rfl, token, is, passes⟩ | ⟨rfl, _, rfl⟩
  · exact ⟨[token], ⟨token, rfl, is⟩, passes.toMoves⟩
  · exact .refl _

/-- An operand of a row limit is a number or a placeholder. -/
theorem limitValue_closing {answer : LimitValue}
    (answers : Yields limitValue before answer after) :
    PassesClosing Closing.rowCount before after := by
  unfold limitValue at answers
  rw [yields_look_bind] at answers
  split at answers
  · next value named =>
    rw [yields_advance_bind, yields_pure] at answers
    obtain ⟨_, rfl⟩ := answers
    obtain ⟨token, is, _, passes⟩ := passes_advance named (by simp) (by simp)
    exact ⟨[token], ⟨token, rfl, .inl ⟨value, is⟩⟩, passes.toMoves⟩
  · obtain ⟨_, _, counted, rest⟩ := yields_bind.mp answers
    obtain ⟨_, rfl⟩ := yields_pure.mp rest
    obtain ⟨_, token, is, passes⟩ := parameter_passes counted
    exact ⟨[token], ⟨token, rfl, .inr is⟩, passes.toMoves⟩
  · exact absurd answers not_yields_fail

/-- A word that is required is passed. -/
theorem expectWord_closing {word : String} {answer : Unit} (some : word.toList ≠ [])
    (answers : Yields (expectWord word) before answer after) :
    PassesClosing (Closing.spelled word) before after := by
  obtain ⟨found, between, first, rest⟩ := yields_bind.mp answers
  rcases yields_skipWhen.mp first with ⟨stands, rfl, rfl⟩ | ⟨_, rfl, rfl⟩
  · obtain ⟨_, rfl⟩ := yields_pure.mp rest
    obtain ⟨token, others, tokens, _, spelled⟩ := exists_word stands some
    exact ⟨[token], ⟨token, rfl, spelled⟩, moves_advance tokens⟩
  · exact absurd rest not_yields_fail

/-- Behind the row count of a limit the offset stands behind a comma or `OFFSET`, or is missing. -/
theorem limitOffset_closing {first : LimitValue} {answer : Option Limit}
    (answers : Yields (do
      if ← skipSymbol .comma then
        return some { offset := some first, rowCount := some (← limitValue) }
      else if ← skipKeyword .OFFSET then
        return some { offset := some (← limitValue), rowCount := some first }
      else return some { rowCount := some first } : Scan (Option Limit)) before answer after) :
    PassesClosing (1 + Closing.mark .comma * Closing.rowCount +
      Closing.word [.OFFSET] * Closing.rowCount) before after := by
  obtain ⟨found, _, comma, rest⟩ := yields_bind.mp answers
  have skipped := skipMark_closing (by simp) comma
  rcases yields_ite.mp rest with ⟨rfl, rest⟩ | ⟨no, rest⟩
  · obtain ⟨_, _, second, rest⟩ := yields_bind.mp rest
    obtain ⟨_, rfl⟩ := yields_pure.mp rest
    exact (skipped.trans (limitValue_closing second)).mono fun _ member => .inl (.inr member)
  · rw [if_neg no] at skipped
    obtain ⟨found, _, word, rest⟩ := yields_bind.mp rest
    have more := skipped.trans (skipKeyword_closing word)
    rw [one_mul] at more
    rcases yields_ite.mp rest with ⟨rfl, rest⟩ | ⟨no, rest⟩
    · obtain ⟨_, _, second, rest⟩ := yields_bind.mp rest
      obtain ⟨_, rfl⟩ := yields_pure.mp rest
      exact (more.trans (limitValue_closing second)).mono fun _ among => .inr among
    · obtain ⟨_, rfl⟩ := yields_pure.mp rest
      rw [if_neg no] at more
      exact more.mono fun _ member => .inl (.inl member)

/-- A row limit is passed. -/
theorem limitClause_closing {answer : Option Limit}
    (answers : Yields limitClause before answer after) :
    PassesClosing (1 + Closing.limit) before after := by
  obtain ⟨found, between, first, rest⟩ := yields_bind.mp answers
  have word := skipKeyword_closing first
  rcases yields_ite.mp rest with ⟨rfl, rest⟩ | ⟨no, rest⟩
  · obtain ⟨_, _, value, rest⟩ := yields_bind.mp rest
    exact (word.trans ((limitValue_closing value).trans (limitOffset_closing rest))).standing
  · rw [if_neg no] at word
    obtain ⟨_, rfl⟩ := yields_pure.mp rest
    exact word.missing

/-- A locking read is passed. -/
theorem lockingRead_closing {answer : Unit} (answers : Yields lockingRead before answer after) :
    PassesClosing (1 + Closing.locking) before after := by
  obtain ⟨found, _, first, rest⟩ := yields_bind.mp answers
  have skipped := skipKeyword_closing first
  rcases yields_ite.mp rest with ⟨rfl, rest⟩ | ⟨no, rest⟩
  · exact (skipped.trans (expectWord_closing (by decide) rest)).mono fun _ member =>
      .inr (.inl member)
  · rw [if_neg no] at skipped
    obtain ⟨found, _, second, rest⟩ := yields_bind.mp rest
    have more := skipped.trans (skipKeyword_closing second)
    rw [one_mul] at more
    rcases yields_ite.mp rest with ⟨rfl, rest⟩ | ⟨no, rest⟩
    · obtain ⟨_, _, one, rest⟩ := yields_bind.mp rest
      obtain ⟨_, _, two, three⟩ := yields_bind.mp rest
      have words := (expectWord_closing (by decide) one).trans
        ((expectWord_closing (by decide) two).trans (expectWord_closing (by decide) three))
      exact (more.trans words).mono fun _ member => .inr (.inr member)
    · obtain ⟨_, rfl⟩ := yields_pure.mp rest
      rw [if_neg no] at more
      exact more.missing

/-- One of the clauses `LIMIT` and `OFFSET` is passed, or nothing at the end. -/
theorem limitRound_closing {limit : Option Limit} {answer : Round (Option Limit) (Option Limit)}
    (answers : Yields (limitRound limit) before answer after) :
    PassesClosing (match answer with | .next _ => Closing.limitOrOffset | .done _ => 1)
      before after := by
  obtain ⟨found, _, first, rest⟩ := yields_bind.mp answers
  have skipped := skipKeyword_closing first
  rcases yields_ite.mp rest with ⟨rfl, rest⟩ | ⟨no, rest⟩
  · obtain ⟨found, _, second, rest⟩ := yields_bind.mp rest
    have all := skipKeyword_closing second
    have limited {last : Cursor}
        (operand : PassesClosing (Closing.word [.ALL] + Closing.rowCount) _ last) :
        PassesClosing Closing.limitOrOffset before last :=
      (skipped.trans operand).mono fun _ among => .inl among
    rcases yields_ite.mp rest with ⟨rfl, rest⟩ | ⟨no, rest⟩
    · obtain ⟨rfl, rfl⟩ := yields_pure.mp rest
      exact limited (all.mono fun _ => .inl)
    · rw [if_neg no] at all
      obtain ⟨_, _, value, rest⟩ := yields_bind.mp rest
      obtain ⟨rfl, rfl⟩ := yields_pure.mp rest
      obtain ⟨_, value, _⟩ := yields_map.mp value
      have operand := all.trans (limitValue_closing value)
      rw [one_mul] at operand
      exact limited (operand.mono fun _ among => .inr among)
  · rw [if_neg no] at skipped
    obtain ⟨found, _, second, rest⟩ := yields_bind.mp rest
    have more := skipped.trans (skipKeyword_closing second)
    rw [one_mul] at more
    rcases yields_ite.mp rest with ⟨rfl, rest⟩ | ⟨no, rest⟩
    · obtain ⟨_, _, value, rest⟩ := yields_bind.mp rest
      obtain ⟨_, _, words, rest⟩ := yields_bind.mp rest
      obtain ⟨rfl, rfl⟩ := yields_pure.mp rest
      have rows := (skipAnyKeyword_closing words).optional
      exact (more.trans ((limitValue_closing value).trans rows)).mono fun _ among => .inr among
    · obtain ⟨rfl, rfl⟩ := yields_pure.mp rest
      rw [if_neg no] at more
      exact more

/-- The clauses `LIMIT` and `OFFSET` are passed. -/
theorem limitClauses_closing {answer : Option Limit}
    (answers : Yields limitClauses before answer after) :
    PassesClosing Closing.limitOrOffset∗ before after := by
  have ran : Rounds limitRound none before answer after := rounds_of_rounding answers
  clear answers
  generalize (none : Option Limit) = limit at ran
  induction ran with
  | done answers =>
    have ended : PassesClosing 1 _ _ := limitRound_closing answers
    rw [← Language.one_add_self_mul_kstar_eq_kstar]
    exact ended.missing
  | next answers _ ih =>
    have passes := (limitRound_closing answers).trans ih
    rw [← Language.one_add_self_mul_kstar_eq_kstar]
    exact passes.standing

end Scan

/-- The reader passes tokens of the language and records nothing. -/
def Analysis.Closes (language : Language Token) (before after : Analysis) : Prop :=
  ∃ tokens ∈ language, Reads before tokens [] [] after

namespace Analysis

theorem Closes.move {language : Language Token} {before : Analysis} {cursor : Cursor}
    (passes : Cursor.PassesClosing language before.cursor cursor) :
    Closes language before { before with cursor } := by
  obtain ⟨tokens, among, moves⟩ := passes
  exact ⟨tokens, among, .move moves⟩

theorem Closes.trans {first second third : Analysis} {language other : Language Token}
    (left : Closes language first second) (right : Closes other second third) :
    Closes (language * other) first third := by
  obtain ⟨one, among, reads⟩ := left
  obtain ⟨two, amongMore, more⟩ := right
  exact ⟨one ++ two, Language.append_mem_mul among amongMore, reads.trans more⟩

end Analysis

namespace AnalysisStep
open Scan Step Cursor Analysis

variable {before after : Analysis}

/-- A row limit is recorded without a move. -/
theorem setLimit_closes {limit : Option Limit} {answer : Unit}
    (answers : Yields (setLimit limit) before answer after) : Closes 1 before after := by
  cases limit with
  | none =>
    obtain ⟨_, rfl⟩ := yields_pure.mp answers
    exact ⟨[], Language.nil_mem_one, .refl _⟩
  | some limit =>
    unfold setLimit at answers
    obtain rfl := yields_change.mp answers
    exact ⟨[], Language.nil_mem_one, .refl _, by simp, by simp, rfl⟩

/-- The clauses that a dialect allows behind `ORDER BY` are passed. -/
theorem trailingClauses_closes {dialect : Dialect} {answer : Unit}
    (answers : Yields (trailingClauses dialect) before answer after) :
    Closes (Closing.trailing dialect.trailing) before after := by
  unfold trailingClauses at answers
  split at answers
  · next none =>
    obtain ⟨_, rfl⟩ := yields_pure.mp answers
    rw [none]
    exact ⟨[], Language.nil_mem_one, .refl _⟩
  · next locking =>
    obtain ⟨_, _, first, rest⟩ := yields_bind.mp answers
    obtain ⟨_, _, second, last⟩ := yields_bind.mp rest
    obtain ⟨_, limit, rfl⟩ := yields_scan.mp first
    obtain ⟨_, locks, rfl⟩ := yields_scan.mp last
    have clauses := ((Closes.move (limitClause_closing limit)).trans (setLimit_closes second)).trans
      (.move (lockingRead_closing locks))
    rw [mul_one] at clauses
    rw [locking]
    exact clauses
  · next either =>
    obtain ⟨_, _, first, rest⟩ := yields_bind.mp answers
    obtain ⟨_, limit, rfl⟩ := yields_scan.mp first
    have clauses := (Closes.move (limitClauses_closing limit)).trans (setLimit_closes rest)
    rw [mul_one] at clauses
    rw [either]
    exact clauses

end AnalysisStep

end SelectRouting
