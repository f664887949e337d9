import SelectRouting.Cursor

/-!
# Steps of an analysis

A step reads and changes a state that contains a cursor, and answers or fails. The state that a
failing step leaves is kept, since what it consumed before it failed can be observed.

The repetition at the end is the only loop of the clause readers. A round that goes on has consumed
a token, so the tokens that are left when the repetition begins bound the number of rounds.
-/

namespace SelectRouting

/-- A step over a state: an answer or an error, and the state that is left in either case. -/
abbrev Step (σ : Type) := ExceptT ParseError (StateM σ)

/-- A step that reads tokens and nothing else. -/
abbrev Scan := Step Cursor

/-- A state with a cursor in it. -/
class HasCursor (σ : Type) where
  cursor : σ → Cursor
  setCursor : Cursor → σ → σ

instance : HasCursor Cursor where
  cursor := id
  setCursor cursor _ := cursor

namespace Step
variable {σ α β γ : Type} [HasCursor σ]

/-- The step run on the cursor of a larger state. -/
def onCursor (scan : Scan α) : Step σ α := fun state =>
  let (answer, cursor) := scan (HasCursor.cursor state)
  (answer, HasCursor.setCursor cursor state)

instance : MonadLift Scan (Step σ) := ⟨onCursor⟩

end Step

namespace Scan

/-- The value of a property of the cursor. -/
def look {α : Type} (property : Cursor → α) : Scan α :=
  return property (← get)

/-- Passes the current token. -/
def advance : Scan Unit :=
  modify Cursor.advance

/-- Fails at the current token. -/
def fail {α : Type} (expected : Expectation) : Scan α := do
  throw ((← get).unexpected expected)

/-- Passes the current token when the cursor has the property, and says whether it did. -/
def skipWhen (property : Cursor → Bool) : Scan Bool := do
  if ← look property then
    advance
    return true
  else return false

/-- Passes a token of the same shape as `kind`, if one stands here. -/
def skipKind (kind : TokenKind) : Scan Bool :=
  skipWhen (·.at? kind)

/-- Passes a symbol, if it stands here. -/
def skipSymbol (mark : Symbol) : Scan Bool :=
  skipKind (.symbol mark)

/-- Passes one of the keywords, if one stands here. -/
def skipAnyKeyword (words : List Keyword) : Scan Bool :=
  skipWhen (·.atKeyword? words)

/-- Passes a keyword, if it stands here. -/
def skipKeyword (word : Keyword) : Scan Bool :=
  skipAnyKeyword [word]

/-- Passes a token of the same shape as `kind`, which is required. -/
def expect (kind : TokenKind) : Scan Unit := do
  unless ← skipKind kind do fail (.kind kind)

/-- Passes a symbol, which is required. -/
def expectSymbol (mark : Symbol) : Scan Unit :=
  expect (.symbol mark)

/-- Passes a keyword, which is required. -/
def expectKeyword (word : Keyword) : Scan Unit := do
  unless ← skipKeyword word do fail (.keyword word)

end Scan

/-- How a round of a repetition ends: with another round from `next`, or with an answer. -/
inductive Round (β γ : Type) where
  | next (next : β)
  | done (answer : γ)

namespace Step
variable {σ α β γ : Type} [HasCursor σ]

/-- At most `limit` rounds. -/
def rounds (body : β → Step σ (Round β γ)) : (limit : Nat) → β → Step σ γ
  | 0, _ => onCursor (Scan.fail .endOfStatement)
  | limit + 1, start => do
    match ← body start with
    | .next next => rounds body limit next
    | .done answer => return answer

/-- Rounds of `body`, from `start` on, up to the one that has an answer. The last round may leave
the cursor where it is, hence one round more than there are tokens. -/
def rounding (body : β → Step σ (Round β γ)) (start : β) : Step σ γ := do
  let left ← onCursor (Scan.look (·.rest.length))
  rounds body (left + 1) start

/-- Rounds of a body that says whether to go on. -/
def whileTrue (body : Step σ Bool) : Step σ Unit :=
  rounding (fun _ => do return if ← body then .next () else .done ()) ()

end Step

end SelectRouting
