import SelectRouting.Proofs.Pieces

/-!
# Tokens with blanks between them

What a token is depends on nothing beside it: each token of a text without errors is read alone as it
is read there, and so are all of them when they are written one behind the other with a single blank
between two. That text has the tokens of the first one and no layout of its own
(`Token.tokenize_spaced`).
-/

namespace SelectRouting

namespace Token
open Text

/-- The tokens as they are written, with a blank between two. -/
def spaced (tokens : List Token) : String :=
  " ".intercalate (tokens.map lexeme)

section Spaced
variable {offset : Nat} {front rest : List Char} {token next : Token} {tokens : List Token}

theorem toList_spaced_single : (spaced [token]).toList = token.lexeme.toList := by
  simp [spaced]

theorem toList_spaced_cons : (spaced (token :: next :: tokens)).toList =
    token.lexeme.toList ++ ' ' :: (spaced (next :: tokens)).toList := by
  simp [spaced, String.toList_intercalate]

/-- A token that is spelled somewhere stands alone. -/
theorem Spells.stands_lexeme (spells : Spells rest offset front tokens)
    (valid : ∀ token ∈ tokens, ∀ error, token.kind ≠ .invalid error) (member : token ∈ tokens) :
    Stands token.lexeme.toList [token] := by
  induction spells with
  | nil => cases member
  | @cons offset gap tail front c kind tokens trivia reads _ ih =>
    rcases List.mem_cons.mp member with rfl | later
    · have noTrivia := Trivia.length_behind (by simp) trivia
      have alone := @Spells.token (offset + width gap) (front ++ rest) [] c tail [] kind noTrivia reads
        .nil
      rw [List.append_nil] at alone
      change Stands (String.ofList (c :: tail)).toList _
      rw [String.toList_ofList]
      apply Stands.of_spells alone
      intro other inside
      rw [List.mem_singleton.mp inside]
      exact valid _ List.mem_cons_self
    · exact ih (fun token member => valid token (List.mem_cons_of_mem _ member)) later

/-- Tokens that stand alone stand with a blank between two. -/
theorem stands_spaced (alone : ∀ token ∈ tokens, Stands token.lexeme.toList [token]) :
    Stands (spaced tokens).toList tokens := by
  induction tokens with
  | nil => exact .nil
  | cons token tokens ih =>
    have first := alone token List.mem_cons_self
    cases tokens with
    | nil =>
      rw [toList_spaced_single]
      exact first
    | cons next tokens =>
      have later := ih fun other member => alone other (List.mem_cons_of_mem _ member)
      rw [toList_spaced_cons]
      have blank := later.blank (List.cons_ne_nil _ _)
      refine first.append blank ?_ (List.cons_ne_nil _ _)
      intro d begins
      obtain rfl := Option.some.inj begins
      decide

end Spaced

/-- **Tokens do not depend on their layout.** In a text without errors each token is read alone as it
is read there, and the text in which all of them stand in their order with a single blank between two
has the same tokens: the same kinds, written the same. -/
theorem tokenize_spaced {text : String}
    (valid : ∀ token ∈ tokenize text, ∀ error, token.kind ≠ .invalid error) :
    (∀ token ∈ list text, tokenize token.lexeme =
      [⟨token.kind, 0, token.lexeme⟩, eof token.lexeme.utf8ByteSize]) ∧
      (tokenize (spaced (list text))).map content = (tokenize text).map content := by
  have validTokens : ∀ token ∈ list text, ∀ error, token.kind ≠ .invalid error :=
    fun token member => valid token (List.mem_append_left _ member)
  obtain ⟨front, rest, _, spells, _⟩ :=
    exists_spells (List.append_nil (list text)).symm
  constructor
  · intro token member
    rw [tokenize, spells.list_lexeme validTokens member]
    rfl
  · have stands := stands_spaced fun token member => spells.stands_lexeme validTokens member
    rw [tokenize, tokenize, List.map_append, List.map_append, stands.list_eq]
    rfl

/-- Two hyphens that a comment keeps apart, and a blob and a string that touch what stands beside
them. -/
theorem tokenize_spaced_of_comment :
    let text := "a.b-/**/-x'0A'--\n<>'it''s'"
    (∀ token ∈ tokenize text, ∀ error, token.kind ≠ .invalid error) ∧
      spaced (list text) = "a . b - - x'0A' <> 'it''s'" ∧
      (tokenize "a . b - - x'0A' <> 'it''s'").map content = (tokenize text).map content := by
  intro text
  have kinds : (tokenize text).map kind = [.identifier "a", .symbol .dot, .identifier "b",
      .symbol .minus, .symbol .minus, .blob [10], .symbol .notEq, .string "it's", .endOfInput] := by
    decide +kernel
  have valid : ∀ token ∈ tokenize text, ∀ error, token.kind ≠ .invalid error := by
    intro token member error invalid
    have among : token.kind ∈ (tokenize text).map kind := List.mem_map_of_mem member
    rw [kinds, invalid] at among
    simp at among
  have written : spaced (list text) = "a . b - - x'0A' <> 'it''s'" := by
    decide +kernel
  have same := (tokenize_spaced valid).2
  rw [written] at same
  exact ⟨valid, written, same⟩

end Token

end SelectRouting
