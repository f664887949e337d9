import Mathlib.Data.List.Forall2
import SelectRouting.Proofs.Respelling

/-!
# Pieces of text

A piece of text spells the same tokens wherever it stands before a character that goes on with no
token (`Token.Stands`). Words are such pieces, text that spelled valid tokens elsewhere is, and so is
what is put together from pieces with blanks, commas and points between them.
-/

namespace SelectRouting

namespace Token
open Text

/-- What a token is, wherever it stands. -/
def content (token : Token) : TokenKind × String :=
  (token.kind, token.lexeme)

theorem kind_eq_of_content {token other : Token} (same : token.content = other.content) :
    token.kind = other.kind :=
  congrArg Prod.fst same

/-- Whether tokens are valid does not depend on where they stand. -/
theorem valid_of_content {tokens others : List Token}
    (valid : ∀ token ∈ tokens, ∀ error, token.kind ≠ .invalid error)
    (same : others.map content = tokens.map content) :
    ∀ token ∈ others, ∀ error, token.kind ≠ .invalid error := by
  intro other member error invalid
  have among : other.content ∈ others.map content := List.mem_map_of_mem member
  rw [same] at among
  obtain ⟨token, inside, is⟩ := List.mem_map.mp among
  exact valid token inside error ((kind_eq_of_content is).trans invalid)

/-- What the tokens of a text are does not depend on where it begins. -/
theorem listFrom_content (offset offset' skip : Nat) (cs : List Char) :
    (listFrom offset skip cs).map content = (listFrom offset' skip cs).map content := by
  induction cs generalizing offset offset' skip with
  | nil => rw [listFrom, listFrom]
  | cons c cs ih =>
    cases skip with
    | succ skip => exact ih _ _ _
    | zero =>
      rw [listFrom, listFrom]
      split
      · exact ih _ _ _
      · exact congrArg (List.cons _) (ih _ _ _)

/-- No token goes on with the character. -/
def isBreak (d : Char) : Bool :=
  isDelimiter d && isInert d && d != '.'

/-- Before a character that goes on with no token, the text spells these tokens at their places. -/
structure Stands (text : List Char) (tokens : List Token) : Prop where
  spells (offset : Nat) {rest : List Char} : (∀ d ∈ rest.head?, isBreak d = true) →
    ∃ placed, Spells rest offset text placed ∧ placed.map content = tokens.map content

section Spells
variable {offset : Nat} {first second rest : List Char} {tokens others : List Token}

theorem Spells.append (left : Spells (second ++ rest) offset first tokens)
    (right : Spells rest (offset + width first) second others) :
    Spells rest offset (first ++ second) (tokens ++ others) := by
  induction left with
  | nil => simpa using right
  | @cons offset gap tail front c kind tokens trivia reads _ ih =>
    have later := ih (by simpa [Nat.add_assoc] using right)
    rw [← List.append_assoc front] at trivia reads
    simpa using Spells.cons trivia reads later

/-- A blank before a token belongs to its gap. -/
theorem Spells.blank {c : Char} (blank : isBlank c = true)
    (spells : Spells rest (offset + c.utf8Size) first tokens) (some : tokens ≠ []) :
    Spells rest offset (c :: first) tokens := by
  cases spells with
  | nil => exact absurd rfl some
  | @cons _ gap tail front d kind tokens trivia reads more =>
    have longer : Trivia.between.length ((c :: gap) ++ d :: (tail ++ (front ++ rest))) =
        (c :: gap).length := by
      rw [List.cons_append, Trivia.length, if_pos blank, trivia, List.length_cons]
    have moved : offset + c.utf8Size + width gap = offset + width (c :: gap) := by
      rw [width_cons]
      omega
    rw [moved] at more ⊢
    exact Spells.cons longer reads more

/-- A token that begins where the text begins. -/
theorem Spells.token {c : Char} {tail front : List Char} {kind : TokenKind}
    (noTrivia : Trivia.between.length (c :: (tail ++ (front ++ rest))) = 0)
    (reads : read c (tail ++ (front ++ rest)) = (kind, tail.length))
    (more : Spells rest (offset + width (c :: tail)) front tokens) :
    Spells rest offset (c :: (tail ++ front)) (⟨kind, offset, String.ofList (c :: tail)⟩ :: tokens) :=
  @Spells.cons rest offset [] tail front c kind tokens noTrivia reads more

end Spells

section Stands
variable {first second text rest : List Char} {tokens others : List Token}

theorem isBreak_iff {d : Char} :
    isBreak d = true ↔ isDelimiter d = true ∧ isInert d = true ∧ d ≠ '.' := by
  simp [isBreak, and_assoc]

/-- What stands before a break is read as it was before another text. -/
theorem Follows.of_break {made : Token → String} {routed : Token → Bool} {offset : Nat}
    {rest rest' : List Char} (breaks : ∀ d ∈ rest'.head?, isBreak d = true) :
    Follows made routed offset [] rest rest' where
  steady _ := by
    refine ⟨.inr fun d first => (isBreak_iff.mp (breaks d first)).2.1, .of_delimiter fun d first => ?_⟩
    exact ⟨(isBreak_iff.mp (breaks d first)).1, (isBreak_iff.mp (breaks d first)).2.2⟩
  touches := by simp
  delimits _ d first := (isBreak_iff.mp (breaks d first)).1

/-- Text that spells tokens, which are valid if nothing stands behind it, spells them also before
another text that goes on with none of them. -/
theorem Spells.kept {rest rest' : List Char} {offset : Nat} {next : List Token}
    (spells : Spells rest offset text tokens)
    (valid : rest = [] → ∀ token ∈ tokens, ∀ error, token.kind ≠ .invalid error)
    (ends : Follows lexeme (fun _ => false) (offset + width text) next rest rest') :
    Spells rest' offset text tokens ∧
      Follows lexeme (fun _ => false) offset (tokens ++ next) (text ++ rest) (text ++ rest') := by
  induction spells with
  | nil => exact ⟨.nil, ends⟩
  | @cons offset gap tail front c kind tokens trivia reads _ ih =>
    have stop : offset + width (gap ++ c :: (tail ++ front)) =
        offset + width gap + width (c :: tail) + width front := by
      simp only [width_append, width_cons]
      omega
    obtain ⟨later, follows⟩ :=
      ih (fun none token member => valid none token (List.mem_cons_of_mem _ member)) (stop ▸ ends)
    have noTrivia := Trivia.length_behind (by simp) trivia
    obtain ⟨noTrivia', reads', boundary⟩ := follows.kept noTrivia reads
      (fun none => valid (List.append_eq_nil_iff.mp none).2 _ List.mem_cons_self) (by simp)
    refine ⟨.cons (Trivia.length_before (by simp) trivia noTrivia') reads' later, ?_⟩
    have behind := @Follows.behind_gap lexeme (fun _ => false) offset
      (⟨kind, offset + width gap, String.ofList (c :: tail)⟩ :: (tokens ++ next))
      (c :: (tail ++ (front ++ rest))) (c :: (tail ++ (front ++ rest'))) gap trivia (by simp) (by
        rintro rfl
        exact .of_touching (by simp) String.toList_ofList fun _ => ⟨rfl, boundary⟩)
    simpa using behind

/-- Text that spells valid tokens spells them also before another text that goes on with none of
them. -/
theorem Spells.again {rest rest' : List Char} {offset : Nat} (spells : Spells rest offset text tokens)
    (valid : ∀ token ∈ tokens, ∀ error, token.kind ≠ .invalid error)
    (ends : ∀ offset, Follows lexeme (fun _ => false) offset [] rest rest') :
    Spells rest' offset text tokens ∧
      Follows lexeme (fun _ => false) offset tokens (text ++ rest) (text ++ rest') := by
  simpa using spells.kept (fun _ => valid) (ends _)

/-- Text spells the same tokens at another offset. -/
theorem Spells.moved {offset : Nat} (spells : Spells rest offset text tokens) (start : Nat) :
    ∃ placed, Spells rest start text placed ∧ placed.map content = tokens.map content := by
  induction spells generalizing start with
  | nil => exact ⟨[], .nil, rfl⟩
  | @cons offset gap tail front c kind tokens trivia reads _ ih =>
    obtain ⟨placed, later, same⟩ := ih (start + width gap + width (c :: tail))
    exact ⟨_, .cons trivia reads later, by rw [List.map_cons, same]; rfl⟩

theorem Spells.before {rest rest' : List Char} {offset : Nat} (spells : Spells rest offset text tokens)
    (valid : ∀ token ∈ tokens, ∀ error, token.kind ≠ .invalid error)
    (ends : ∀ offset, Follows lexeme (fun _ => false) offset [] rest rest') (start : Nat) :
    ∃ placed, Spells rest' start text placed ∧ placed.map content = tokens.map content :=
  (spells.again valid ends).1.moved start

/-- Text that spells valid tokens somewhere stands. -/
theorem Stands.of_spells {rest : List Char} {offset : Nat} (spells : Spells rest offset text tokens)
    (valid : ∀ token ∈ tokens, ∀ error, token.kind ≠ .invalid error) : Stands text tokens where
  spells start {_} breaks := spells.before valid (fun _ => .of_break breaks) start

theorem Stands.nil : Stands [] [] where
  spells _ _ _ := ⟨[], .nil, rfl⟩

/-- A piece stands before another one that begins with a break. -/
theorem Stands.append (left : Stands first tokens) (right : Stands second others)
    (breaks : ∀ d ∈ second.head?, isBreak d = true) (some : second ≠ []) :
    Stands (first ++ second) (tokens ++ others) where
  spells offset {rest} ends := by
    have behind : ∀ d ∈ (second ++ rest).head?, isBreak d = true := by
      rwa [List.head?_append_of_ne_nil _ some]
    obtain ⟨placed, one, same⟩ := left.spells offset behind
    obtain ⟨more, two, sameMore⟩ := right.spells (offset + width first) ends
    exact ⟨placed ++ more, one.append two, by rw [List.map_append, same, sameMore, List.map_append]⟩

theorem Stands.blank (stands : Stands text tokens) (some : tokens ≠ []) :
    Stands (' ' :: text) tokens where
  spells offset {rest} ends := by
    obtain ⟨placed, spells, same⟩ := stands.spells (offset + ' '.utf8Size) ends
    refine ⟨placed, spells.blank (by decide) ?_, same⟩
    rintro rfl
    exact some (List.map_eq_nil_iff.mp same.symm)

/-- A symbol that is read alone before any text stands before a piece. -/
theorem Stands.symbol {c : Char} {mark : Symbol} (stands : Stands text tokens)
    (single : ∀ cs, Trivia.between.length (c :: cs) = 0 ∧ read c cs = (.symbol mark, 0)) :
    Stands (c :: text) (⟨.symbol mark, 0, String.ofList [c]⟩ :: tokens) where
  spells offset {rest} ends := by
    obtain ⟨placed, spells, same⟩ := stands.spells (offset + width [c]) ends
    refine ⟨_, @Spells.token _ _ _ c [] text _ (single _).1 (single _).2 spells, ?_⟩
    rw [List.map_cons, same]
    rfl

/-- A word stands, also before a point. -/
theorem Spells.word {word : String} {offset : Nat} {front rest : List Char} (isWord : IsWord word)
    (ends : ∀ d ∈ (front ++ rest).head?, isDelimiter d = true)
    (spells : Spells rest (offset + width word.toList) front tokens) :
    Spells rest offset (word.toList ++ front) (⟨wordKind word, offset, word⟩ :: tokens) := by
  obtain ⟨c, tail, chars, start, word_tail⟩ := isWord
  have same : word = String.ofList (c :: tail) := by rw [← chars, String.ofList_toList]
  rw [chars] at spells ⊢
  have token := Spells.token (noTrivia_of_isStart start _) (read_word start word_tail ends) spells
  rw [← same] at token
  exact token

theorem Stands.word {word : String} (isWord : IsWord word) :
    Stands word.toList [⟨wordKind word, 0, word⟩] where
  spells offset {rest} ends := by
    have spells := @Spells.word [] word offset [] rest isWord
      (fun d first => (isBreak_iff.mp (ends d first)).1) .nil
    rw [List.append_nil] at spells
    exact ⟨_, spells, rfl⟩

theorem read_point (cs : List Char) :
    Trivia.between.length ('.' :: cs) = 0 ∧ read '.' cs = (.symbol .dot, 0) := by
  refine ⟨noTrivia_iff.mpr ⟨by decide, nofun, nofun⟩, ?_⟩
  have noDouble : cs.head?.bind (Symbol.double? '.') = none :=
    Option.bind_eq_none_iff.mpr fun _ _ => rfl
  rw [read, noDouble]
  rfl

theorem read_comma (cs : List Char) :
    Trivia.between.length (',' :: cs) = 0 ∧ read ',' cs = (.symbol .comma, 0) := by
  refine ⟨noTrivia_iff.mpr ⟨by decide, nofun, nofun⟩, ?_⟩
  have noDouble : cs.head?.bind (Symbol.double? ',') = none :=
    Option.bind_eq_none_iff.mpr fun _ _ => rfl
  rw [read, noDouble]
  rfl

/-- A word with a point behind it stands before a piece. -/
theorem Stands.owner {word : String} (isWord : IsWord word) (stands : Stands text tokens) :
    Stands (word.toList ++ '.' :: text)
      (⟨wordKind word, 0, word⟩ :: ⟨.symbol .dot, 0, "."⟩ :: tokens) where
  spells offset {rest} ends := by
    obtain ⟨placed, spells, same⟩ :=
      (stands.symbol read_point).spells (offset + width word.toList) ends
    refine ⟨_, .word isWord (by simp; decide) spells, ?_⟩
    rw [List.map_cons, same]
    rfl

/-- A text that stands has the tokens that it spells. -/
theorem Stands.list_eq {text : String} (stands : Stands text.toList tokens) :
    (list text).map content = tokens.map content := by
  obtain ⟨placed, spells, same⟩ := @Stands.spells _ _ stands 0 [] (by simp)
  have whole := spells.listFrom_append
  rw [List.append_nil] at whole
  rw [list, whole, listFrom, List.append_nil, same]

theorem Stands.of_content (stands : Stands text tokens)
    (same : tokens.map content = others.map content) : Stands text others where
  spells offset _ ends := by
    obtain ⟨placed, spells, is⟩ := stands.spells offset ends
    exact ⟨placed, spells, is.trans same⟩

end Stands

end Token

end SelectRouting
