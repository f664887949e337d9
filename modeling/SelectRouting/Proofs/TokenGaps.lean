import SelectRouting.Proofs.Spelling
import SelectRouting.Proofs.TokenNumbers

/-!
# Gaps between tokens

The tokens of a text and the gaps between them tile it: each byte belongs to one token or one gap,
whatever the text is, and a gap is trivia also without the text around it (`Token.tokens_tile`).
-/

namespace SelectRouting

/-- The byte at `place` is one of the span. -/
def Span.covers (span : Span) (place : Nat) : Bool :=
  span.start ≤ place && place < span.stop

section Covers
variable {span : Span} {place : Nat}

theorem Span.covers_iff : span.covers place = true ↔ span.start ≤ place ∧ place < span.stop := by
  simp [covers]

theorem Span.not_covers_iff :
    span.covers place = false ↔ place < span.start ∨ span.stop ≤ place := by
  rw [Bool.eq_false_iff, ne_eq, covers_iff]
  omega

end Covers

namespace Token
open Text

/-- The gaps before the tokens: from `offset` to the first one, and from the end of each token to the
next one. -/
def gapsFrom (offset : Nat) : List Token → List Span
  | [] => []
  | token :: tokens => ⟨offset, token.start⟩ :: gapsFrom token.span.stop tokens

/-- The gaps of a text: before its first token, between its tokens, and before the end of the input. -/
def gaps (text : String) : List Span :=
  gapsFrom 0 (tokenize text)

/-- The span cuts `part` out of the text `cs`, which begins at `offset`. -/
def Cuts (offset : Nat) (cs : List Char) (span : Span) (part : List Char) : Prop :=
  ∃ before after, cs = before ++ (part ++ after) ∧ span.start = offset + width before ∧
    span.stop = span.start + width part

section Cuts
variable {offset : Nat} {cs part : List Char} {span : Span} {text : String}

/-- What is cut out of a text is cut out of it with more text in front. -/
theorem Cuts.prepend {front : List Char} (cuts : Cuts (offset + width front) cs span part) :
    Cuts offset (front ++ cs) span part := by
  obtain ⟨before, after, rfl, start, stop⟩ := cuts
  refine ⟨front ++ before, after, (List.append_assoc _ _ _).symm, ?_, stop⟩
  rw [start, width_append, Nat.add_assoc]

theorem Cuts.start_le_stop (cuts : Cuts offset cs span part) : span.start ≤ span.stop := by
  obtain ⟨_, _, _, _, stop⟩ := cuts
  rw [stop]
  exact Nat.le_add_right _ _

/-- Both ends of what is cut out of a text are boundaries of characters. -/
theorem Cuts.isBoundary (cuts : Cuts 0 cs span part) :
    Text.isBoundary span.start cs = true ∧ Text.isBoundary span.stop cs = true := by
  obtain ⟨before, after, rfl, start, stop⟩ := cuts
  rw [Nat.zero_add] at start
  constructor
  · rw [start]
    exact isBoundary_append before (part ++ after)
  · rw [stop, start, ← width_append, ← List.append_assoc]
    exact isBoundary_append (before ++ part) after

theorem Cuts.slice_eq (cuts : Cuts 0 text.toList span part) : span.slice text = String.ofList part := by
  obtain ⟨before, after, split, start, stop⟩ := cuts
  rw [Nat.zero_add] at start
  rw [Span.slice, split, stop, start, slice?_append]

/-- A token is cut out of its text. -/
theorem cuts_of_mem_list {token : Token} (member : token ∈ list text) :
    Cuts 0 text.toList token.span token.lexeme.toList := by
  obtain ⟨before, after, split, start⟩ := (tiles_list text).within token member
  refine ⟨before, after, by rw [split, List.append_assoc], start, ?_⟩
  rw [span_stop, span_start, width_toList]

end Cuts

section Gaps
variable {offset : Nat} {front rest : List Char} {tokens : List Token} {gap : Span}

/-- The gaps before tokens that are spelled, and the one before the end of the input, are trivia on
their own. -/
theorem Spells.gaps_trivia (spells : Spells rest offset front tokens)
    (trivia : Trivia.between.length rest = rest.length)
    (member : gap ∈ gapsFrom offset (tokens ++ [eof (offset + width (front ++ rest))])) :
    ∃ part, Cuts offset (front ++ rest) gap part ∧ Trivia.between.length part = part.length := by
  induction spells with
  | nil =>
    obtain rfl := List.mem_singleton.mp member
    exact ⟨rest, ⟨[], [], by simp, rfl, rfl⟩, trivia⟩
  | @cons offset before tail front c kind tokens gapTrivia reads _ ih =>
    have last : offset + width ((before ++ c :: (tail ++ front)) ++ rest) =
        offset + width (before ++ c :: tail) + width (front ++ rest) := by
      simp only [width_append, width_cons]
      omega
    have stop : offset + width (before ++ c :: tail) =
        offset + width before + width (c :: tail) := by
      rw [width_append, Nat.add_assoc]
    have whole : (before ++ c :: (tail ++ front)) ++ rest =
        (before ++ c :: tail) ++ (front ++ rest) := by
      simp
    rw [whole]
    rw [last, stop, List.cons_append, gapsFrom] at member
    rcases List.mem_cons.mp member with rfl | later
    · refine ⟨before, ⟨[], c :: (tail ++ (front ++ rest)), by simp, rfl, rfl⟩, ?_⟩
      have alone := Trivia.length_append (by simp) gapTrivia []
      rw [List.append_nil] at alone
      exact alone
    · rw [span_stop, ← width_toList, String.toList_ofList] at later
      obtain ⟨part, cuts, all⟩ := ih later
      rw [← stop] at cuts
      exact ⟨part, cuts.prepend, all⟩

/-- Each gap of a text is cut out of it and has no token of its own. -/
theorem exists_gap {text : String} (member : gap ∈ gaps text) :
    ∃ part, Cuts 0 text.toList gap part ∧ list (String.ofList part) = [] := by
  obtain ⟨front, rest, split, spells, none⟩ :=
    exists_spells (List.append_nil (list text)).symm
  have size : text.utf8ByteSize = 0 + width (front ++ rest) := by
    rw [← split, width_toList, Nat.zero_add]
  rw [gaps, tokenize, size] at member
  obtain ⟨part, cuts, trivia⟩ := spells.gaps_trivia (listFrom_eq_nil.mp none) member
  refine ⟨part, ?_, ?_⟩
  · rw [split]
    exact cuts
  · rw [list, String.toList_ofList]
    exact listFrom_eq_nil.mpr trivia

end Gaps

section Coverage
variable {offset place : Nat} {token : Token} {tokens : List Token}

/-- How many of the tokens and of the gaps before them have the byte at `place`. -/
def coverage (offset place : Nat) (tokens : List Token) : Nat :=
  (gapsFrom offset tokens ++ tokens.map span).countP (·.covers place)

theorem coverage_cons : coverage offset place (token :: tokens) =
    (Span.covers ⟨offset, token.start⟩ place).toNat + (token.span.covers place).toNat +
      coverage token.span.stop place tokens := by
  have counted (covered : Bool) : (if covered = true then 1 else 0) = covered.toNat := by
    cases covered <;> rfl
  simp only [coverage, gapsFrom, List.map_cons, List.countP_append, List.countP_cons, counted]
  omega

/-- No token and no gap behind a byte has it. -/
theorem coverage_eq_zero (before : place < offset)
    (ordered : tokens.Pairwise fun first second => first.span.stop ≤ second.start)
    (behind : ∀ token ∈ tokens, offset ≤ token.start) : coverage offset place tokens = 0 := by
  induction tokens generalizing offset with
  | nil => rfl
  | cons token tokens ih =>
    obtain ⟨first, ordered⟩ := List.pairwise_cons.mp ordered
    have start := behind token List.mem_cons_self
    have stop : token.start ≤ token.span.stop := Nat.le_add_right _ _
    have noGap : Span.covers ⟨offset, token.start⟩ place = false :=
      Span.not_covers_iff.mpr (.inl before)
    have noToken : token.span.covers place = false :=
      Span.not_covers_iff.mpr (.inl (Nat.lt_of_lt_of_le before start))
    rw [coverage_cons, noGap, noToken, ih (by omega) ordered first]
    rfl

/-- Each byte from `offset` to the end of the last token belongs to one of the tokens and gaps. -/
theorem coverage_eq_one (least : offset ≤ place)
    (ordered : tokens.Pairwise fun first second => first.span.stop ≤ second.start)
    (reached : ∃ token ∈ tokens, place < token.span.stop) : coverage offset place tokens = 1 := by
  induction tokens generalizing offset with
  | nil =>
    obtain ⟨_, none, _⟩ := reached
    cases none
  | cons token tokens ih =>
    obtain ⟨first, ordered⟩ := List.pairwise_cons.mp ordered
    rw [coverage_cons]
    by_cases inside : place < token.span.stop
    · rw [coverage_eq_zero inside ordered first, Nat.add_zero]
      by_cases gap : place < token.start
      · have isGap : Span.covers ⟨offset, token.start⟩ place = true :=
          Span.covers_iff.mpr ⟨least, gap⟩
        have noToken : token.span.covers place = false := Span.not_covers_iff.mpr (.inl gap)
        rw [isGap, noToken]
        rfl
      · have noGap : Span.covers ⟨offset, token.start⟩ place = false :=
          Span.not_covers_iff.mpr (.inr (Nat.not_lt.mp gap))
        have isToken : token.span.covers place = true :=
          Span.covers_iff.mpr ⟨Nat.not_lt.mp gap, inside⟩
        rw [noGap, isToken]
        rfl
    · have passed : token.span.stop ≤ place := Nat.not_lt.mp inside
      have noGap : Span.covers ⟨offset, token.start⟩ place = false :=
        Span.not_covers_iff.mpr (.inr (Nat.le_trans (Nat.le_add_right _ _) passed))
      have noToken : token.span.covers place = false := Span.not_covers_iff.mpr (.inr passed)
      have later : ∃ other ∈ tokens, place < other.span.stop := by
        obtain ⟨other, member, far⟩ := reached
        rcases List.mem_cons.mp member with rfl | among
        · exact absurd far inside
        · exact ⟨other, among, far⟩
      rw [noGap, noToken, ih passed ordered later]
      rfl

end Coverage

/-- **Tokens tile the text.** Whatever a text is, its tokens end with the only end of input, which
stands behind the last byte. Every other token, an error included, covers at least one byte from one
boundary of characters to another, is written as the text between the two, and ends before the next
one begins. The gaps before, between and behind the tokens are no tokens on their own either, and each
byte of the text belongs to exactly one token or gap. -/
theorem tokens_tile (text : String) :
    (∃ tokens last, tokenize text = tokens ++ [last] ∧ last.isEof = true ∧
      last.span = ⟨text.utf8ByteSize, text.utf8ByteSize⟩ ∧
      ∀ token ∈ tokens, token.isEof = false ∧ token.span.start < token.span.stop ∧
        isBoundary token.span.start text.toList = true ∧
        isBoundary token.span.stop text.toList = true ∧
        token.span.slice text = token.lexeme ∧ token.lexeme ≠ "") ∧
      ((tokenize text).Pairwise fun first second => first.span.stop ≤ second.span.start) ∧
      (∀ gap ∈ gaps text, gap.start ≤ gap.stop ∧ isBoundary gap.start text.toList = true ∧
        isBoundary gap.stop text.toList = true ∧
        tokenize (gap.slice text) = [eof (gap.slice text).utf8ByteSize]) ∧
      ∀ place < text.utf8ByteSize,
        (gaps text ++ (tokenize text).map span).countP (·.covers place) = 1 := by
  refine ⟨⟨list text, eof text.utf8ByteSize, rfl, rfl, rfl, ?_⟩, tokenize_pairwise text, ?_, ?_⟩
  · intro token member
    have lexed := areLexed_list text token member
    have cuts := cuts_of_mem_list member
    have written : token.lexeme ≠ "" := by
      intro none
      have size := lexed.start_lt_stop
      rw [span_stop, none] at size
      exact Nat.lt_irrefl _ size
    have slice : token.span.slice text = token.lexeme := by
      rw [Span.slice, span_start, slice?_of_mem_list member]
      exact String.ofList_toList
    exact ⟨by simpa [isEof] using lexed.kind_ne_endOfInput, lexed.start_lt_stop, cuts.isBoundary.1,
      cuts.isBoundary.2, slice, written⟩
  · intro gap member
    obtain ⟨part, cuts, none⟩ := exists_gap member
    refine ⟨cuts.start_le_stop, cuts.isBoundary.1, cuts.isBoundary.2, ?_⟩
    rw [cuts.slice_eq, tokenize, none, List.nil_append]
  · intro place inside
    exact coverage_eq_one (Nat.zero_le _) (tokenize_pairwise text)
      ⟨eof text.utf8ByteSize, List.mem_append_right _ List.mem_cons_self, inside⟩

/-- A gap with a comment before a string that is not closed. -/
theorem tokens_tile_of_comment :
    let text := "é /*'*/ 'b"
    (⟨2, 9⟩ : Span) ∈ gaps text ∧ 5 < text.utf8ByteSize ∧
      tokenize (Span.slice ⟨2, 9⟩ text) = [eof 7] ∧
      (gaps text ++ (tokenize text).map span).countP (·.covers 5) = 1 := by
  intro text
  have among : (⟨2, 9⟩ : Span) ∈ gaps text := by decide +kernel
  have within : 5 < text.utf8ByteSize := by decide +kernel
  obtain ⟨-, -, gapsOnly, covered⟩ := tokens_tile text
  refine ⟨among, within, ?_, covered 5 within⟩
  rw [(gapsOnly ⟨2, 9⟩ among).2.2.2]
  decide +kernel

end Token

end SelectRouting
