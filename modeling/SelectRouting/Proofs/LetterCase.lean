import Mathlib.Data.List.Basic
import SelectRouting.Span
import SelectRouting.Text.Quotes
import SelectRouting.Token.Scan

/-!
# The case of letters

Lower case changes nothing but the ASCII letters from `A` to `Z`, and no reader of tokens tells these
from the small ones: the tokens of a text in lower case are the tokens of the text in lower case
(`Token.list_lower`).
-/

namespace SelectRouting

namespace Text

section Letters
variable {motive : Char → Char → Prop} (kept : ∀ c, motive c c)
include kept

/-- Where nothing but the 26 characters from `first` on is changed, what holds of these and of every
character that stays as it is holds of all characters. -/
theorem letter_cases {first : Nat} {change : Char → Char}
    (changes : ∀ c, change c ≠ c → first ≤ c.toNat ∧ c.toNat < first + 26)
    (letters : ∀ n ∈ List.range' first 26, motive (Char.ofNat n) (change (Char.ofNat n))) (c : Char) :
    motive c (change c) := by
  by_cases same : change c = c
  · rw [same]
    exact kept c
  · have letter := letters c.toNat (List.mem_range'_1.mpr (changes c same))
    rwa [Char.ofNat_toNat] at letter

/-- Only the letters from `A` to `Z` change in lower case. -/
theorem toLower_cases
    (letters : ∀ n ∈ List.range' 65 26, motive (Char.ofNat n) (Char.ofNat n).toLower) (c : Char) :
    motive c c.toLower := by
  refine letter_cases kept (fun c changed => ?_) letters c
  have upper : c.val ≥ 'A'.val ∧ c.val ≤ 'Z'.val := by
    by_contra other
    exact changed (dif_neg other)
  have bottom : 65 ≤ c.toNat := UInt32.le_iff_toNat_le.mp upper.1
  have top : c.toNat ≤ 90 := UInt32.le_iff_toNat_le.mp upper.2
  exact ⟨bottom, by omega⟩

/-- Only the letters from `a` to `z` change in upper case. -/
theorem toUpper_cases
    (letters : ∀ n ∈ List.range' 97 26, motive (Char.ofNat n) (Char.ofNat n).toUpper) (c : Char) :
    motive c c.toUpper := by
  refine letter_cases kept (fun c changed => ?_) letters c
  have lower : c.val ≥ 'a'.val ∧ c.val ≤ 'z'.val := by
    by_contra other
    exact changed (dif_neg other)
  have bottom : 97 ≤ c.toNat := UInt32.le_iff_toNat_le.mp lower.1
  have top : c.toNat ≤ 122 := UInt32.le_iff_toNat_le.mp lower.2
  exact ⟨bottom, by omega⟩

end Letters

/-- The character is no letter, so no other character is it in lower case. -/
def IsCaseless (mark : Char) : Prop :=
  ∀ n ∈ List.range' 65 26, Char.ofNat n ≠ mark ∧ (Char.ofNat n).toLower ≠ mark

instance (mark : Char) : Decidable (IsCaseless mark) :=
  inferInstanceAs (Decidable (∀ n ∈ List.range' 65 26, _))

theorem IsCaseless.beq_toLower {mark : Char} (caseless : IsCaseless mark) (c : Char) :
    (c.toLower == mark) = (c == mark) :=
  toLower_cases (motive := fun c d => (d == mark) = (c == mark)) (fun _ => rfl)
    (fun n member => by
      obtain ⟨upper, lower⟩ := caseless n member
      rw [beq_eq_false_iff_ne.mpr upper, beq_eq_false_iff_ne.mpr lower]) c

theorem IsCaseless.toLower_eq_iff {mark : Char} (caseless : IsCaseless mark) {c : Char} :
    c.toLower = mark ↔ c = mark := by
  rw [← beq_iff_eq, caseless.beq_toLower, beq_iff_eq]

@[simp] theorem toLower_toLower (c : Char) : c.toLower.toLower = c.toLower :=
  toLower_cases (motive := fun c d => c.toLower = d → d.toLower = d) (fun _ => id) (by decide) c rfl

theorem eq_star_iff {text : String} :
    text = "*" ↔ text.toList.map Char.toLower = ['*'] := by
  have caseless : IsCaseless '*' := by decide
  constructor
  · rintro rfl
    rfl
  · intro star
    obtain ⟨c, rest, chars, small, none⟩ := List.map_eq_cons_iff.mp star
    rw [List.map_eq_nil_iff.mp none, caseless.toLower_eq_iff.mp small] at chars
    exact String.toList_inj.mp chars

/-- The property does not tell capital letters from small ones. -/
def IsCaseBlind {α : Type} (property : Char → α) : Prop :=
  ∀ c, property c.toLower = property c

/-- Properties that agree on the letters are blind to their case. -/
theorem isCaseBlind_of_letters {α : Type} {property : Char → α}
    (letters : ∀ n ∈ List.range' 65 26, property (Char.ofNat n).toLower = property (Char.ofNat n)) :
    IsCaseBlind property :=
  toLower_cases (motive := fun c d => property d = property c) (fun _ => rfl) letters

theorem IsCaseBlind.takeWhile {property : Char → Bool} (blind : IsCaseBlind property) (cs : List Char) :
    (cs.map Char.toLower).takeWhile property = (cs.takeWhile property).map Char.toLower := by
  rw [List.takeWhile_map]
  exact congrArg (fun p => (cs.takeWhile p).map Char.toLower) (funext blind)

theorem IsCaseBlind.dropWhile {property : Char → Bool} (blind : IsCaseBlind property) (cs : List Char) :
    (cs.map Char.toLower).dropWhile property = (cs.dropWhile property).map Char.toLower := by
  rw [List.dropWhile_map]
  exact congrArg (fun p => (cs.dropWhile p).map Char.toLower) (funext blind)

theorem isCaseBlind_utf8Size : IsCaseBlind Char.utf8Size :=
  isCaseBlind_of_letters (by decide)

theorem isCaseBlind_isDigit : IsCaseBlind Char.isDigit :=
  isCaseBlind_of_letters (by decide)

theorem isCaseBlind_isBlank : IsCaseBlind isBlank :=
  isCaseBlind_of_letters (by decide)

theorem isCaseBlind_isQuote : IsCaseBlind isQuote :=
  isCaseBlind_of_letters (by decide)

theorem isWordCharacter_toLower (c : Char) :
    Token.isWordCharacter c.toLower = Token.isWordCharacter c :=
  isCaseBlind_of_letters (by decide) c

theorem isStart_toLower (c : Char) :
    (isAlphabetic c.toLower || c.toLower == '_') = (isAlphabetic c || c == '_') :=
  @isCaseBlind_of_letters _ (fun c => isAlphabetic c || c == '_') (by decide) c

theorem toLower_toUpper (c : Char) : c.toUpper.toLower = c.toLower :=
  toUpper_cases (motive := fun c d => d.toLower = c.toLower) (fun _ => rfl) (by decide) c

theorem toUpper_of_isDigit {c : Char} (digit : c.isDigit = true) : c.toUpper = c :=
  toUpper_cases (motive := fun c d => c.isDigit = true → d = c) (fun _ _ => rfl) (by decide) c digit

theorem toLower_of_isDigit {c : Char} (digit : c.isDigit = true) : c.toLower = c :=
  toLower_cases (motive := fun c d => c.isDigit = true → d = c) (fun _ _ => rfl) (by decide) c digit

theorem toLower_of_not_isAlphabetic {c : Char} (noLetter : isAlphabetic c = false) : c.toLower = c :=
  toLower_cases (motive := fun c d => isAlphabetic c = false → d = c) (fun _ _ => rfl) (by decide) c
    noLetter

theorem width_map_toLower (cs : List Char) : width (cs.map Char.toLower) = width cs := by
  induction cs with
  | nil => rfl
  | cons c cs ih => rw [List.map_cons, width_cons, width_cons, ih, isCaseBlind_utf8Size c]

theorem toList_lower (text : String) : (lower text).toList = text.toList.map Char.toLower := by
  rw [lower, String.toList_ofList]

theorem lower_ofList (cs : List Char) :
    lower (String.ofList cs) = String.ofList (cs.map Char.toLower) := by
  rw [lower, String.toList_ofList]

@[simp] theorem utf8ByteSize_lower (text : String) : (lower text).utf8ByteSize = text.utf8ByteSize := by
  rw [← width_toList, ← width_toList, toList_lower, width_map_toLower]

/-- Texts differ in the case of ASCII letters at most when they are the same in lower case. -/
theorem sameIgnoringCase_iff_lower {left right : String} :
    sameIgnoringCase left right = true ↔ lower left = lower right := by
  rw [sameIgnoringCase, beq_iff_eq, ← String.toList_inj, toList_lower, toList_lower]

theorem sameIgnoringCase_lower (left right : String) :
    sameIgnoringCase left (lower right) = sameIgnoringCase left right := by
  rw [sameIgnoringCase, sameIgnoringCase, toList_lower, List.map_map]
  exact congrArg (fun f => _ == right.toList.map f) (funext toLower_toLower)

theorem upper_of_lower {left right : String} (same : lower left = lower right) :
    upper left = upper right := by
  have blind : IsCaseBlind Char.toUpper := isCaseBlind_of_letters (by decide)
  have upper_lower (text : String) : upper (lower text) = upper text := by
    rw [upper, toList_lower, List.map_map]
    exact congrArg (fun f => String.ofList (text.toList.map f)) (funext blind)
  rw [← upper_lower left, same, upper_lower]

theorem lower_upper (text : String) : lower (upper text) = lower text := by
  rw [lower, upper, String.toList_ofList, List.map_map]
  exact congrArg (fun f => String.ofList (text.toList.map f)) (funext toLower_toUpper)

/-- Texts are compared with a text in upper case without regard to case when they are put in upper case
too. -/
theorem upper_eq_iff {text other : String} (isUpper : upper other = other) :
    upper text = other ↔ sameIgnoringCase text other = true := by
  rw [sameIgnoringCase_iff_lower]
  constructor
  · rintro rfl
    exact (lower_upper text).symm
  · intro same
    rw [upper_of_lower same, isUpper]

theorem stripQuotes_lower (text : String) : stripQuotes (lower text) = lower (stripQuotes text) := by
  rw [stripQuotes, toList_lower, List.filter_map, stripQuotes, lower_ofList]
  congr 3
  funext c
  exact congrArg (!·) (isCaseBlind_isQuote c)

theorem lower_append (left right : String) : lower (left ++ right) = lower left ++ lower right := by
  rw [lower, String.toList_append, List.map_append, String.ofList_append]
  rfl

end Text

open Text

theorem Keyword.lookup?_lower (word : String) : lookup? (lower word) = lookup? word := by
  unfold lookup?
  simp only [sameIgnoringCase_lower]

theorem Symbol.single?_toLower : IsCaseBlind single? :=
  isCaseBlind_of_letters (by decide)

/-- The symbols of two characters. -/
theorem Symbol.double?_eq_some_iff {c d : Char} {mark : Symbol} : double? c d = some mark ↔
    (c = '<' ∧ d = '=' ∧ mark = .ltEq) ∨ (c = '>' ∧ d = '=' ∧ mark = .gtEq) ∨
      (c = '<' ∧ d = '>' ∧ mark = .notEq) ∨ (c = '!' ∧ d = '=' ∧ mark = .notEq) ∨
      (c = '<' ∧ d = '<' ∧ mark = .leftShift) ∨ (c = '>' ∧ d = '>' ∧ mark = .rightShift) ∨
      (c = '|' ∧ d = '|' ∧ mark = .concat) ∨ (c = ':' ∧ d = ':' ∧ mark = .doubleColon) := by
  unfold double?
  split <;> simp_all [eq_comm]

theorem Symbol.double?_toLower (c d : Char) : double? c.toLower d.toLower = double? c d := by
  refine Option.ext fun mark => ?_
  have less : IsCaseless '<' := by decide
  have greater : IsCaseless '>' := by decide
  have equals : IsCaseless '=' := by decide
  have bang : IsCaseless '!' := by decide
  have bar : IsCaseless '|' := by decide
  have colon : IsCaseless ':' := by decide
  simp only [double?_eq_some_iff, less.toLower_eq_iff, greater.toLower_eq_iff,
    equals.toLower_eq_iff, bang.toLower_eq_iff, bar.toLower_eq_iff, colon.toLower_eq_iff]

/-- The kind with the text of a string or a name in lower case. -/
def TokenKind.lower : TokenKind → TokenKind
  | .string text => .string (Text.lower text)
  | .identifier name => .identifier (Text.lower name)
  | kind => kind

/-- The token in lower case. -/
def Token.lower (token : Token) : Token :=
  ⟨token.kind.lower, token.start, Text.lower token.lexeme⟩

/-- Trivia are as long in lower case. -/
theorem Trivia.length_lower (trivia : Trivia) (cs : List Char) :
    trivia.length (cs.map Char.toLower) = trivia.length cs := by
  have hyphen : IsCaseless '-' := by decide
  have slash : IsCaseless '/' := by decide
  have star : IsCaseless '*' := by decide
  have newline : IsCaseless '\n' := by decide
  have head (mark : Char) (caseless : IsCaseless mark) (cs : List Char) :
      ((cs.map Char.toLower).head? == some mark) = (cs.head? == some mark) := by
    cases cs with
    | nil => rfl
    | cons c cs => exact caseless.beq_toLower c
  induction cs generalizing trivia with
  | nil => cases trivia <;> rfl
  | cons c cs ih =>
    rw [List.map_cons]
    cases trivia with
    | between =>
      rw [length, length, isCaseBlind_isBlank, hyphen.beq_toLower, slash.beq_toLower, head _ hyphen,
        head _ star, ih, ih, ih]
    | lineComment => rw [length, length, newline.beq_toLower, ih, ih]
    | blockComment afterStar =>
      rw [length, length, slash.beq_toLower, star.beq_toLower, ih, ih]

namespace Token

section Numbers
variable {cs : List Char}

theorem takeWhile_isDigit_lower (cs : List Char) :
    (cs.map Char.toLower).takeWhile Char.isDigit = cs.takeWhile Char.isDigit := by
  rw [isCaseBlind_isDigit.takeWhile]
  refine (List.map_congr_left fun c member => ?_).trans (List.map_id _)
  exact toLower_of_isDigit (List.all_eq_true.mp List.all_takeWhile c member)

theorem fractionDigits_lower (cs : List Char) :
    fractionDigits (cs.map Char.toLower) = fractionDigits cs := by
  have point : IsCaseless '.' := by decide
  cases cs with
  | nil => rfl
  | cons c cs =>
    rw [List.map_cons]
    by_cases isPoint : c = '.'
    · rw [isPoint]
      exact takeWhile_isDigit_lower cs
    · have isPoint' : c.toLower ≠ '.' := mt point.toLower_eq_iff.mp isPoint
      rw [fractionDigits, fractionDigits]
      · simpa using isPoint
      · simpa using isPoint'

theorem exponentPart?_lower (cs : List Char) :
    exponentPart? (cs.map Char.toLower) = exponentPart? cs := by
  have letter : IsCaseBlind fun c => c == 'e' || c == 'E' := isCaseBlind_of_letters (by decide)
  have plus : IsCaseless '+' := by decide
  have minus : IsCaseless '-' := by decide
  match cs with
  | [] | [_] => rfl
  | e :: c :: cs =>
    have isLetter := letter e
    rw [List.map_cons, List.map_cons, exponentPart?, exponentPart?, isCaseBlind_isDigit c,
      plus.beq_toLower, minus.beq_toLower, takeWhile_isDigit_lower]
    dsimp only at isLetter
    rw [isLetter]
    by_cases digit : c.isDigit = true
    · rw [toLower_of_isDigit digit]
    · rw [if_neg digit, if_neg digit]

theorem readNumber_lower (first : Char) (cs : List Char) :
    readNumber first (cs.map Char.toLower) = readNumber first cs := by
  unfold readNumber
  dsimp only
  rw [takeWhile_isDigit_lower, isCaseBlind_isDigit.dropWhile, fractionDigits_lower, ← List.map_drop,
    exponentPart?_lower]

theorem lower_readNumber (first : Char) (cs : List Char) :
    (readNumber first cs).1.lower = (readNumber first cs).1 := by
  unfold readNumber
  dsimp only
  split
  · dsimp only
    split <;> rfl
  · dsimp only
    split
    · split <;> rfl
    · rfl

end Numbers

theorem readWord_lower (first : Char) (cs : List Char) :
    readWord first.toLower (cs.map Char.toLower) =
      ((readWord first cs).1.lower, (readWord first cs).2) := by
  have spelled (tail : List Char) : String.ofList (first.toLower :: tail.map Char.toLower) =
      Text.lower (String.ofList (first :: tail)) := by
    rw [lower_ofList, List.map_cons]
  unfold readWord
  dsimp only
  rw [IsCaseBlind.takeWhile isWordCharacter_toLower, spelled, Keyword.lookup?_lower, List.length_map]
  split <;> rfl

theorem readQuoted?_lower {close : Char} (caseless : IsCaseless close) (doubling : Bool)
    (cs : List Char) : readQuoted? close doubling (cs.map Char.toLower) =
      (readQuoted? close doubling cs).map fun (value, length) => (value.map Char.toLower, length) := by
  have small : close.toLower = close := caseless.toLower_eq_iff.mpr rfl
  fun_induction readQuoted? close doubling cs with
  | case1 => rfl
  | case2 c ends | case3 c ends =>
    rw [List.map_singleton, readQuoted?, caseless.beq_toLower]
    simp [ends]
  | case4 c d cs ends both ih =>
    rw [List.map_cons, List.map_cons, readQuoted?, caseless.beq_toLower, caseless.beq_toLower,
      if_pos ends, if_pos both, ih]
    simp [small, Function.comp_def]
  | case5 c d cs ends both =>
    rw [List.map_cons, List.map_cons, readQuoted?, caseless.beq_toLower, caseless.beq_toLower,
      if_pos ends, if_neg both]
    rfl
  | case6 c d cs ends ih =>
    rw [List.map_cons] at ih
    rw [List.map_cons, List.map_cons, readQuoted?, caseless.beq_toLower, if_neg ends, ih]
    simp [Function.comp_def]

theorem readText_lower {close : Char} (caseless : IsCaseless close) (doubling : Bool)
    {kind : String → TokenKind} (kinds : ∀ text, (kind text).lower = kind (Text.lower text))
    (error : LexicalError) (cs : List Char) :
    readText close doubling kind error (cs.map Char.toLower) =
      ((readText close doubling kind error cs).1.lower, (readText close doubling kind error cs).2) := by
  unfold readText
  rw [readQuoted?_lower caseless, List.length_map]
  cases readQuoted? close doubling cs with
  | none => rfl
  | some found =>
    dsimp only [Option.map_some]
    rw [kinds, lower_ofList]

theorem isCaseBlind_isHexDigit : IsCaseBlind isHexDigit :=
  isCaseBlind_of_letters (by decide)

theorem isCaseBlind_hexValue : IsCaseBlind hexValue :=
  isCaseBlind_of_letters (by decide)

theorem bytesOfHex_lower (digits : List Char) :
    bytesOfHex (digits.map Char.toLower) = bytesOfHex digits := by
  match digits with
  | [] | [_] => rfl
  | high :: low :: digits =>
    rw [List.map_cons, List.map_cons, bytesOfHex, bytesOfHex, isCaseBlind_hexValue high,
      isCaseBlind_hexValue low, bytesOfHex_lower digits]

theorem readBlob_lower (cs : List Char) :
    readBlob (cs.map Char.toLower) = ((readBlob cs).1.lower, (readBlob cs).2) := by
  have quote : IsCaseless '\x27' := by decide
  unfold readBlob
  dsimp only
  rw [isCaseBlind_isHexDigit.takeWhile, isCaseBlind_isHexDigit.dropWhile, List.length_map,
    bytesOfHex_lower, List.head?_map]
  cases (cs.dropWhile isHexDigit).head? with
  | none => rfl
  | some c =>
    dsimp only [Option.map_some]
    rw [bne, bne, quote.beq_toLower]
    split
    · rfl
    · split <;> rfl

/-- A token is read in lower case as it is read, and is as long. -/
theorem read_lower (c : Char) (cs : List Char) :
    read c.toLower (cs.map Char.toLower) = ((read c cs).1.lower, (read c cs).2) := by
  have quote : IsCaseless '\x27' := by decide
  have double : IsCaseless '"' := by decide
  have back : IsCaseless '\x60' := by decide
  have bracket : IsCaseless '[' := by decide
  have closing : IsCaseless ']' := by decide
  have blob : (c.toLower == 'X' || c.toLower == 'x') = (c == 'X' || c == 'x') :=
    @isCaseBlind_of_letters _ (fun c => c == 'X' || c == 'x') (by decide) c
  have marks : (cs.map Char.toLower).head?.bind (Symbol.double? c.toLower) =
      cs.head?.bind (Symbol.double? c) := by
    cases cs with
    | nil => rfl
    | cons d cs => exact Symbol.double?_toLower c d
  have opens : ((cs.map Char.toLower).head? == some '\x27') = (cs.head? == some '\x27') := by
    cases cs with
    | nil => rfl
    | cons d cs => exact quote.beq_toLower d
  -- A character that is its own closing quote is the same in lower case.
  have text (mark : IsCaseless c) (kind : String → TokenKind)
      (kinds : ∀ text, (kind text).lower = kind (Text.lower text)) (error : LexicalError) :
      readText c.toLower true kind error (cs.map Char.toLower) =
        ((readText c true kind error cs).1.lower, (readText c true kind error cs).2) := by
    rw [mark.toLower_eq_iff.mpr rfl]
    exact readText_lower mark true kinds error cs
  unfold read
  rw [marks]
  split
  · rfl
  · rw [quote.beq_toLower, double.beq_toLower, back.beq_toLower, bracket.beq_toLower, blob, opens,
      isCaseBlind_isDigit, isStart_toLower, Symbol.single?_toLower]
    split
    · next is =>
      rw [beq_iff_eq] at is
      exact text (is ▸ quote) _ (fun _ => rfl) _
    split
    · next is =>
      rw [Bool.or_eq_true, beq_iff_eq, beq_iff_eq] at is
      refine text ?_ _ (fun _ => rfl) _
      rcases is with rfl | rfl
      · exact double
      · exact back
    split
    · exact readText_lower closing false (fun _ => rfl) _ cs
    split
    · dsimp only
      rw [← List.map_drop, readBlob_lower]
    split
    · next digit =>
      rw [toLower_of_isDigit digit, readNumber_lower, lower_readNumber]
    split
    · exact readWord_lower c cs
    · next noLetter =>
      rw [Bool.or_eq_true, not_or, Bool.not_eq_true] at noLetter
      rw [toLower_of_not_isAlphabetic noLetter.1]
      split <;> rfl

/-- The tokens of a text in lower case are those of the text in lower case. -/
theorem listFrom_lower (offset skip : Nat) (cs : List Char) :
    listFrom offset skip (cs.map Char.toLower) = (listFrom offset skip cs).map Token.lower := by
  induction cs generalizing offset skip with
  | nil => cases skip <;> rfl
  | cons c cs ih =>
    rw [List.map_cons]
    cases skip with
    | succ skip => rw [listFrom, listFrom, isCaseBlind_utf8Size, ih]
    | zero =>
      rw [listFrom, listFrom, ← List.map_cons, Trivia.length_lower, isCaseBlind_utf8Size]
      cases Trivia.between.length (c :: cs) with
      | succ skip => exact ih _ _
      | zero =>
        dsimp only
        rw [read_lower, ih, List.map_cons, ← List.map_take, ← List.map_cons, ← lower_ofList]
        rfl

theorem list_lower (text : String) : list (Text.lower text) = (list text).map Token.lower := by
  rw [list, list, toList_lower, listFrom_lower]

end Token

namespace Text

theorem splitAt?_lower (offset : Nat) (cs : List Char) :
    splitAt? offset (cs.map Char.toLower) =
      (splitAt? offset cs).map fun (before, after) =>
        (before.map Char.toLower, after.map Char.toLower) := by
  induction cs generalizing offset with
  | nil => cases offset <;> rfl
  | cons c cs ih =>
    cases offset with
    | zero => rfl
    | succ offset =>
      rw [List.map_cons, splitAt?, splitAt?, isCaseBlind_utf8Size, ih]
      split
      · simp [Function.comp_def]
      · rfl

theorem slice?_lower (start stop : Nat) (cs : List Char) :
    slice? start stop (cs.map Char.toLower) = (slice? start stop cs).map (List.map Char.toLower) := by
  unfold slice?
  split
  · rw [splitAt?_lower]
    cases splitAt? start cs with
    | none => rfl
    | some parts =>
      dsimp only [Option.map_some, Option.bind_eq_bind, Option.bind_some]
      rw [splitAt?_lower]
      cases splitAt? (stop - start) parts.2 <;> rfl
  · rfl

end Text

/-- A part of the text in lower case is the part of the text in lower case. -/
theorem Span.slice_lower (span : Span) (text : String) :
    span.slice (Text.lower text) = Text.lower (span.slice text) := by
  rw [slice, slice, toList_lower, slice?_lower]
  cases slice? span.start span.stop text.toList with
  | none => rfl
  | some part => exact (lower_ofList part).symm

end SelectRouting
