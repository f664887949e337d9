/-!
# Byte offsets into text

A text is a list of characters, and a place in it is the number of bytes that the characters before
it take in UTF-8. An offset that is past the end or inside a character names no place, so the
functions that cut a text at an offset are partial in the offset.
-/

namespace SelectRouting.Text

/-- The number of bytes that the characters take in UTF-8. -/
def width : List Char → Nat
  | [] => 0
  | c :: cs => c.utf8Size + width cs

/-- The characters before and from byte offset `offset`, when a character starts or the text ends
there. -/
def splitAt? : Nat → List Char → Option (List Char × List Char)
  | 0, cs => some ([], cs)
  | _ + 1, [] => none
  | offset + 1, c :: cs =>
    if c.utf8Size ≤ offset + 1 then
      (splitAt? (offset + 1 - c.utf8Size) cs).map fun (before, after) => (c :: before, after)
    else none

/-- A character starts or the text ends at byte offset `offset`. -/
def isBoundary (offset : Nat) (cs : List Char) : Bool :=
  (splitAt? offset cs).isSome

/-- The characters from byte offset `start` up to byte offset `stop`. -/
def slice? (start stop : Nat) (cs : List Char) : Option (List Char) :=
  if start ≤ stop then do
    let (_, after) ← splitAt? start cs
    let (middle, _) ← splitAt? (stop - start) after
    return middle
  else none

/-- The text with the characters from `start` up to `stop` replaced by `new`. -/
def replace? (start stop : Nat) (new cs : List Char) : Option (List Char) :=
  if start ≤ stop then do
    let (before, after) ← splitAt? start cs
    let (_, behind) ← splitAt? (stop - start) after
    return before ++ new ++ behind
  else none

@[simp] theorem width_nil : width [] = 0 := rfl

@[simp] theorem width_cons (c : Char) (cs : List Char) : width (c :: cs) = c.utf8Size + width cs :=
  rfl

@[simp] theorem width_append (xs ys : List Char) : width (xs ++ ys) = width xs + width ys := by
  induction xs with
  | nil => simp
  | cons c cs ih => simp [ih, Nat.add_assoc]

/-- The width of all characters of a string is its size in bytes. -/
@[simp] theorem width_toList (text : String) : width text.toList = text.utf8ByteSize := by
  suffices sized : ∀ cs, (String.ofList cs).utf8ByteSize = width cs by
    rw [← sized, String.ofList_toList]
  intro cs
  induction cs with
  | nil => rfl
  | cons c cs ih =>
    have split : String.ofList (c :: cs) = String.singleton c ++ String.ofList cs := by
      rw [String.singleton_eq_ofList, ← String.ofList_append]
      rfl
    rw [split, String.utf8ByteSize_append, String.utf8ByteSize_singleton, ih, width_cons]

/-- Cutting behind a given part of a text gives back the two parts. -/
theorem splitAt?_width (xs ys : List Char) : splitAt? (width xs) (xs ++ ys) = some (xs, ys) := by
  induction xs with
  | nil => cases ys <;> rfl
  | cons c cs ih =>
    obtain ⟨n, hn⟩ : ∃ n, c.utf8Size + width cs = n + 1 :=
      ⟨c.utf8Size + width cs - 1, by have := c.utf8Size_pos; omega⟩
    simp only [width_cons, List.cons_append, hn, splitAt?]
    rw [if_pos (by omega), show n + 1 - c.utf8Size = width cs by omega, ih]
    rfl

/-- A cut loses nothing and falls where it was asked for. -/
theorem eq_append_of_splitAt? {offset : Nat} {cs before after : List Char}
    (cut : splitAt? offset cs = some (before, after)) :
    cs = before ++ after ∧ width before = offset := by
  induction cs generalizing offset before with
  | nil =>
    cases offset with
    | zero => simp_all [splitAt?]
    | succ n => simp [splitAt?] at cut
  | cons c cs ih =>
    cases offset with
    | zero => simp_all [splitAt?]
    | succ n =>
      simp only [splitAt?] at cut
      split at cut
      · rename_i fits
        obtain ⟨⟨left, right⟩, inner, same⟩ := Option.map_eq_some_iff.mp cut
        obtain ⟨rfl, rfl⟩ := Prod.mk.inj same
        obtain ⟨rfl, at_offset⟩ := ih inner
        exact ⟨rfl, by simp only [width_cons, at_offset]; omega⟩
      · simp at cut

end SelectRouting.Text
