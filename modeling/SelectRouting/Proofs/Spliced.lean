import SelectRouting.Proofs.Lexing
import SelectRouting.Splicing

/-!
# What the edits make of a text

Edits that stand one behind the other in a text are all made in it, from the last to the first, and
each leaves the text before it alone (`Splicing.runWith_of_makes`).
-/

namespace SelectRouting

namespace Text

/-- A part of a text is found between its two offsets. -/
theorem slice?_append (before middle after : List Char) :
    slice? (width before) (width before + width middle) (before ++ (middle ++ after)) =
      some middle := by
  rw [slice?, if_pos (Nat.le_add_right _ _), Nat.add_sub_cancel_left]
  simp only [Option.bind_eq_bind, splitAt?_width, Option.bind_some]
  rfl

/-- Up to the end of its front, a text is cut as its front is. -/
theorem splitAt?_append {offset : Nat} {front : List Char} (within : offset ≤ width front)
    (cs : List Char) : splitAt? offset (front ++ cs) =
      (splitAt? offset front).map fun parts => (parts.1, parts.2 ++ cs) := by
  induction front generalizing offset with
  | nil =>
    obtain rfl := Nat.le_zero.mp within
    cases cs <;> rfl
  | cons c front ih =>
    cases offset with
    | zero => rfl
    | succ n =>
      rw [width_cons] at within
      rw [List.cons_append, splitAt?, splitAt?]
      split
      · rw [ih (by omega), Option.map_map, Option.map_map]
        rfl
      · rfl

/-- A part of the front of a text is a part of the text. -/
theorem slice?_append_front {start stop : Nat} {front : List Char} (within : stop ≤ width front)
    (cs : List Char) : slice? start stop (front ++ cs) = slice? start stop front := by
  unfold slice?
  split
  · next least =>
    rw [splitAt?_append (by omega)]
    cases cut : splitAt? start front with
    | none => rfl
    | some parts =>
      obtain ⟨before, after⟩ := parts
      obtain ⟨rfl, rfl⟩ := eq_append_of_splitAt? cut
      rw [width_append] at within
      simp only [Option.bind_eq_bind, Option.map_some, Option.bind_some]
      rw [splitAt?_append (by omega)]
      cases splitAt? (stop - width before) after <;> rfl
  · rfl

/-- A part of a text is replaced between its two offsets. -/
theorem replace?_append (before middle after new : List Char) :
    replace? (width before) (width before + width middle) new (before ++ (middle ++ after)) =
      some (before ++ new ++ after) := by
  rw [replace?, if_pos (Nat.le_add_right _ _), Nat.add_sub_cancel_left]
  simp only [Option.bind_eq_bind, splitAt?_width, Option.bind_some]
  rfl

theorem isBoundary_append (before after : List Char) :
    isBoundary (width before) (before ++ after) = true := by
  rw [isBoundary, splitAt?_width, Option.isSome_some]

end Text

namespace Edit
open Text

section Order
variable {edits : List Edit}

theorem place_perm (edit : Edit) (edits : List Edit) : (place edit edits).Perm (edit :: edits) := by
  induction edits with
  | nil => exact .refl _
  | cons other edits ih =>
    unfold place
    split
    · exact .refl _
    · exact (ih.cons other).trans (.swap edit other edits)

theorem place_pairwise (edit : Edit)
    (ordered : edits.Pairwise fun first second => second.offset ≤ first.offset) :
    (place edit edits).Pairwise fun first second => second.offset ≤ first.offset := by
  induction edits with
  | nil => exact List.pairwise_singleton _ _
  | cons other edits ih =>
    obtain ⟨below, ordered⟩ := List.pairwise_cons.mp ordered
    unfold place
    split
    · next fits =>
      refine .cons ?_ (.cons below ordered)
      intro second member
      rcases List.mem_cons.mp member with rfl | member
      · exact fits
      · exact Nat.le_trans (below second member) fits
    · next above =>
      refine .cons ?_ (ih ordered)
      intro second member
      rcases List.mem_cons.mp ((place_perm edit edits).mem_iff.mp member) with rfl | member
      · omega
      · exact below second member

theorem descending_perm (edits : List Edit) : (descending edits).Perm edits := by
  induction edits with
  | nil => exact .refl _
  | cons edit edits ih => exact (place_perm edit _).trans (ih.cons edit)

theorem descending_pairwise (edits : List Edit) :
    (descending edits).Pairwise fun first second => second.offset ≤ first.offset := by
  induction edits with
  | nil => exact .nil
  | cons edit edits ih => exact place_pairwise edit ih

/-- Edits at different offsets are brought into the one descending order that they have. -/
theorem descending_eq_reverse {ascending : List Edit} (perm : edits.Perm ascending)
    (ordered : ascending.Pairwise fun first second => first.offset < second.offset) :
    descending edits = ascending.reverse := by
  have same := (descending_perm edits).trans perm
  have distinct : (descending edits).Pairwise fun first second => first.offset ≠ second.offset :=
    same.symm.pairwise (ordered.imp Nat.ne_of_lt) Ne.symm
  refine List.Perm.eq_of_pairwise ?_ (descending_pairwise edits |>.and distinct) ?_
    (same.trans ascending.reverse_perm.symm)
  · intro first second _ _ after before
    exact absurd (Nat.le_antisymm before.1 after.1) after.2
  · rw [List.pairwise_reverse]
    exact ordered.imp fun before => ⟨Nat.le_of_lt before, Nat.ne_of_gt before⟩

/-- Edits at different offsets have no repeats. -/
theorem dropRepeats_of_pairwise
    (ordered : edits.Pairwise fun first second => second.offset < first.offset) :
    dropRepeats edits = edits := by
  induction edits using dropRepeats.induct with
  | case1 => rfl
  | case2 => rfl
  | case3 edit next edits same ih =>
    obtain rfl := eq_of_beq same
    exact absurd ((List.pairwise_cons.mp ordered).1 edit (by simp)) (Nat.lt_irrefl _)
  | case4 edit next edits other ih =>
    rw [dropRepeats, if_neg other, ih (List.pairwise_cons.mp ordered).2]

end Order

/-- Making the edits, which stand one behind the other, in the text `source` at `offset` gives
`made`. The names are looked up from the last one to the first, and those of the edits are
`lookups`. -/
inductive Makes (mapper : Mapper) :
    (offset : Nat) → (source : List Char) → List Edit → (made : List Char) →
      (lookups : List String) → Prop where
  | kept {offset : Nat} {source : List Char} : Makes mapper offset source [] source []
  | tableName {offset : Nat} {front source made : List Char} {text : String} {edits : List Edit}
      {lookups : List String} :
      Makes mapper (offset + width front + text.utf8ByteSize) source edits made lookups →
        Makes mapper offset (front ++ (text.toList ++ source))
          (.tableName (offset + width front) text :: edits)
          (front ++ (((mapper lookups (stripQuotes text)).getD text).toList ++ made))
          (lookups ++ [stripQuotes text])
  | projection {offset : Nat} {front source made : List Char} {columns : List String}
      {edits : List Edit} {lookups : List String} :
      Makes mapper (offset + width front) source edits made lookups →
        Makes mapper offset (front ++ source) (.projection (offset + width front) columns :: edits)
          (front ++ ((insertion columns).toList ++ made)) lookups

variable {mapper : Mapper} {offset : Nat} {source made : List Char} {edits : List Edit}
  {lookups : List String}

/-- Where no name is routed, the text stays as it is but for insertions. -/
theorem Makes.same (makes : Makes (fun _ _ => none) offset source edits made lookups)
    (tables : ∀ edit ∈ edits, ∃ offset text, edit = .tableName offset text) : made = source := by
  induction makes with
  | kept => rfl
  | tableName _ ih =>
    rw [ih fun edit member => tables edit (List.mem_cons_of_mem _ member)]
    rfl
  | projection =>
    obtain ⟨_, _, other⟩ := tables _ List.mem_cons_self
    cases other

/-- Without edits the text stays as it is. -/
theorem Makes.eq_source (makes : Makes mapper offset source [] made lookups) : made = source := by
  cases makes
  rfl

/-- More text before the edits stays as it is. -/
theorem Makes.behind {front : List Char}
    (makes : Makes mapper (offset + width front) source edits made lookups) :
    Makes mapper offset (front ++ source) edits (front ++ made) lookups := by
  cases makes with
  | kept => exact .kept
  | tableName more =>
    rw [Nat.add_assoc offset, ← width_append] at more ⊢
    rw [← List.append_assoc front, ← List.append_assoc front]
    exact .tableName more
  | projection more =>
    rw [Nat.add_assoc offset, ← width_append] at more ⊢
    rw [← List.append_assoc front, ← List.append_assoc front]
    exact .projection more

/-- The name that the edit looks up. -/
def lookup? : Edit → Option String
  | .tableName _ text => some (stripQuotes text)
  | .projection _ _ => none

/-- Each table name is looked up once, the last one first. -/
theorem Makes.lookups_eq (makes : Makes mapper offset source edits made lookups) :
    lookups = (edits.filterMap lookup?).reverse := by
  induction makes with
  | kept => rfl
  | tableName _ ih => simp [lookup?, ih]
  | projection _ ih => rw [ih, List.filterMap_cons_none rfl]

/-- The edits have been made behind `front`: what is left before `boundary` is the text as it was. -/
structure Made (front made : List Char) (lookups : List String) (state : Splicing) : Prop where
  text : state.text = front ++ made
  boundary : width front ≤ state.boundary
  lookups : state.lookups = lookups
  warnings : state.warnings = []

/-- A table name that stands before the boundary is looked up, and replaced by the answer. -/
theorem Made.tableName {front before : List Char} {text : String} {state : Splicing}
    (state_made : Made (front ++ before ++ text.toList) made lookups state) :
    Made front (before ++ (((mapper lookups (stripQuotes text)).getD text).toList ++ made))
      (lookups ++ [stripQuotes text])
      (Splicing.apply (front ++ (before ++ (text.toList ++ source))) mapper state
        (.tableName (width front + width before) text)) := by
  obtain ⟨whole, boundary, rfl, none⟩ := state_made
  have found : slice? (width front + width before)
      (width front + width before + text.utf8ByteSize)
      (front ++ (before ++ (text.toList ++ source))) = some text.toList := by
    rw [← List.append_assoc, ← width_append, ← width_toList]
    exact slice?_append _ _ _
  have inside : width front + width before + text.utf8ByteSize ≤ state.boundary := by
    simpa [Nat.add_assoc] using boundary
  rw [Splicing.apply]
  simp only [inside, found, decide_true, beq_self_eq_true, Bool.and_self, if_true]
  cases mapper state.lookups (stripQuotes text) with
  | none => exact ⟨by simp [whole], by simp, rfl, none⟩
  | some new =>
    have replaced : replace? (width front + width before)
        (width front + width before + text.utf8ByteSize) new.toList state.text =
          some (front ++ before ++ new.toList ++ made) := by
      rw [whole, ← width_append, ← width_toList, List.append_assoc _ text.toList]
      exact replace?_append _ _ _ _
    exact ⟨by simp [Splicing.splice, replaced], by simp [Splicing.splice], rfl, none⟩

/-- An insertion before the boundary is made. -/
theorem Made.projection {front before : List Char} {columns : List String} {state : Splicing}
    (state_made : Made (front ++ before) made lookups state) :
    Made front (before ++ ((insertion columns).toList ++ made)) lookups
      (Splicing.apply (front ++ (before ++ source)) mapper state
        (.projection (width front + width before) columns)) := by
  obtain ⟨whole, boundary, rfl, none⟩ := state_made
  rw [← width_append]
  have stands : isBoundary (width (front ++ before)) (front ++ (before ++ source)) = true := by
    rw [← List.append_assoc]
    exact isBoundary_append _ _
  have replaced : replace? (width (front ++ before)) (width (front ++ before))
      (insertion columns).toList state.text =
        some (front ++ before ++ (insertion columns).toList ++ made) := by
    rw [whole]
    exact replace?_append _ [] _ _
  rw [Splicing.apply]
  simp only [boundary, stands, decide_true, Bool.and_self, if_true]
  refine ⟨?_, by simp [Splicing.splice], rfl, none⟩
  rw [Splicing.splice, replaced]
  simp

/-- Edits that stand behind `front` are made there, the last one first. -/
theorem Makes.foldr_apply {front : List Char}
    (makes : Makes mapper offset source edits made lookups) (behind : offset = width front) :
    Made front made lookups
      (edits.foldr (fun edit state => Splicing.apply (front ++ source) mapper state edit)
        (Splicing.start (front ++ source))) := by
  induction makes generalizing front with
  | kept => exact ⟨rfl, by simp [Splicing.start], rfl, rfl⟩
  | @tableName _ before source _ text _ _ _ ih =>
    subst behind
    have state_made := @ih (front ++ before ++ text.toList) (by simp [Nat.add_assoc])
    simp only [List.append_assoc] at state_made
    rw [List.foldr_cons]
    refine Made.tableName ?_
    simpa using state_made
  | @projection _ before source _ _ _ _ _ ih =>
    subst behind
    have state_made := @ih (front ++ before) (by simp)
    simp only [List.append_assoc] at state_made
    rw [List.foldr_cons]
    exact Made.projection state_made

end Edit

/-- Edits that stand one behind the other in a query are all made, in whatever order they are
given. -/
theorem Splicing.runWith_of_makes {mapper : Mapper} {query : String} {edits ascending : List Edit}
    {made : List Char} {lookups : List String}
    (makes : Edit.Makes mapper 0 query.toList ascending made lookups)
    (perm : edits.Perm ascending)
    (ordered : ascending.Pairwise fun first second => first.offset < second.offset) :
    (runWith edits mapper query).text = made ∧ (runWith edits mapper query).lookups = lookups ∧
      (runWith edits mapper query).warnings = [] := by
  have backwards : ascending.reverse.Pairwise fun first second => second.offset < first.offset :=
    List.pairwise_reverse.mpr ordered
  have run : runWith edits mapper query = ascending.foldr
      (fun edit state => apply query.toList mapper state edit) (start query.toList) := by
    rw [runWith, Edit.descending_eq_reverse perm ordered, Edit.dropRepeats_of_pairwise backwards,
      List.foldl_reverse]
  rw [run]
  have made := makes.foldr_apply Text.width_nil.symm
  exact ⟨made.text, made.lookups, made.warnings⟩

end SelectRouting
