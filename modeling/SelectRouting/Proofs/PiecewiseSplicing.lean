import Mathlib.Data.List.Destutter
import SelectRouting.Proofs.Spliced

/-!
# Splicing any list of edits

The edits of a statement stand one behind the other in its text. Any other list of edits can be
spliced into a text too: edits in another order, repeated ones, edits that overlap, that stand past the
end of the text or inside a character, or that are about a text which is not there. Which of them are
made can be told from the text as it was, and the result consists of pieces of it with the
replacements between them (`Splicing.run_eq_pieces`).
-/

namespace SelectRouting

namespace Text

/-- The characters between two offsets, none when these are no places of the text. -/
def part (start stop : Nat) (cs : List Char) : List Char :=
  (slice? start stop cs).getD []

/-- A part of a text is found where it stands, and nowhere else. -/
theorem slice?_eq_some_iff {start stop : Nat} {cs middle : List Char} :
    slice? start stop cs = some middle ↔ ∃ before after, cs = before ++ (middle ++ after) ∧
      width before = start ∧ start + width middle = stop := by
  constructor
  · intro found
    unfold slice? at found
    split at found
    · next ordered =>
      obtain ⟨⟨before, behind⟩, first, found⟩ := Option.bind_eq_some_iff.mp found
      obtain ⟨⟨inner, after⟩, second, found⟩ := Option.bind_eq_some_iff.mp found
      obtain rfl : inner = middle := Option.some.inj found
      obtain ⟨rfl, rfl⟩ := eq_append_of_splitAt? first
      obtain ⟨rfl, size⟩ := eq_append_of_splitAt? second
      exact ⟨before, after, rfl, rfl, by omega⟩
    · cases found
  · rintro ⟨before, after, rfl, rfl, rfl⟩
    exact slice?_append before middle after

/-- A boundary is the end of a front of the text. -/
theorem isBoundary_iff {offset : Nat} {cs : List Char} :
    isBoundary offset cs = true ↔ ∃ before after, cs = before ++ after ∧ width before = offset := by
  rw [isBoundary, Option.isSome_iff_exists]
  constructor
  · rintro ⟨⟨before, after⟩, cut⟩
    exact ⟨before, after, eq_append_of_splitAt? cut⟩
  · rintro ⟨before, after, rfl, rfl⟩
    exact ⟨_, splitAt?_width before after⟩

theorem part_append (before middle after : List Char) :
    part (width before) (width before + width middle) (before ++ (middle ++ after)) = middle := by
  rw [part, slice?_append, Option.getD_some]

/-- Of two fronts of a text the narrower one is a front of the other. -/
theorem exists_between {first second third fourth : List Char}
    (same : first ++ second = third ++ fourth) (within : width first ≤ width third) :
    ∃ middle, third = first ++ middle ∧ second = middle ++ fourth := by
  rcases List.append_eq_append_iff.mp same with ⟨middle, rfl, rfl⟩ | ⟨middle, rfl, rfl⟩
  · exact ⟨middle, rfl, rfl⟩
  · rw [width_append] at within
    cases middle with
    | nil => exact ⟨[], by simp, by simp⟩
    | cons c middle =>
      have wide := c.utf8Size_pos
      rw [width_cons] at within
      omega

theorem length_lt_of_width_lt {first second third fourth : List Char}
    (same : first ++ second = third ++ fourth) (narrower : width first < width third) :
    first.length < third.length := by
  obtain ⟨middle, rfl, _⟩ := exists_between same (Nat.le_of_lt narrower)
  cases middle with
  | nil =>
    rw [List.append_nil] at narrower
    exact absurd narrower (Nat.lt_irrefl _)
  | cons c middle =>
    rw [List.length_append, List.length_cons]
    omega

end Text

namespace Edit
open Text

variable {physical : String → Option String} {source : List Char} {bound : Nat} {edit : Edit}
  {edits : List Edit}

/-- The text that the edit is about; an insertion is about none. -/
def written : Edit → List Char
  | .tableName _ text => text.toList
  | .projection _ _ => []

/-- The text that the edit leaves in place of the one that it is about. -/
def replacement (physical : String → Option String) : Edit → List Char
  | .tableName _ text => ((physical (stripQuotes text)).getD text).toList
  | .projection _ columns => (insertion columns).toList

/-- The warning that an edit which is not made leaves. -/
def warning : Edit → Warning
  | .tableName offset text => .mismatchedTable offset text
  | .projection offset _ => .misplacedInsertion offset

/-- The text that the edit is about stands at its offset. -/
def Stands (edit : Edit) (source : List Char) : Prop :=
  ∃ before after, source = before ++ (edit.written ++ after) ∧ width before = edit.offset

theorem stop_eq (edit : Edit) : edit.stop = edit.offset + width edit.written := by
  cases edit <;> simp [stop, offset, written]

theorem slice?_eq_some_written_iff :
    slice? edit.offset edit.stop source = some edit.written ↔ edit.Stands source := by
  rw [slice?_eq_some_iff, stop_eq]
  simp [Stands]

instance (edit : Edit) (source : List Char) : Decidable (edit.Stands source) :=
  decidable_of_iff _ slice?_eq_some_written_iff

/-- The edit can be made in the part of the source before `bound`. -/
def Fits (source : List Char) (bound : Nat) (edit : Edit) : Prop :=
  edit.Stands source ∧ edit.stop ≤ bound

instance (source : List Char) (bound : Nat) (edit : Edit) : Decidable (edit.Fits source bound) :=
  inferInstanceAs (Decidable (_ ∧ _))

/-- The edits from the last offset to the first, those of one offset in their given order, without
those that equal the one before them. -/
def inOrder (edits : List Edit) : List Edit :=
  (edits.mergeSort fun first second => second.offset ≤ first.offset).destutter (· ≠ ·)

/-- The edits that are made: each of those that fit before the last one that was made. -/
def accepted (source : List Char) : Nat → List Edit → List Edit
  | _, [] => []
  | bound, edit :: edits =>
    if edit.Fits source bound then edit :: accepted source edit.offset edits
    else accepted source bound edits

/-- The edits that are left out. -/
def rejected (source : List Char) : Nat → List Edit → List Edit
  | _, [] => []
  | bound, edit :: edits =>
    if edit.Fits source bound then rejected source edit.offset edits
    else edit :: rejected source bound edits

/-- The source up to `bound` with the replacements of the edits, each of which stands before the one
ahead of it in the list, between the pieces that no edit is about. -/
def pieces (physical : String → Option String) (source : List Char) : Nat → List Edit → List Char
  | bound, [] => part 0 bound source
  | bound, edit :: edits =>
    pieces physical source edit.offset edits ++ edit.replacement physical ++
      part edit.stop bound source

section Order

theorem offset_trans (first second third : Edit)
    (left : decide (second.offset ≤ first.offset) = true)
    (right : decide (third.offset ≤ second.offset) = true) :
    decide (third.offset ≤ first.offset) = true :=
  decide_eq_true (Nat.le_trans (of_decide_eq_true right) (of_decide_eq_true left))

theorem offset_total (first second : Edit) :
    (decide (second.offset ≤ first.offset) || decide (first.offset ≤ second.offset)) = true := by
  simpa using Nat.le_total second.offset first.offset

theorem mergeSort_pairwise (edits : List Edit) :
    (edits.mergeSort fun first second => second.offset ≤ first.offset).Pairwise
      fun first second => second.offset ≤ first.offset :=
  (List.pairwise_mergeSort offset_trans offset_total edits).imp of_decide_eq_true

/-- An edit is placed behind those of greater offsets. -/
theorem place_behind {front behind : List Edit}
    (above : ∀ other ∈ front, edit.offset < other.offset) :
    place edit (front ++ behind) = front ++ place edit behind := by
  induction front with
  | nil => rfl
  | cons other front ih =>
    have greater := above other List.mem_cons_self
    rw [List.cons_append, place, if_neg (Nat.not_le.mpr greater),
      ih fun another member => above another (List.mem_cons_of_mem _ member)]
    rfl

/-- An edit is placed before those of its own offset and of smaller ones. -/
theorem place_before {behind : List Edit} (below : ∀ other ∈ behind, other.offset ≤ edit.offset) :
    place edit behind = edit :: behind := by
  cases behind with
  | nil => rfl
  | cons other behind => exact if_pos (below other List.mem_cons_self)

/-- Placing the edits one by one sorts them. -/
theorem descending_eq_mergeSort (edits : List Edit) :
    descending edits = edits.mergeSort fun first second => second.offset ≤ first.offset := by
  induction edits with
  | nil => exact List.mergeSort_nil.symm
  | cons edit edits ih =>
    obtain ⟨front, behind, sorted, others, above⟩ :=
      List.mergeSort_cons offset_trans offset_total edit edits
    have ordered := mergeSort_pairwise (edit :: edits)
    rw [sorted, List.pairwise_append] at ordered
    rw [sorted]
    change place edit (descending edits) = _
    rw [ih, others, place_behind (by simpa using above),
      place_before (List.pairwise_cons.mp ordered.2.1).1]

theorem dropRepeats_eq_destutter (edits : List Edit) :
    dropRepeats edits = edits.destutter (· ≠ ·) := by
  induction edits using dropRepeats.induct with
  | case1 => rfl
  | case2 edit => rfl
  | case3 edit next edits same ih =>
    obtain rfl := beq_iff_eq.mp same
    rw [dropRepeats, if_pos same, ih, List.destutter_cons_cons, if_neg (by simp)]
    rfl
  | case4 edit next edits other ih =>
    have different : edit ≠ next := fun same => other (beq_iff_eq.mpr same)
    rw [dropRepeats, if_neg other, ih, List.destutter_cons_cons, if_pos different]
    rfl

theorem dropRepeats_descending (edits : List Edit) : dropRepeats (descending edits) = inOrder edits := by
  rw [dropRepeats_eq_destutter, descending_eq_mergeSort, inOrder]

end Order

end Edit

namespace Splicing
open Text

variable (physical : String → Option String) {source made : List Char} {state : Splicing}
  {edit : Edit}

/-- The source stands in the text as it was up to the boundary, and `made` behind it. -/
def Keeps (source made : List Char) (state : Splicing) : Prop :=
  ∃ front behind, source = front ++ behind ∧ state.text = front ++ made ∧
    width front = state.boundary

theorem keeps_start (source : List Char) : Keeps source [] (start source) :=
  ⟨source, [], by simp, by simp [start], rfl⟩

/-- What is left in place of the edit stands before what was made behind it. -/
theorem Keeps.exists_front (keeps : Keeps source made state) (fits : edit.Fits source state.boundary) :
    ∃ before between after, source = before ++ (edit.written ++ (between ++ after)) ∧
      state.text = before ++ (edit.written ++ (between ++ made)) ∧
      width before = edit.offset ∧ width before + width edit.written + width between =
        state.boundary := by
  obtain ⟨front, behind, same, text, boundary⟩ := keeps
  obtain ⟨⟨before, after, stands, offset⟩, within⟩ := fits
  rw [stands, ← List.append_assoc] at same
  rw [edit.stop_eq, ← boundary, ← offset, ← width_append] at within
  obtain ⟨between, rfl, rfl⟩ := exists_between same within
  refine ⟨before, between, behind, stands, ?_, offset, ?_⟩
  · rw [text, List.append_assoc, List.append_assoc]
  · rw [← boundary, width_append, width_append]

/-- An edit that fits falls on a range of the text as it is. -/
theorem Keeps.replace? (keeps : Keeps source made state) (fits : edit.Fits source state.boundary)
    (new : List Char) : (Text.replace? edit.offset edit.stop new state.text).isSome = true := by
  obtain ⟨before, between, after, _, text, offset, _⟩ := keeps.exists_front fits
  rw [edit.stop_eq, text, ← offset, replace?_append, Option.isSome_some]

/-- An edit that fits is made: what is left in its place stands at its offset, and the piece up to the
edit that was made before it is kept. -/
theorem Keeps.apply_fits (keeps : Keeps source made state) (fits : edit.Fits source state.boundary) :
    Keeps source (edit.replacement physical ++ part edit.stop state.boundary source ++ made)
        (apply source (fun _ => physical) state edit) ∧
      (apply source (fun _ => physical) state edit).boundary = edit.offset ∧
      (apply source (fun _ => physical) state edit).lookups =
        state.lookups ++ edit.lookup?.toList ∧
      (apply source (fun _ => physical) state edit).warnings = state.warnings := by
  obtain ⟨before, between, after, whole, text, offset, boundary⟩ := keeps.exists_front fits
  have kept : part edit.stop state.boundary source = between := by
    rw [edit.stop_eq, ← boundary, ← offset, whole, ← List.append_assoc, ← width_append]
    exact part_append _ _ _
  have replaced (new : List Char) : Text.replace? edit.offset edit.stop new state.text =
      some (before ++ new ++ (between ++ made)) := by
    rw [edit.stop_eq, text, ← offset]
    exact replace?_append _ _ _ _
  have found := Edit.slice?_eq_some_written_iff.mpr fits.1
  rw [kept]
  cases edit with
  | tableName place name =>
    change slice? place (place + name.utf8ByteSize) source = some name.toList at found
    have within : place + name.utf8ByteSize ≤ state.boundary := fits.2
    rw [apply]
    simp only [within, found, decide_true, beq_self_eq_true, Bool.and_self, if_true]
    cases answer : physical (stripQuotes name) with
    | none =>
      refine ⟨⟨before, _, whole, ?_, offset⟩, rfl, rfl, rfl⟩
      simp [text, Edit.replacement, Edit.written, answer]
    | some new =>
      refine ⟨⟨before, _, whole, ?_, offset⟩, rfl, rfl, rfl⟩
      have made := replaced new.toList
      simp only [Edit.offset, Edit.stop] at made
      simp [splice, made, Edit.replacement, answer]
  | projection place columns =>
    have within : place ≤ state.boundary := fits.2
    have stands : isBoundary place source = true :=
      isBoundary_iff.mpr ⟨before, _, whole, offset⟩
    rw [apply]
    simp only [within, stands, decide_true, Bool.and_self, if_true]
    refine ⟨⟨before, _, whole, ?_, offset⟩, rfl, (List.append_nil _).symm, rfl⟩
    have made := replaced (Edit.insertion columns).toList
    simp only [Edit.offset, Edit.stop] at made
    simp [splice, made, Edit.replacement]

/-- An edit that does not fit is left out with a warning. -/
theorem apply_unfit (unfit : ¬ edit.Fits source state.boundary) :
    apply source (fun _ => physical) state edit =
      { state with warnings := state.warnings ++ [edit.warning] } := by
  cases edit with
  | tableName place name =>
    rw [apply]
    refine if_neg fun fits => unfit ?_
    rw [Bool.and_eq_true, decide_eq_true_eq, beq_iff_eq] at fits
    exact ⟨Edit.slice?_eq_some_written_iff.mp fits.2, fits.1⟩
  | projection place columns =>
    rw [apply]
    refine if_neg fun fits => unfit ?_
    rw [Bool.and_eq_true, decide_eq_true_eq] at fits
    exact ⟨isBoundary_iff.mp fits.2, fits.1⟩

/-- The edits are made in the source before `made`, or left out, one after the other. -/
theorem Keeps.foldl_apply (keeps : Keeps source made state) (edits : List Edit) :
    let after := edits.foldl (apply source fun _ => physical) state
    let accepted := Edit.accepted source state.boundary edits
    after.text = Edit.pieces physical source state.boundary accepted ++ made ∧
      after.lookups = state.lookups ++ accepted.filterMap Edit.lookup? ∧
      after.warnings =
        state.warnings ++ (Edit.rejected source state.boundary edits).map Edit.warning := by
  induction edits generalizing made state with
  | nil =>
    obtain ⟨front, behind, whole, text, boundary⟩ := keeps
    have kept : part 0 state.boundary source = front := by
      have first := part_append [] front behind
      rw [width_nil, Nat.zero_add, List.nil_append, ← whole, boundary] at first
      exact first
    simp [Edit.accepted, Edit.rejected, Edit.pieces, kept, text]
  | cons edit edits ih =>
    rw [List.foldl_cons, Edit.accepted, Edit.rejected]
    by_cases fits : edit.Fits source state.boundary
    · obtain ⟨more, boundary, lookups, warnings⟩ := keeps.apply_fits physical fits
      obtain ⟨text, looked, warned⟩ := ih more
      rw [if_pos fits, if_pos fits]
      rw [boundary] at text looked warned
      refine ⟨?_, ?_, ?_⟩
      · rw [text]
        simp [Edit.pieces]
      · rw [looked, lookups, List.filterMap_cons]
        cases edit.lookup? <;> simp
      · rw [warned, warnings]
    · rw [if_neg fits, if_neg fits, apply_unfit physical fits]
      have left : Keeps source made { state with warnings := state.warnings ++ [edit.warning] } := keeps
      obtain ⟨text, looked, warned⟩ := ih left
      exact ⟨text, looked, by simpa using warned⟩

/-- Whatever edits have been made, some front of the source is kept. -/
theorem Keeps.exists_foldl (keeps : Keeps source made state) (edits : List Edit) :
    ∃ made, Keeps source made (edits.foldl (apply source fun _ => physical) state) := by
  induction edits generalizing made state with
  | nil => exact ⟨made, keeps⟩
  | cons edit edits ih =>
    rw [List.foldl_cons]
    by_cases fits : edit.Fits source state.boundary
    · exact ih (keeps.apply_fits physical fits).1
    · rw [apply_unfit physical fits]
      exact ih keeps

/-- The edits of a run are made, or left out, in their order. -/
theorem run_eq_foldl (edits : List Edit) (query : String) :
    run edits physical query =
      (Edit.inOrder edits).foldl (apply query.toList fun _ => physical) (start query.toList) := by
  rw [run, runWith, Edit.dropRepeats_descending]

/-- The text of a run consists of pieces of the query and the replacements of the edits that fit. -/
theorem text_run (edits : List Edit) (query : String) :
    (run edits physical query).text = Edit.pieces physical query.toList (width query.toList)
      (Edit.accepted query.toList (width query.toList) (Edit.inOrder edits)) := by
  rw [run_eq_foldl, ((keeps_start query.toList).foldl_apply physical _).1, List.append_nil]
  rfl

/-- Whatever the edits are, the query is spliced from pieces of its text and the replacements of the
edits that fit into it: those are looked up in their order, each other edit leaves one warning, and
each edit that is made falls on a range of characters of the text as it then is. -/
theorem run_eq_pieces (edits : List Edit) (physical : String → Option String) (query : String) :
    let source := query.toList
    let ordered := Edit.inOrder edits
    let accepted := Edit.accepted source (width source) ordered
    (run edits physical query).text = Edit.pieces physical source (width source) accepted ∧
      (run edits physical query).lookups = accepted.filterMap Edit.lookup? ∧
      (run edits physical query).warnings =
        (Edit.rejected source (width source) ordered).map Edit.warning ∧
      ∀ earlier edit later, ordered = earlier ++ edit :: later →
        let state := earlier.foldl (apply source fun _ => physical) (start source)
        edit.Fits source state.boundary →
          ∀ new, (Text.replace? edit.offset edit.stop new state.text).isSome = true := by
  have keeps := keeps_start query.toList
  obtain ⟨_, lookups, warnings⟩ := keeps.foldl_apply physical (Edit.inOrder edits)
  refine ⟨text_run physical edits query, ?_, ?_, fun earlier edit later _ fits new => ?_⟩
  · rw [run_eq_foldl, lookups]
    rfl
  · rw [run_eq_foldl, warnings]
    rfl
  · obtain ⟨made, kept⟩ := keeps.exists_foldl physical earlier
    exact kept.replace? fits new

end Splicing

end SelectRouting
