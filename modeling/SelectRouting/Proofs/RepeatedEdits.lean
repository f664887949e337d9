import SelectRouting.Proofs.PiecewiseSplicing

/-!
# Giving an edit once more

Edits that are given twice are dropped where they come one after the other in the order in which they
are tried. A copy that another edit of its offset parts from the first one is tried again. That changes
nothing for a name, which no longer fits before itself, but an insertion is made a second time
(`Splicing.run_append_repeat`).
-/

namespace SelectRouting

namespace Edit
open Text

variable {source : List Char} {bound : Nat} {edit : Edit} {edits front behind : List Edit}

section Order

/-- An edit is placed before those of its own offset and of smaller ones, whatever they are. -/
theorem place_within (below : ∀ other ∈ behind, other.offset ≤ edit.offset) :
    place edit (front ++ behind) = place edit front ++ behind := by
  induction front with
  | nil => exact place_before below
  | cons other front ih =>
    rw [List.cons_append, place, place, ih]
    split <;> rfl

/-- An edit that is given behind all others is tried behind those of its offset. -/
theorem exists_descending_append (edits : List Edit) (edit : Edit) :
    ∃ front behind, descending edits = front ++ behind ∧
      descending (edits ++ [edit]) = front ++ edit :: behind ∧
      (∀ other ∈ front, edit.offset ≤ other.offset) ∧
      ∀ other ∈ behind, other.offset < edit.offset := by
  induction edits with
  | nil => exact ⟨[], [], rfl, rfl, by simp, by simp⟩
  | cons other edits ih =>
    obtain ⟨front, behind, without, with_edit, above, below⟩ := ih
    change ∃ front' behind', place other (descending edits) = front' ++ behind' ∧
      place other (descending (edits ++ [edit])) = front' ++ edit :: behind' ∧ _
    rw [without, with_edit]
    by_cases greater : edit.offset ≤ other.offset
    · refine ⟨place other front, behind, place_within ?_, place_within ?_, ?_, below⟩
      · exact fun another member => Nat.le_trans (Nat.le_of_lt (below another member)) greater
      · intro another member
        rcases List.mem_cons.mp member with rfl | member
        · exact greater
        · exact Nat.le_trans (Nat.le_of_lt (below another member)) greater
      · intro another member
        rcases List.mem_cons.mp ((place_perm other front).mem_iff.mp member) with rfl | member
        · exact greater
        · exact above another member
    · have smaller : other.offset < edit.offset := Nat.not_le.mp greater
      refine ⟨front, place other behind, place_behind ?_, ?_, above, ?_⟩
      · exact fun another member => Nat.lt_of_lt_of_le smaller (above another member)
      · rw [← List.singleton_append, ← List.append_assoc, place_behind, List.append_assoc,
          List.singleton_append]
        intro another member
        rcases List.mem_append.mp member with member | member
        · exact Nat.lt_of_lt_of_le smaller (above another member)
        · rwa [List.mem_singleton.mp member]
      · intro another member
        rcases List.mem_cons.mp ((place_perm other behind).mem_iff.mp member) with rfl | member
        · exact smaller
        · exact below another member

/-- Edits of one offset are tried in the order in which they are given. -/
theorem filter_place (offset : Nat) (edit : Edit) (edits : List Edit) :
    (place edit edits).filter (·.offset = offset) =
      (edit :: edits).filter (·.offset = offset) := by
  induction edits with
  | nil => rfl
  | cons other edits ih =>
    rw [place]
    split
    · rfl
    · next above =>
      rw [List.filter_cons, ih]
      by_cases own : edit.offset = offset
      · have elsewhere : other.offset ≠ offset := by omega
        simp [own, elsewhere]
      · simp [List.filter_cons, own]

theorem filter_descending (offset : Nat) (edits : List Edit) :
    (descending edits).filter (·.offset = offset) = edits.filter (·.offset = offset) := by
  induction edits with
  | nil => rfl
  | cons edit edits ih =>
    change (place edit (descending edits)).filter _ = _
    rw [filter_place, List.filter_cons, List.filter_cons, ih]

end Order

section Repeats

theorem mem_dropRepeats (member : edit ∈ edits) : edit ∈ dropRepeats edits := by
  induction edits using dropRepeats.induct with
  | case1 => exact member
  | case2 => exact member
  | case3 other next edits same ih =>
    obtain rfl := beq_iff_eq.mp same
    rw [dropRepeats, if_pos same]
    exact ih (by simpa using member)
  | case4 other next edits different ih =>
    rw [dropRepeats, if_neg different]
    rcases List.mem_cons.mp member with rfl | member
    · exact List.mem_cons_self
    · exact List.mem_cons_of_mem _ (ih member)

theorem dropRepeats_subset (edits : List Edit) : dropRepeats edits ⊆ edits := by
  rw [dropRepeats_eq_destutter]
  exact (List.destutter_sublist _ edits).subset

/-- An edit is kept that is not the next one. -/
theorem dropRepeats_cons (apart : ∀ next ∈ behind.head?, edit ≠ next) :
    dropRepeats (edit :: behind) = edit :: dropRepeats behind := by
  cases behind with
  | nil => rfl
  | cons next behind =>
    rw [dropRepeats]
    exact if_neg (by simpa using apart next rfl)

/-- Where no edit is given again, the repeats are dropped on either side. -/
theorem dropRepeats_append (apart : ∀ last ∈ front.getLast?, ∀ next ∈ behind.head?, last ≠ next) :
    dropRepeats (front ++ behind) = dropRepeats front ++ dropRepeats behind := by
  induction front using dropRepeats.induct with
  | case1 => rfl
  | case2 edit => exact dropRepeats_cons (apart edit rfl)
  | case3 edit next front same ih =>
    rw [List.cons_append, List.cons_append, dropRepeats, if_pos same, dropRepeats, if_pos same]
    exact ih (by simpa using apart)
  | case4 edit next front different ih =>
    rw [List.cons_append, List.cons_append, dropRepeats, if_neg different, dropRepeats,
      if_neg different, List.cons_append, ← List.cons_append, ih (by simpa using apart)]

/-- A copy directly behind an edit is dropped. -/
theorem dropRepeats_repeat (edit : Edit) (front behind : List Edit) :
    dropRepeats (front ++ edit :: edit :: behind) = dropRepeats (front ++ edit :: behind) := by
  induction front using dropRepeats.induct with
  | case1 => exact if_pos (beq_self_eq_true edit)
  | case2 other =>
    rw [List.singleton_append, List.singleton_append, dropRepeats, dropRepeats,
      dropRepeats, if_pos (beq_self_eq_true edit)]
  | case3 other next front same ih =>
    rw [List.cons_append, List.cons_append, dropRepeats, if_pos same, List.cons_append,
      List.cons_append, dropRepeats, if_pos same]
    exact ih
  | case4 other next front different ih =>
    rw [List.cons_append, List.cons_append, dropRepeats, if_neg different, List.cons_append,
      List.cons_append, dropRepeats, if_neg different]
    exact congrArg _ ih

/-- The edits of an offset that are tried last end with the one that is given last. -/
theorem exists_last {edits front behind : List Edit} (member : edit ∈ edits)
    (split : descending edits = front ++ behind) (above : ∀ other ∈ front, edit.offset ≤ other.offset)
    (below : ∀ other ∈ behind, other.offset < edit.offset) :
    edit ∈ front ∧ ∃ last first, front = first ++ [last] ∧ last.offset = edit.offset ∧
      (edits.filter (·.offset = edit.offset)).getLast? = some last := by
  have inside : edit ∈ front := by
    have among := (descending_perm edits).mem_iff.mpr member
    rw [split] at among
    exact (List.mem_append.mp among).resolve_right fun later => Nat.lt_irrefl _ (below edit later)
  refine ⟨inside, ?_⟩
  obtain ⟨first, last, rfl⟩ : ∃ first last, front = first ++ [last] := by
    simpa using (List.eq_nil_or_concat front).resolve_left (List.ne_nil_of_mem inside)
  have ordered := descending_pairwise edits
  rw [split, List.pairwise_append, List.pairwise_append] at ordered
  have own : last.offset = edit.offset := by
    refine Nat.le_antisymm ?_ (above last (by simp))
    rcases List.mem_append.mp inside with inside | inside
    · exact ordered.1.2.2 edit inside last (by simp)
    · rw [List.mem_singleton.mp inside]
  have none : behind.filter (·.offset = edit.offset) = [] :=
    List.filter_eq_nil_iff.mpr fun other later => by simpa using Nat.ne_of_lt (below other later)
  refine ⟨last, first, rfl, own, ?_⟩
  rw [← filter_descending, split, List.filter_append, List.filter_append, none]
  simp [own]

end Repeats

section Reach

/-- The offset of the last edit that is made, `bound` when none is. -/
def reach (source : List Char) : Nat → List Edit → Nat
  | bound, [] => bound
  | bound, edit :: edits =>
    if edit.Fits source bound then reach source edit.offset edits else reach source bound edits

theorem offset_le_stop (edit : Edit) : edit.offset ≤ edit.stop := by
  rw [stop_eq]
  exact Nat.le_add_right _ _

theorem reach_append (bound : Nat) (front behind : List Edit) :
    reach source bound (front ++ behind) = reach source (reach source bound front) behind := by
  induction front generalizing bound with
  | nil => rfl
  | cons edit front ih =>
    rw [List.cons_append, reach, reach]
    split
    · exact ih _
    · exact ih _

/-- The edits are made further and further to the front. -/
theorem reach_le (bound : Nat) (edits : List Edit) : reach source bound edits ≤ bound := by
  induction edits generalizing bound with
  | nil => exact Nat.le_refl bound
  | cons edit edits ih =>
    rw [reach]
    split
    · next fits => exact Nat.le_trans (ih _) (Nat.le_trans edit.offset_le_stop fits.2)
    · exact ih bound

theorem le_reach {offset : Nat} (within : offset ≤ bound)
    (above : ∀ edit ∈ edits, offset ≤ edit.offset) : offset ≤ reach source bound edits := by
  induction edits generalizing bound with
  | nil => exact within
  | cons edit edits ih =>
    have more : ∀ other ∈ edits, offset ≤ other.offset := fun other member =>
      above other (List.mem_cons_of_mem _ member)
    rw [reach]
    split
    · exact ih (above edit List.mem_cons_self) more
    · exact ih within more

/-- What is made of the edits behind others stands before what is made of those. -/
theorem exists_pieces_append (physical : String → Option String) (bound : Nat) (front : List Edit) :
    ∃ tail, ∀ behind, pieces physical source bound (accepted source bound (front ++ behind)) =
      pieces physical source (reach source bound front)
        (accepted source (reach source bound front) behind) ++ tail := by
  induction front generalizing bound with
  | nil => exact ⟨[], fun behind => (List.append_nil _).symm⟩
  | cons edit front ih =>
    by_cases fits : edit.Fits source bound
    · obtain ⟨tail, made⟩ := ih edit.offset
      refine ⟨tail ++ (edit.replacement physical ++ part edit.stop bound source), fun behind => ?_⟩
      rw [List.cons_append, accepted, if_pos fits, reach, if_pos fits, pieces, made]
      simp
    · obtain ⟨tail, made⟩ := ih bound
      refine ⟨tail, fun behind => ?_⟩
      rw [List.cons_append, accepted, if_neg fits, reach, if_neg fits, made]

/-- Behind itself an edit can be made again only when it is about no text. -/
theorem reach_eq_offset (member : edit ∈ edits) (above : ∀ other ∈ edits, edit.offset ≤ other.offset)
    (fits : edit.Fits source (reach source bound edits)) :
    edit.written = [] ∧ reach source bound edits = edit.offset := by
  obtain ⟨front, behind, rfl⟩ := List.append_of_mem member
  rw [reach_append] at fits ⊢
  generalize reach source bound front = before at fits ⊢
  have first : edit.Fits source before := ⟨fits.1, Nat.le_trans fits.2 (reach_le _ _)⟩
  rw [reach, if_pos first] at fits ⊢
  have least := Nat.le_trans fits.2 (reach_le _ _)
  rw [stop_eq] at least
  refine ⟨?_, Nat.le_antisymm (reach_le _ _) (le_reach (Nat.le_refl _) ?_)⟩
  · cases written : edit.written with
    | nil => rfl
    | cons c cs =>
      have wide := c.utf8Size_pos
      rw [written, width_cons] at least
      omega
  · exact fun other member => above other (List.mem_append_right _ (List.mem_cons_of_mem _ member))

end Reach

/-- The bytes before an edit that stands in a text are bytes of the text. -/
theorem Stands.stop_le (stands : edit.Stands source) : edit.stop ≤ width source := by
  obtain ⟨before, after, rfl, offset⟩ := stands
  rw [stop_eq, ← offset, width_append, width_append]
  omega

end Edit

namespace Splicing
open Text Edit

/-- An edit that is tried once more behind another one of its offset is made again exactly when it is
about no text and stands in the source; that leaves its replacement twice. -/
theorem pieces_again {source : List Char} {edit : Edit} {front : List Edit} (member : edit ∈ front)
    (above : ∀ other ∈ front, edit.offset ≤ other.offset) (physical : String → Option String)
    (behind : List Edit) :
    pieces physical source (width source) (accepted source (width source) (front ++ edit :: behind)) =
        pieces physical source (width source) (accepted source (width source) (front ++ behind)) ↔
      edit.written ≠ [] ∨ ¬ edit.Stands source ∨ edit.replacement physical = [] := by
  obtain ⟨tail, made⟩ := @exists_pieces_append source physical (width source) front
  rw [made, made, List.append_cancel_right_eq, accepted]
  by_cases fits : edit.Fits source (reach source (width source) front)
  · obtain ⟨empty, reached⟩ := reach_eq_offset member above fits
    have nothing : part edit.stop edit.offset source = [] := by
      obtain ⟨before, after, rfl, offset⟩ := fits.1
      rw [stop_eq, empty, width_nil, Nat.add_zero, ← offset]
      exact part_append before [] _
    rw [if_pos fits, reached, pieces, nothing, List.append_nil, List.append_right_eq_self]
    simp [empty, fits.1]
  · rw [if_neg fits, eq_self_iff_true, true_iff]
    by_contra other
    obtain ⟨empty, stands, _⟩ : edit.written = [] ∧ edit.Stands source ∧ _ := by simpa using other
    refine fits ⟨stands, ?_⟩
    have within := stands.stop_le
    rw [stop_eq, empty, width_nil, Nat.add_zero] at within ⊢
    exact le_reach within above

/-- One more copy of an edit that is given already changes nothing, unless the edit is about no text,
stands at a boundary, puts some text in, and another edit of its offset is given behind it. -/
theorem run_append_repeat {edits : List Edit} {edit : Edit} (member : edit ∈ edits)
    (physical : String → Option String) (query : String) :
    (run (edits ++ [edit]) physical query).text = (run edits physical query).text ↔
      edit.written ≠ [] ∨ ¬ edit.Stands query.toList ∨ edit.replacement physical = [] ∨
        (edits.filter (·.offset = edit.offset)).getLast? = some edit := by
  obtain ⟨front, behind, without, repeated, above, below⟩ := exists_descending_append edits edit
  obtain ⟨inside, last, first, rfl, own, given⟩ := exists_last member without above below
  rw [text_run, text_run, ← dropRepeats_descending, ← dropRepeats_descending, without, repeated,
    given]
  by_cases same : last = edit
  · subst same
    simp [dropRepeats_repeat]
  · have next (other : Edit) (head : other ∈ behind.head?) : edit.offset ≠ other.offset :=
      Nat.ne_of_gt (below other (List.mem_of_mem_head? head))
    have parted : dropRepeats (first ++ [last] ++ edit :: behind) =
        dropRepeats (first ++ [last]) ++ edit :: dropRepeats behind := by
      rw [dropRepeats_append (by simpa using same), dropRepeats_cons]
      exact fun other head eq => next other head (congrArg Edit.offset eq)
    have whole : dropRepeats (first ++ [last] ++ behind) =
        dropRepeats (first ++ [last]) ++ dropRepeats behind :=
      dropRepeats_append (by
        simpa using fun other head eq => next other head (own ▸ congrArg Edit.offset eq))
    rw [parted, whole, pieces_again (mem_dropRepeats inside)
      fun other member => above other (dropRepeats_subset _ member)]
    simp [same]

/-- A name whose copy another edit of its offset parts from it. -/
theorem run_append_repeat_of_name :
    let edits : List Edit := [.tableName 14 "t", .projection 14 ["b"], .projection 9 ["c"]]
    let edit : Edit := .tableName 14 "t"
    let physical : String → Option String := fun _ => some "t_0"
    edit ∈ edits ∧
      ((run (edits ++ [edit]) physical "SELECT a FROM t").text =
          (run edits physical "SELECT a FROM t").text ↔
        edit.written ≠ [] ∨ ¬ edit.Stands "SELECT a FROM t".toList ∨
          edit.replacement physical = [] ∨
          (edits.filter (·.offset = edit.offset)).getLast? = some edit) ∧
      (run (edits ++ [edit]) physical "SELECT a FROM t").text =
        "SELECT a , c FROM , b t_0".toList ∧
      (run (edits ++ [edit]) physical "SELECT a FROM t").warnings = [.mismatchedTable 14 "t"] := by
  refine ⟨by decide, run_append_repeat (by decide) _ _, by decide, by decide⟩

/-- An insertion is made a second time when another one of its offset parts its copy from it. -/
theorem insertion_made_again :
    let edits : List Edit := [.projection 9 ["b"], .projection 9 ["c"]]
    let edit : Edit := .projection 9 ["b"]
    edit ∈ edits ∧
      (run edits (fun _ => none) "SELECT a FROM t").text = "SELECT a , c , b FROM t".toList ∧
      (run (edits ++ [edit]) (fun _ => none) "SELECT a FROM t").text =
        "SELECT a , b , c , b FROM t".toList ∧
      (run (edits ++ [edit]) (fun _ => none) "SELECT a FROM t").text ≠
        (run edits (fun _ => none) "SELECT a FROM t").text := by
  decide

end Splicing

end SelectRouting
