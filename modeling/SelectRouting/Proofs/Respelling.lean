import Mathlib.Data.List.Chain
import SelectRouting.Proofs.PlacedNames
import SelectRouting.Proofs.Query

/-!
# Names replaced in a text

Where the names that are put in a text do not run into the tokens that they touch, the text is read as
the same tokens afterwards, but for the names themselves (`Token.Spells.rewritten`).
-/

namespace SelectRouting

namespace Token
open Text

section Rewriting

/-- The second token is the first one, which becomes the table that `physical` answers for it when it
is one of those that are edited. -/
inductive Becomes (physical : String → Option String) (edited : Token → Bool) :
    Token → Token → Prop where
  | kept {token other : Token} :
      (edited token = true → physical (stripQuotes token.lexeme) = none) →
        other.kind = token.kind → other.lexeme = token.lexeme → Becomes physical edited token other
  | renamed {token other : Token} {name : String} :
      edited token = true → physical (stripQuotes token.lexeme) = some name →
        other.kind = .identifier name → other.lexeme = name → Becomes physical edited token other

/-- The second token is the first one, in place of which the one token of the text stands that
`physical` answers for it when it is one of those that are edited. -/
inductive Replaced (physical : String → Option String) (edited : Token → Bool) :
    Token → Token → Prop where
  | kept {token other : Token} :
      (edited token = true → physical (stripQuotes token.lexeme) = none) →
        other.kind = token.kind → other.lexeme = token.lexeme → Replaced physical edited token other
  | renamed {token other placed : Token} {name : String} :
      edited token = true → physical (stripQuotes token.lexeme) = some name →
        list name = [placed] → other.kind = placed.kind → other.lexeme = placed.lexeme →
          Replaced physical edited token other

/-- The token is edited and `physical` answers a table for it. -/
def isRouted (physical : String → Option String) (edited : Token → Bool) (token : Token) : Bool :=
  edited token && (physical (stripQuotes token.lexeme)).isSome

/-- The text that is made of a token. -/
def madeOf (physical : String → Option String) (edited : Token → Bool) (token : Token) : String :=
  if edited token then (physical (stripQuotes token.lexeme)).getD token.lexeme else token.lexeme

section Made
variable {physical : String → Option String} {edited : Token → Bool} {token : Token}

theorem exists_of_isRouted (routed : isRouted physical edited token = true) : edited token = true ∧
    ∃ name, physical (stripQuotes token.lexeme) = some name ∧
      madeOf physical edited token = name := by
  rw [isRouted, Bool.and_eq_true, Option.isSome_iff_exists] at routed
  obtain ⟨is, name, answer⟩ := routed
  exact ⟨is, name, answer, by rw [madeOf, if_pos is, answer, Option.getD_some]⟩

theorem none_of_not_isRouted (kept : isRouted physical edited token = false)
    (is : edited token = true) : physical (stripQuotes token.lexeme) = none := by
  simpa [isRouted, is] using kept

theorem madeOf_of_not_isRouted (kept : isRouted physical edited token = false) :
    madeOf physical edited token = token.lexeme := by
  unfold madeOf
  split
  · next is => rw [none_of_not_isRouted kept is, Option.getD_none]
  · rfl

end Made

/-- The tokens do not touch, or none of them is replaced, or what is made of the first one does not
run into what is made of the second one. -/
def Parted (physical : String → Option String) (edited : Token → Bool) (first second : Token) : Prop :=
  first.span.stop = second.start →
    (isRouted physical edited first || isRouted physical edited second) = true →
      runsInto (madeOf physical edited first) (madeOf physical edited second) = false

instance {physical : String → Option String} {edited : Token → Bool} {first second : Token} :
    Decidable (Parted physical edited first second) :=
  inferInstanceAs (Decidable (_ = _ → _ → _))

theorem isPlaceable_of_isName {name : String} (isName : IsName name) : IsPlaceable name := by
  obtain ⟨c, tail, _, parts⟩ := nameParts_of_isName isName
  exact ⟨_, _, _, _, _, parts⟩

section Names
variable {physical : String → Option String} {edited : Token → Bool} {first second : Token}

/-- A name that needs no quotes becomes the token that stands in its place. -/
theorem Replaced.becomes (names : ∀ logical name, physical logical = some name → IsName name)
    (replaced : Replaced physical edited first second) : Becomes physical edited first second := by
  cases replaced with
  | kept none kind lexeme => exact .kept none kind lexeme
  | @renamed placed name is answer are kind lexeme =>
    obtain ⟨c, tail, _, parts⟩ := nameParts_of_isName (names _ _ answer)
    have chars : name.toList = c :: tail := by simpa using parts.split
    rw [parts.list_eq, List.cons.injEq] at are
    obtain ⟨rfl, _⟩ := are
    exact .renamed is answer kind (by rw [lexeme, ← chars, String.ofList_toList])

end Names

/-- What stands before `rest` stays the same before `rest'`, unless the first of the tokens that
`rest` spells is routed and touches the text before it. What is made of a token that touches stands
at the front of `rest'`. -/
structure Follows (made : Token → String) (routed : Token → Bool) (offset : Nat) (tokens : List Token)
    (rest rest' : List Char) : Prop where
  steady : (∀ next ∈ tokens.head?, next.start = offset → routed next = false) →
    (rest'.head? = rest.head? ∨ ∀ d ∈ rest'.head?, isInert d = true) ∧ Boundary rest rest'
  touches : ∀ next ∈ tokens.head?, next.start = offset →
    ∃ d ds more, (made next).toList = d :: ds ∧ rest' = d :: (ds ++ more)
  delimits : (∀ next ∈ tokens.head?, next.start ≠ offset) → ∀ d ∈ rest'.head?, isDelimiter d = true

section Follows
variable {made : Token → String} {routed : Token → Bool} {offset : Nat} {token : Token}
  {tokens : List Token} {c : Char} {tail cs ds : List Char}

/-- What stands before a gap stays the same before the gap. -/
theorem Follows.of_gap {g : Char} (trivia : Trivia.between.length (g :: cs) ≠ 0)
    (behind : ∀ next ∈ tokens.head?, next.start ≠ offset) :
    Follows made routed offset tokens (g :: cs) (g :: ds) where
  steady _ := ⟨.inl rfl, .of_delimiter (by simpa using isDelimiter_of_trivia trivia)⟩
  touches next first start := absurd start (behind next first)
  delimits _ := by simpa using (isDelimiter_of_trivia trivia).1

/-- What is made of a token that touches the text before it. -/
theorem Follows.of_touching (start : token.start = offset) (is : (made token).toList = c :: tail)
    (steady : routed token = false →
      (c :: (tail ++ ds)).head? = cs.head? ∧ Boundary cs (c :: (tail ++ ds))) :
    Follows made routed offset (token :: tokens) cs (c :: (tail ++ ds)) where
  steady kept :=
    have same := steady (kept token rfl start)
    ⟨.inl same.1, same.2⟩
  touches next first _ := by
    obtain rfl := Option.some.inj first
    exact ⟨c, tail, ds, is, rfl⟩
  delimits apart := absurd start (apart token rfl)

theorem noTrivia_before {c : Char} {tail cs ds : List Char}
    (none : Trivia.between.length (c :: (tail ++ cs)) = 0)
    (behind : ds.head? = cs.head? ∨
      ∀ d ∈ ds.head?, (tail = [] → c = '-' → d ≠ '-') ∧ d ≠ '*') :
    Trivia.between.length (c :: (tail ++ ds)) = 0 := by
  rw [noTrivia_iff] at none ⊢
  cases tail with
  | cons d tail => exact none
  | nil =>
    simp only [List.nil_append] at none ⊢
    rcases behind with same | other
    · rwa [same]
    · exact ⟨none.1, fun is again => (other '-' again).1 rfl is rfl, fun _ opens => (other '*' opens).2 rfl⟩

/-- Inert characters open no comment. -/
theorem noComment_of_inert (inert : ∀ d ∈ ds.head?, isInert d = true) :
    ∀ d ∈ ds.head?, (tail = [] → c = '-' → d ≠ '-') ∧ d ≠ '*' := by
  refine fun d first => ⟨?_, ?_⟩
  · rintro _ _ rfl
    cases inert '-' first
  · rintro rfl
    cases inert '*' first

/-- What ends before a token ends there also where the text behind the token is another one that
makes no number longer. -/
theorem Boundary.before_token (second : ds.head? = cs.head? ∨ ∀ d ∈ ds.head?, d.isDigit = false ∧
      (tail = [] → (c == 'e' || c == 'E') = true → (d == '+' || d == '-') = false)) :
    Boundary (c :: (tail ++ cs)) (c :: (tail ++ ds)) := by
  cases tail with
  | nil => exact .of_head (second.imp_right fun other d first => (other d first).imp_right (· rfl))
  | cons d tail => exact .of_head (.inl rfl)

/-- Behind a gap what stands before the gap stays the same. -/
theorem Follows.behind_gap {gap : List Char}
    (trivia : Trivia.between.length (gap ++ cs) = gap.length)
    (behind : ∀ next ∈ tokens.head?, next.start = offset + width gap)
    (bare : gap = [] → Follows made routed offset tokens cs ds) :
    Follows made routed offset tokens (gap ++ cs) (gap ++ ds) := by
  cases gap with
  | nil => exact bare rfl
  | cons g gap =>
    have some : Trivia.between.length (g :: (gap ++ cs)) ≠ 0 := by
      rw [← List.cons_append, trivia]
      simp
    refine .of_gap some fun next first start => ?_
    have place := behind next first
    have size := Char.utf8Size_pos g
    rw [width_cons] at place
    omega

end Follows

section Steps
variable {made : Token → String} {routed : Token → Bool} {stop : Nat} {tokens : List Token}
  {c : Char} {tail cs ds : List Char} {kind : TokenKind}

/-- A name that begins with `d` may stand behind the token written as `lexeme`. -/
structure Clears (lexeme : List Char) (d : Char) : Prop where
  opens : opensName d = true
  stops : goesOn lexeme d = false
  comment : lexeme ∈ [['-'], ['e'], ['E']] → d ≠ '-'

theorem ne_of_opensName {d e : Char} (opens : opensName d = true)
    (among : e ∈ ['.', '*', '+', '=', '<', '>', '|', ':']) : d ≠ e := by
  rintro rfl
  simp only [opensName, Bool.and_eq_true, Bool.not_eq_true', List.contains_eq_mem,
    decide_eq_false_iff_not] at opens
  exact opens.2 among

theorem not_isDigit_of_opensName {d : Char} (opens : opensName d = true) : d.isDigit = false := by
  simp only [opensName, Bool.and_eq_true, Bool.not_eq_true'] at opens
  exact opens.1

/-- A name that the text `front` does not run into may stand behind its token. -/
theorem clears_of_runsInto {front name : String} (alone : list front = [⟨kind, 0, front⟩])
    (placeable : IsPlaceable name) (apart : runsInto front name = false) :
    ∀ d ∈ name.toList.head?, Clears front.toList d := by
  obtain ⟨_, _, _, _, _, parts⟩ := placeable
  obtain ⟨d, more, chars, opens, comment⟩ := parts.front
  rw [runsInto_of_token alone, runsOn_eq_false, chars] at apart
  rw [chars]
  rintro _ ⟨⟩
  refine ⟨opens, apart.1 d rfl, fun among => ?_⟩
  rintro rfl
  have begins := apart.2 among
  obtain ⟨_, rfl⟩ := List.head?_eq_some_iff.mp (comment rfl)
  simp at begins

/-- A name does not go on in what stands behind it, if it runs into nothing that touches it. -/
theorem Follows.stops {name value : String} {lead : List Char}
    (follows : Follows made routed stop tokens cs ds) (parts : NameParts name lead c tail [] value)
    (apart : ∀ next ∈ tokens.head?, next.start = stop → runsInto name (made next) = false) :
    ∀ d ∈ ds.head?, goesOn (c :: tail) d = false := by
  intro d first
  by_cases touches : ∀ next ∈ tokens.head?, next.start ≠ stop
  · exact goesOn_of_isDelimiter (follows.delimits touches d first)
  · push Not at touches
    obtain ⟨next, member, start⟩ := touches
    obtain ⟨e, _, _, begins, rfl⟩ := follows.touches next member start
    have clear := apart next member start
    rw [parts.runsInto_eq, runsOn_eq_false, begins] at clear
    exact clear.1 d first

/-- A token that is kept is read as before, and so is what stands before it. -/
theorem Follows.kept (follows : Follows made routed stop tokens cs ds)
    (noTrivia : Trivia.between.length (c :: (tail ++ cs)) = 0)
    (reads : read c (tail ++ cs) = (kind, tail.length))
    (valid : cs = [] → ∀ error, kind ≠ .invalid error)
    (clear : ∀ next ∈ tokens.head?, next.start = stop → routed next = true →
      ∀ d ∈ (made next).toList.head?, Clears (c :: tail) d) :
    Trivia.between.length (c :: (tail ++ ds)) = 0 ∧ read c (tail ++ ds) = (kind, tail.length) ∧
      Boundary (c :: (tail ++ cs)) (c :: (tail ++ ds)) := by
  by_cases steady : ∀ next ∈ tokens.head?, next.start = stop → routed next = false
  · obtain ⟨first, boundary⟩ := follows.steady steady
    have symbol : SymbolBoundary cs ds := first.elim .of_head .of_inert
    exact ⟨noTrivia_before noTrivia (first.imp_right noComment_of_inert),
      read_before reads valid (symbol c) fun _ => boundary.ends,
      .before_token (first.imp_right fun inert d first =>
        ⟨not_isDigit_of_isInert (inert d first), fun _ _ => not_isSign_of_isInert (inert d first)⟩)⟩
  · push Not at steady
    obtain ⟨next, first, start, isRouted⟩ := steady
    obtain ⟨d, more, others, is, rfl⟩ := follows.touches next first start
    obtain ⟨opens, stops, comment⟩ := clear next first start (by simpa using isRouted) d (by simp [is])
    have noDigit := not_isDigit_of_opensName opens
    have noPoint : d ≠ '.' := ne_of_opensName opens (by simp)
    have noDouble : ['=', '<', '>', '|', ':'].contains d = false := by
      simp only [List.contains_eq_mem, decide_eq_false_iff_not]
      exact fun among => ne_of_opensName opens (by simp at among ⊢; tauto) rfl
    refine ⟨noTrivia_before noTrivia (.inr ?_), read_before reads valid ?_ fun _ => ?_,
      .before_token (.inr ?_)⟩
    · rintro _ ⟨⟩
      refine ⟨?_, ne_of_opensName opens (by simp)⟩
      rintro rfl rfl
      exact comment (by simp)
    · exact SymbolBoundary.of_other (by rintro _ ⟨⟩; exact noDouble) c
    · exact .of_stops (by rintro _ ⟨⟩; exact stops) fun _ => by rintro _ ⟨⟩; exact ⟨noDigit, noPoint⟩
    · rintro _ ⟨⟩
      refine ⟨noDigit, ?_⟩
      rintro rfl exponent
      have noHyphen : d ≠ '-' := by
        rw [Bool.or_eq_true, beq_iff_eq, beq_iff_eq] at exponent
        rcases exponent with rfl | rfl <;> exact comment (by simp)
      simpa [noHyphen] using ne_of_opensName (e := '+') opens (by simp)

end Steps

section Run
variable {physical : String → Option String} {edited : Token → Bool} {offset : Nat}
  {front rest rest' : List Char} {tokens others : List Token}

/-- The text `front'` is `front` with its edited tokens replaced: what it is read as, and that making
the edits turns the one into the other whatever is made behind them. -/
structure Rewrites (physical : String → Option String) (edited : Token → Bool) (rest' : List Char)
    (offset : Nat) (front front' : List Char) (tokens : List Token) : Prop where
  reads (start : Nat) : ∃ others, listFrom start 0 (front' ++ rest') =
      others ++ listFrom (start + width front') 0 rest' ∧
    List.Forall₂ (Replaced physical edited) tokens others
  makes {source made : List Char} {edits : List Edit} {lookups : List String} :
    Edit.Makes (fun _ => physical) (offset + width front) source edits made lookups →
      ∃ looked, Edit.Makes (fun _ => physical) offset (front ++ source)
        ((tokens.filter edited).map Token.edit ++ edits) (front' ++ made) looked

/-- Where no name is routed, the text stays as it is. -/
theorem Rewrites.same {front' : List Char}
    (rewrites : Rewrites (fun _ => none) edited rest' offset front front' tokens) : front' = front := by
  obtain ⟨_, makes⟩ := rewrites.makes (@Edit.Makes.kept _ _ [])
  have same := makes.same fun edit member => by
    rw [List.append_nil] at member
    obtain ⟨token, _, rfl⟩ := List.mem_map.mp member
    exact ⟨_, _, rfl⟩
  exact List.append_cancel_right same

/-- What is made of a text does not depend on what stands behind it. -/
theorem Rewrites.unique {front' front'' rest'' : List Char}
    (rewrites : Rewrites physical edited rest' 0 front front' tokens)
    (other : Rewrites physical edited rest'' 0 front front'' tokens) : front' = front'' := by
  obtain ⟨_, makes⟩ := rewrites.makes (@Edit.Makes.kept _ _ [])
  obtain ⟨_, makes'⟩ := other.makes (@Edit.Makes.kept _ _ [])
  have made := (makes.foldr_apply width_nil.symm).text
  have made' := (makes'.foldr_apply width_nil.symm).text
  simpa using made.symm.trans made'

/-- Of nothing nothing is made. -/
theorem Rewrites.eq_nil {front' : List Char}
    (rewrites : Rewrites physical edited rest' offset [] front' []) : front' = [] := by
  obtain ⟨_, makes⟩ := rewrites.makes (@Edit.Makes.kept _ _ [])
  simpa using makes.eq_source

theorem Rewrites.nil : Rewrites physical edited rest' offset [] [] [] where
  reads _ := ⟨[], by simp, .nil⟩
  makes {_ _ _ lookups} makes := ⟨lookups, by simpa using makes⟩

theorem offset_behind (offset : Nat) (gap : List Char) (c : Char) (tail front : List Char) :
    offset + width (gap ++ c :: (tail ++ front)) =
      offset + width gap + width (c :: tail) + width front := by
  simp only [width_append, width_cons]
  omega

/-- One more token in front is made and read behind its gap. -/
theorem Rewrites.cons {gap tail made front' : List Char} {c : Char} {token : Token}
    (start : token.start = offset + width gap) (lexeme : token.lexeme = String.ofList (c :: tail))
    (is : (madeOf physical edited token).toList = made)
    (reads : ∀ start, ∃ other, listFrom start 0 (gap ++ (made ++ (front' ++ rest'))) =
        other :: listFrom (start + width gap + width made) 0 (front' ++ rest') ∧
      Replaced physical edited token other)
    (later : Rewrites physical edited rest' (offset + width gap + width (c :: tail)) front front'
      tokens) :
    Rewrites physical edited rest' offset (gap ++ c :: (tail ++ front)) (gap ++ (made ++ front'))
      (token :: tokens) where
  reads start := by
    obtain ⟨other, first, replaced⟩ := reads start
    obtain ⟨others, more, all⟩ := later.reads (start + width gap + width made)
    refine ⟨other :: others, ?_, .cons replaced all⟩
    rw [List.append_assoc, List.append_assoc, first, more, width_append, width_append,
      List.cons_append, Nat.add_assoc (start + width gap), Nat.add_assoc start]
  makes {source _ edits lookups} makes := by
    rw [offset_behind] at makes
    obtain ⟨looked, inner⟩ := later.makes makes
    subst is
    unfold madeOf
    by_cases is : edited token = true
    · have size : width (c :: tail) = token.lexeme.utf8ByteSize := by
        rw [lexeme, ← width_toList, String.toList_ofList]
      rw [size] at inner
      have whole := Edit.Makes.tableName inner
      rw [lexeme, String.toList_ofList, ← lexeme] at whole
      refine ⟨looked ++ [stripQuotes token.lexeme], ?_⟩
      rw [if_pos is, List.filter_cons_of_pos is, List.map_cons, List.cons_append, edit, start]
      simpa using whole
    · rw [if_neg is, List.filter_cons_of_neg is, lexeme, String.toList_ofList]
      have whole := inner.behind.behind
      exact ⟨looked, by simpa using whole⟩

/-- A name is read where it is put, if it does not run on. -/
theorem NameParts.listFrom_eq {text name : String} {gap lead tail last ds : List Char} {c : Char}
    (parts : NameParts text lead c tail last name)
    (trivia : ∀ cs, Trivia.between.length (gap ++ cs) = gap.length + Trivia.between.length cs)
    (stops : last = [] → ∀ d ∈ ds.head?, goesOn (c :: tail) d = false) (start : Nat) :
    listFrom start 0 (gap ++ (text.toList ++ ds)) =
      ⟨.identifier name, start + width (gap ++ lead), String.ofList (c :: tail)⟩ ::
        listFrom (start + width gap + width text.toList) 0 ds := by
  obtain ⟨split, before, reads, closed⟩ := parts
  obtain ⟨_, _, noDigit, noTrivia, noDouble⟩ := opensName_of_read (congrArg Prod.fst reads)
  have reads' : read c (tail ++ (last ++ ds)) = (.identifier name, tail.length) := by
    cases last with
    | nil =>
      refine read_before reads (fun _ => by simp) (fun _ => ?_) fun _ => .of_stops (stops rfl) fun digit => ?_
      · exact Option.bind_eq_none_iff.mpr fun d _ => noDouble d
      · rw [noDigit] at digit
        cases digit
    | cons g last =>
      have some : Trivia.between.length (g :: last) ≠ 0 := by
        have whole := closed []
        rw [List.append_nil] at whole
        rw [whole]
        simp
      exact read_before reads (fun _ => by simp) id fun _ =>
        (Boundary.of_delimiter (by simpa using isDelimiter_of_trivia some)).ends
  have lead_trivia : Trivia.between.length (lead ++ c :: (tail ++ (last ++ ds))) = lead.length :=
    Trivia.length_before (by simp) before (noTrivia _)
  have whole : Trivia.between.length ((gap ++ lead) ++ c :: (tail ++ (last ++ ds))) =
      (gap ++ lead).length := by
    rw [List.append_assoc, trivia, lead_trivia, List.length_append]
  have are : gap ++ (text.toList ++ ds) = (gap ++ lead) ++ c :: (tail ++ (last ++ ds)) := by
    simp [split]
  rw [are, listFrom_gap whole, listFrom_token (noTrivia _) reads', listFrom_closed (closed ds), split]
  simp [Nat.add_assoc]

/-- The token that was written `c :: tail` before `cs`, behind a gap, is made again as `d :: made` before
`ds`, and is read there. -/
structure Remade (physical : String → Option String) (edited : Token → Bool) (token : Token)
    (gap : List Char) (c : Char) (tail cs : List Char) (d : Char) (made ds : List Char) : Prop where
  is : (madeOf physical edited token).toList = d :: made
  kept : isRouted physical edited token = false → d = c ∧
    Boundary (c :: (tail ++ cs)) (d :: (made ++ ds)) ∧ Trivia.between.length (d :: (made ++ ds)) = 0
  reads (start : Nat) : ∃ other, listFrom start 0 (gap ++ (d :: made ++ ds)) =
      other :: listFrom (start + width gap + width (d :: made)) 0 ds ∧
    Replaced physical edited token other

section Remade
variable {token : Token} {gap tail cs ds : List Char} {c : Char} {stop : Nat}

/-- In place of a name that is routed its table is read. -/
theorem exists_remade_of_routed (routed : isRouted physical edited token = true)
    (names : ∀ logical name, physical logical = some name → IsPlaceable name)
    (closed : ∀ cs, Trivia.between.length (gap ++ cs) = gap.length + Trivia.between.length cs)
    (follows : Follows (madeOf physical edited) (isRouted physical edited) stop tokens cs ds)
    (apart : ∀ next ∈ tokens.head?, next.start = stop →
      runsInto (madeOf physical edited token) (madeOf physical edited next) = false) :
    ∃ d made, Remade physical edited token gap c tail cs d made ds := by
  obtain ⟨isEdited, name, answer, is⟩ := exists_of_isRouted routed
  obtain ⟨lead, c', tail', last, value, parts⟩ := names _ _ answer
  obtain ⟨d, made, chars, _⟩ := parts.front
  have stops : last = [] → ∀ e ∈ ds.head?, goesOn (c' :: tail') e = false := by
    rintro rfl
    refine follows.stops parts fun next member touches => ?_
    rw [← is]
    exact apart next member touches
  refine ⟨d, made, by rw [is, chars], fun kept => absurd routed (by simp [kept]), fun start => ?_⟩
  refine ⟨⟨.identifier value, start + width (gap ++ lead), String.ofList (c' :: tail')⟩, ?_,
    .renamed isEdited answer parts.list_eq rfl rfl⟩
  rw [← chars]
  exact parts.listFrom_eq closed stops start

/-- Any other token is read as before. -/
theorem remade_of_kept (kept : isRouted physical edited token = false)
    (names : ∀ logical name, physical logical = some name → IsPlaceable name)
    (lexeme : token.lexeme = String.ofList (c :: tail))
    (noTrivia : Trivia.between.length (c :: (tail ++ cs)) = 0)
    (reads : read c (tail ++ cs) = (token.kind, tail.length))
    (valid : ∀ error, token.kind ≠ .invalid error)
    (closed : ∀ cs, Trivia.between.length (gap ++ cs) = gap.length + Trivia.between.length cs)
    (follows : Follows (madeOf physical edited) (isRouted physical edited) stop tokens cs ds)
    (apart : ∀ next ∈ tokens.head?, next.start = stop → isRouted physical edited next = true →
      runsInto (madeOf physical edited token) (madeOf physical edited next) = false) :
    Remade physical edited token gap c tail cs c tail ds := by
  have is := madeOf_of_not_isRouted kept
  have clear : ∀ next ∈ tokens.head?, next.start = stop → isRouted physical edited next = true →
      ∀ d ∈ (madeOf physical edited next).toList.head?, Clears (c :: tail) d := by
    intro next member touches nextRouted
    obtain ⟨_, name, answer, isName⟩ := exists_of_isRouted nextRouted
    have apart := apart next member touches nextRouted
    rw [is, lexeme] at apart
    have clears := clears_of_runsInto (Token.list_lexeme noTrivia reads valid)
      (by rw [isName]; exact names _ _ answer) apart
    rwa [String.toList_ofList] at clears
  obtain ⟨noTrivia', reads', boundary⟩ := follows.kept noTrivia reads (fun _ => valid) clear
  refine ⟨by rw [is, lexeme, String.toList_ofList], fun _ => ⟨rfl, boundary, noTrivia'⟩,
    fun start => ⟨⟨token.kind, start + width gap, String.ofList (c :: tail)⟩, ?_,
      .kept (none_of_not_isRouted kept) rfl lexeme.symm⟩⟩
  rw [List.cons_append, listFrom_gap (by rw [closed, noTrivia', Nat.add_zero]),
    listFrom_token noTrivia' reads']

end Remade

/-- Where the names that are put in a text run into no token beside them, the text is read as the
same tokens with the names replaced. Behind the text may stand `others`, which are replaced too. Where
the first name is kept, it begins behind the same trivia. -/
theorem Spells.rewritten_before (spells : Spells rest offset front tokens)
    (valid : ∀ token ∈ tokens, ∀ error, token.kind ≠ .invalid error)
    (names : ∀ logical name, physical logical = some name → IsPlaceable name)
    (parted : (tokens ++ others).IsChain (Parted physical edited))
    (ends : Follows (madeOf physical edited) (isRouted physical edited) (offset + width front) others
      rest rest') :
    ∃ front', Rewrites physical edited rest' offset front front' tokens ∧
      Follows (madeOf physical edited) (isRouted physical edited) offset (tokens ++ others)
        (front ++ rest) (front' ++ rest') ∧
      ∀ first ∈ tokens.head?, isRouted physical edited first = false →
        Trivia.between.length (front' ++ rest') = Trivia.between.length (front ++ rest) := by
  induction spells with
  | nil => exact ⟨[], .nil, ends, by simp⟩
  | @cons offset gap tail front c kind tokens trivia reads _ ih =>
    obtain ⟨front', later, follows, _⟩ :=
      ih (fun token member => valid token (List.mem_cons_of_mem _ member)) parted.tail
        (offset_behind offset gap c tail front ▸ ends)
    generalize made_token : Token.mk kind (offset + width gap) (String.ofList (c :: tail)) = token
      at valid parted ⊢
    have start : token.start = offset + width gap := by rw [← made_token]
    have lexeme : token.lexeme = String.ofList (c :: tail) := by rw [← made_token]
    have isKind : kind = token.kind := by rw [← made_token]
    have stop : token.span.stop = offset + width gap + width (c :: tail) := by
      rw [span_stop, start, lexeme, ← width_toList, String.toList_ofList]
    have closed := Trivia.length_append (by simp) trivia
    have apart {next : Token} (first : next ∈ (tokens ++ others).head?)
        (touches : next.start = offset + width gap + width (c :: tail)) :=
      parted.rel_head? first (stop.trans touches.symm)
    obtain ⟨d, made, remade⟩ : ∃ d made, Remade physical edited token gap c tail (front ++ rest) d made
        (front' ++ rest') := by
      by_cases routed : isRouted physical edited token = true
      · exact exists_remade_of_routed routed names closed follows fun next member touches =>
          apart member touches (by rw [routed, Bool.true_or])
      · exact ⟨c, tail, remade_of_kept (Bool.not_eq_true _ ▸ routed) names lexeme
          (Trivia.length_behind (by simp) trivia) (isKind ▸ reads) (valid token List.mem_cons_self) closed
          follows fun next member touches nextRouted =>
            apart member touches (by rw [nextRouted, Bool.or_true])⟩
    have behind := @Follows.behind_gap (madeOf physical edited) (isRouted physical edited) offset
      (token :: (tokens ++ others)) (c :: (tail ++ (front ++ rest))) (d :: (made ++ (front' ++ rest')))
      gap trivia (by simpa using start) (by
        rintro rfl
        refine .of_touching (by simpa using start) remade.is fun kept => ?_
        obtain ⟨rfl, boundary, _⟩ := remade.kept kept
        exact ⟨rfl, boundary⟩)
    refine ⟨gap ++ (d :: made ++ front'), .cons start lexeme remade.is remade.reads later, ?_, ?_⟩
    · simpa using behind
    · rintro _ ⟨⟩ kept
      have same := closed (d :: (made ++ (front' ++ rest')))
      rw [(remade.kept kept).2.2, Nat.add_zero, ← trivia] at same
      simpa using same

theorem Spells.rewritten (spells : Spells rest offset front tokens)
    (valid : ∀ token ∈ tokens, ∀ error, token.kind ≠ .invalid error)
    (names : ∀ logical name, physical logical = some name → IsPlaceable name)
    (parted : tokens.IsChain (Parted physical edited))
    (ends : ∀ offset, Follows (madeOf physical edited) (isRouted physical edited) offset [] rest rest') :
    ∃ front', Rewrites physical edited rest' offset front front' tokens := by
  obtain ⟨front', rewrites, _⟩ :=
    spells.rewritten_before valid names ((List.append_nil tokens).symm ▸ parted) (ends _)
  exact ⟨front', rewrites⟩

end Run

end Rewriting

end Token

end SelectRouting
