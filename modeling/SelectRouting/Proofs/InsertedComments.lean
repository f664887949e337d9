import SelectRouting.Proofs.CallArguments
import SelectRouting.Proofs.PiecewiseSplicing
import SelectRouting.Proofs.ShardTokens
import SelectRouting.Proofs.TokenGaps

/-!
# Comments put in a text

A block comment that is put in a text behind a blank, outside of all tokens and comments, leaves the
tokens as they are, whatever it says (`Token.tokens_of_comment`). The one exception is a comment that
says a slash first: the star that opens the comment closes it together with that slash.
-/

namespace SelectRouting

namespace Trivia

/-- Whether trivia reach over a blank is decided by what stands before it. -/
theorem length_blank {state : Trivia} {gap more : List Char} {blank : Char}
    (isBlank : Text.isBlank blank = true)
    (reaches : gap.length < state.length (gap ++ blank :: more)) :
    state.length (gap ++ [blank]) = gap.length + 1 := by
  induction gap generalizing state with
  | nil => cases state <;> simp [length, isBlank]
  | cons c gap ih =>
    have same : (gap ++ [blank]).head? = (gap ++ blank :: more).head? := by
      cases gap <;> rfl
    rw [List.cons_append] at reaches ⊢
    obtain ⟨n, size⟩ := Nat.exists_eq_succ_of_ne_zero (Nat.ne_of_gt (Nat.zero_lt_of_lt reaches))
    obtain ⟨next, passes, rfl⟩ := length_cons_eq_succ.mp size
    rw [size] at reaches
    rw [← same] at passes
    exact length_cons_eq_succ.mpr ⟨next, passes, ih (Nat.lt_of_succ_lt_succ reaches)⟩

/-- A block comment goes on up to the first star and slash. -/
theorem length_blockComment {afterStar : Bool} {body : List Char} (more : List Char)
    (unended : ¬ ['*', '/'] <:+: (if afterStar then '*' :: body else body)) :
    (blockComment afterStar).length (body ++ '*' :: '/' :: more) =
      body.length + 2 + between.length more := by
  induction body generalizing afterStar with
  | nil =>
    simp [length]
    omega
  | cons c body ih =>
    have stays : (afterStar && c == '/') = false := by
      rw [Bool.eq_false_iff, ne_eq, Bool.and_eq_true, beq_iff_eq]
      rintro ⟨rfl, rfl⟩
      exact unended ⟨[], body, rfl⟩
    have behind : (if c == '*' then '*' :: body else body) <:+ c :: body := by
      split
      · next star => rw [beq_iff_eq.mp star]
      · exact List.suffix_cons c body
    have whole : c :: body <:+ if afterStar then '*' :: c :: body else c :: body := by
      split
      · exact List.suffix_cons '*' _
      · exact List.suffix_rfl
    have later := @ih (c == '*') fun ends =>
      unended (ends.trans (behind.trans whole).isInfix)
    rw [List.cons_append, length, if_neg (by simp [stays]), later, List.length_cons]
    omega

/-- A block comment ends at the first star and slash behind its opening, unless a slash stands there
first. -/
theorem length_comment {body : List Char} (more : List Char) (unended : ¬ ['*', '/'] <:+: body)
    (noSlash : body.head? ≠ some '/') :
    between.length ('/' :: '*' :: (body ++ '*' :: '/' :: more)) =
      body.length + 4 + between.length more := by
  have inside : ¬ ['*', '/'] <:+: '*' :: body := by
    rw [List.infix_cons_iff]
    rintro (⟨rest, front⟩ | within)
    · apply noSlash
      obtain ⟨_, rfl⟩ := List.cons.inj front
      rfl
    · exact unended within
  have later := @length_blockComment true body more inside
  have opened : between.length ('/' :: '*' :: (body ++ '*' :: '/' :: more)) =
      (blockComment true).length (body ++ '*' :: '/' :: more) + 2 := by
    rfl
  rw [opened, later]
  omega

/-- The star that opens a comment closes it with a slash behind it. -/
theorem length_slash (more : List Char) :
    between.length ('/' :: '*' :: '/' :: more) = 3 + between.length more := by
  have closed : between.length ('/' :: '*' :: '/' :: more) = between.length more + 3 := rfl
  rw [closed, Nat.add_comm]

end Trivia

namespace Token
open Text

/-- The character is a blank that stands between two parts of a text, outside of all tokens and
comments. A line feed that ends a comment stands outside of it. -/
structure StandsFree (before : String) (blank : Char) (behind : String) : Prop where
  isBlank : Text.isBlank blank = true
  noToken : ∀ token ∈ list (before ++ String.singleton blank ++ behind),
    token.span.covers before.utf8ByteSize = false
  noComment : EndsClosed (before ++ String.singleton blank)

section Free
variable {before behind : String} {blank : Char}

/-- Before a place that no token covers stand the tokens that are spelled in front of it, and trivia
that reach over it. -/
theorem exists_trivia_over {text : String} {before behind : List Char} {d : Char}
    (split : text.toList = before ++ d :: behind)
    (noToken : ∀ token ∈ list text, token.span.covers (width before) = false) :
    ∃ front gap tokens, before = front ++ gap ∧ Spells (gap ++ d :: behind) 0 front tokens ∧
      gap.length < Trivia.between.length (gap ++ d :: behind) := by
  let ends : Token → Bool := fun token => token.span.stop ≤ width before
  have are : listFrom 0 0 text.toList = (list text).takeWhile ends ++ (list text).dropWhile ends :=
    List.takeWhile_append_dropWhile.symm
  obtain ⟨front, rest, cut, spells, later⟩ := exists_spells are
  have passed : ∀ token ∈ (list text).takeWhile ends, token.span.stop ≤ width before := by
    intro token member
    exact of_decide_eq_true (List.all_eq_true.mp List.all_takeWhile token member)
  have within : width front ≤ width before := by
    rw [← Nat.zero_add (width front)]
    exact spells.width_le (Nat.zero_le _) passed
  obtain ⟨gap, rfl, rfl⟩ := exists_between (cut.symm.trans split) within
  refine ⟨front, gap, _, rfl, spells, ?_⟩
  cases behindTokens : (list text).dropWhile ends with
  | nil =>
    rw [behindTokens, listFrom_eq_nil] at later
    rw [later]
    simp
  | cons token tokens =>
    rw [behindTokens] at later
    obtain ⟨lead, c, tail, last, are, trivia, _, start, _, _⟩ := exists_first later
    have member : token ∈ list text := by
      apply (List.dropWhile_suffix ends).subset
      rw [behindTokens]
      exact List.mem_cons_self
    have reaches : ends token = false := by
      have first := List.head?_dropWhile_not ends (list text)
      rwa [behindTokens] at first
    have beyond : width (front ++ gap) < token.start := by
      have apart := noToken token member
      rw [decide_eq_false_iff_not] at reaches
      rw [Span.not_covers_iff, span_start] at apart
      omega
    rw [start, width_append] at beyond
    rw [trivia]
    exact length_lt_of_width_lt are (by omega)

/-- Before a blank that stands free, and with any text behind it, stand tokens and then trivia that
end with the blank. -/
theorem StandsFree.exists_front (free : StandsFree before blank behind) :
    ∃ front gap tokens, (before ++ String.singleton blank).toList = front ++ gap ∧
      (∀ rest, Spells (gap ++ rest) 0 front tokens) ∧
      ∀ rest, Trivia.between.length (gap ++ rest) = gap.length + Trivia.between.length rest := by
  obtain ⟨isBlank, noToken, noComment⟩ := free
  rw [← width_toList before] at noToken
  have atBlank : (before ++ String.singleton blank ++ behind).toList =
      before.toList ++ blank :: behind.toList := by
    simp
  obtain ⟨front, gap, tokens, split, spells, reaches⟩ := exists_trivia_over atBlank noToken
  have whole : (before ++ String.singleton blank).toList = front ++ (gap ++ [blank]) := by
    simp [split]
  have kept (rest : List Char) : Spells ((gap ++ [blank]) ++ rest) 0 front tokens := by
    have follows : Follows lexeme (fun _ => false) (0 + width front) [] (gap ++ blank :: behind.toList)
        ((gap ++ [blank]) ++ rest) := by
      cases gap with
      | nil => exact .of_gap (Nat.ne_of_gt reaches) (by simp)
      | cons g gap => exact .of_gap (Nat.ne_of_gt (Nat.zero_lt_of_lt reaches)) (by simp)
    exact (spells.kept (by simp) follows).1
  have trivia : Trivia.between.length (gap ++ [blank]) = (gap ++ [blank]).length := by
    rw [Trivia.length_blank isBlank reaches, List.length_append, List.length_singleton]
  have alone := kept []
  rw [List.append_nil] at alone
  have ends := noComment.length_eq whole alone (by simp) trivia []
  exact ⟨front, gap ++ [blank], tokens, whole, kept, Trivia.length_append (List.cons_ne_nil _ _) ends⟩

/-- A blank that stands free ends the tokens before it: with any text behind it they are the same, and
those behind it are the ones of that text. -/
theorem StandsFree.list_append (free : StandsFree before blank behind) (rest : String) :
    list (before ++ String.singleton blank ++ rest) =
      list (before ++ String.singleton blank) ++
        listFrom (before ++ String.singleton blank).utf8ByteSize 0 rest.toList := by
  obtain ⟨front, gap, tokens, whole, kept, closed⟩ := free.exists_front
  have lists (rest : List Char) : listFrom 0 0 (front ++ (gap ++ rest)) =
      tokens ++ listFrom (0 + width front + width gap) 0 rest := by
    rw [(kept rest).listFrom_append, listFrom_closed (closed rest)]
  have size : (before ++ String.singleton blank).utf8ByteSize = 0 + width front + width gap := by
    rw [← width_toList, whole, width_append, Nat.zero_add]
  have alone : list (before ++ String.singleton blank) = tokens := by
    have ends := lists []
    rwa [List.append_nil, ← whole, listFrom, List.append_nil] at ends
  rw [list, String.toList_append, whole, List.append_assoc, lists, size, alone]

theorem StandsFree.content_append (free : StandsFree before blank behind) (rest : String) :
    (tokenize (before ++ String.singleton blank ++ rest)).map content =
      (list (before ++ String.singleton blank)).map content ++ (tokenize rest).map content := by
  rw [tokenize, free.list_append, List.map_append, List.map_append, tokenize, List.map_append, list,
    list, listFrom_content _ 0 0 rest.toList, List.append_assoc]
  rfl

end Free

section Behind
variable {text rest body : String}

/-- Behind a blank and trivia that are closed stand the tokens of the text behind them. -/
theorem content_of_closed (gap : List Char) (split : text.toList = ' ' :: (gap ++ rest.toList))
    (closed : Trivia.between.length (gap ++ rest.toList) =
      gap.length + Trivia.between.length rest.toList) :
    (tokenize text).map content = (tokenize rest).map content := by
  have same : (list text).map content = (list rest).map content := by
    rw [list, split, listFrom_blank (by decide), listFrom_closed closed, list]
    exact listFrom_content _ 0 0 rest.toList
  rw [tokenize, tokenize, List.map_append, List.map_append, same]
  rfl

/-- A comment with a blank on either side has no tokens. -/
theorem content_of_comment (unended : ¬ "*/".toList <:+: body.toList)
    (noSlash : body.toList.head? ≠ some '/') :
    (tokenize (" /*" ++ body ++ "*/ " ++ rest)).map content = (tokenize rest).map content := by
  have blank : (tokenize (" " ++ rest)).map content = (tokenize rest).map content :=
    content_of_closed [] (by simp) (by simp)
  rw [← blank]
  refine content_of_closed ('/' :: '*' :: (body.toList ++ ['*', '/'])) (by simp) ?_
  have reach := Trivia.length_comment (" " ++ rest).toList unended noSlash
  simpa using reach

/-- Of a comment that says a slash first, what it says behind the slash is read. -/
theorem content_of_slash {leaked : String} :
    (tokenize (" /*" ++ ("/" ++ leaked) ++ "*/ " ++ rest)).map content =
      (tokenize (leaked ++ "*/ " ++ rest)).map content :=
  content_of_closed ['/', '*', '/'] (by simp) (Trivia.length_slash _)

end Behind

/-- **Block comments are neutral.** A comment that does not say a star and a slash together can be put
in a text behind each blank that stands outside of all tokens and comments: the text keeps its tokens,
unless the comment says a slash first. Such a comment ends with that slash, and what it says behind it
is read as tokens, together with the star and the slash that should have closed it. -/
theorem tokens_of_comment {before behind body : String} {blank : Char}
    (free : StandsFree before blank behind) (unended : ¬ "*/".toList <:+: body.toList) :
    (body.toList.head? ≠ some '/' →
      (tokenize (before ++ String.singleton blank ++
          (" /*" ++ body ++ "*/ " ++ behind))).map content =
        (tokenize (before ++ String.singleton blank ++ behind)).map content) ∧
      ∀ leaked, body = "/" ++ leaked →
        (tokenize (before ++ String.singleton blank ++
            (" /*" ++ body ++ "*/ " ++ behind))).map content =
          (list (before ++ String.singleton blank)).map content ++
            (tokenize (leaked ++ "*/ " ++ behind)).map content := by
  constructor
  · intro noSlash
    rw [free.content_append, free.content_append, content_of_comment unended noSlash]
  · rintro leaked rfl
    rw [free.content_append, content_of_slash]

/-- A comment with a quote in it behind the line feed that ends another comment. -/
theorem tokens_of_comment_behind_line :
    StandsFree "SELECT a--'" '\n' "FROM t" ∧ ¬ "*/".toList <:+: "it's / **".toList ∧
      "it's / **".toList.head? ≠ some '/' ∧
      (tokenize "SELECT a--'\n /*it's / ***/ FROM t").map content =
        (tokenize "SELECT a--'\nFROM t").map content := by
  have free : StandsFree "SELECT a--'" '\n' "FROM t" :=
    ⟨by decide, by decide +kernel, by decide +kernel⟩
  have unended : ¬ "*/".toList <:+: "it's / **".toList := by decide
  have noSlash : "it's / **".toList.head? ≠ some '/' := by decide
  exact ⟨free, unended, noSlash, (tokens_of_comment free unended).1 noSlash⟩

/-- What a comment says behind a slash is read as tokens. -/
theorem comment_of_slash_read :
    (∀ token ∈ tokenize "SELECT a", ∀ error, token.kind ≠ .invalid error) ∧
      StandsFree "SELECT" ' ' "a" ∧ ¬ "*/".toList <:+: "/".toList ∧
      (tokenize ("SELECT" ++ String.singleton ' ' ++ (" /*" ++ "/" ++ "*/ " ++ "a"))).map kind ≠
        (tokenize ("SELECT" ++ String.singleton ' ' ++ "a")).map kind := by
  have kinds : tokenize "SELECT a" = [⟨.keyword .SELECT, 0, "SELECT"⟩, ⟨.identifier "a", 7, "a"⟩,
      eof 8] := by
    decide +kernel
  refine ⟨?_, ⟨by decide, by decide +kernel, by decide +kernel⟩, by decide, by decide +kernel⟩
  rw [kinds]
  simp [eof]

end Token

end SelectRouting
