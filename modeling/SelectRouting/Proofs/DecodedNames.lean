import Mathlib.Data.List.Basic
import SelectRouting.Analysis.Select
import SelectRouting.Proofs.QuotedText
import SelectRouting.Routes

/-!
# Names against their decoded form

Quoted names are decoded twice: a token carries the name with its quotes resolved, and the analysis
compares and routes names by their text without quoting characters. The two differ in the quoting
characters inside of a name alone (`Token.IsLexed.stripQuotes_lexeme`), so names are taken for the
same when they are decoded to names that differ in case and in quoting characters at most
(`Token.identifiers_same`).
-/

namespace SelectRouting

namespace Routes
open Text

/-- Names have the same route along all routes exactly when they differ in the case of ASCII letters
at most. -/
theorem get?_eq_iff {first second : String} :
    (∀ routes : Routes, routes.get? first = routes.get? second) ↔
      sameIgnoringCase first second = true := by
  have lower_eq : sameIgnoringCase first second = true ↔ lower second = lower first := by
    rw [sameIgnoringCase, beq_iff_eq, lower, lower, String.ofList_inj, eq_comm]
  rw [lower_eq]
  constructor
  · intro same
    have routed := same (({} : Routes).insert first first)
    by_cases equal : lower second = lower first
    · exact equal
    · simp [get?, insert, beq_false_of_ne equal] at routed
  · intro same routes
    rw [get?, get?, same]

end Routes

namespace Token
open Text

section Reading
variable {c close : Char} {cs value : List Char} {doubling : Bool} {length : Nat} {name : String}

/-- Quoted text up to its closing quote and its value have the same characters besides quotes. -/
theorem filter_of_readQuoted (quote : isQuote close = true)
    (reads : readQuoted? close doubling cs = some (value, length)) :
    (cs.take length).filter (fun c => !isQuote c) = value.filter fun c => !isQuote c := by
  rw [(eq_escaped_of_readQuoted? reads).1, List.filter_append, filter_escaped quote]
  simp [quote]

theorem filter_of_readText {error : LexicalError} (quote : isQuote close = true)
    (reads : (readText close doubling .identifier error cs).1 = .identifier name) :
    (cs.take (readText close doubling .identifier error cs).2).filter (fun c => !isQuote c) =
      name.toList.filter fun c => !isQuote c := by
  unfold readText at reads ⊢
  split at reads
  · next value length quoted =>
    obtain rfl := TokenKind.identifier.inj reads
    rw [String.toList_ofList]
    exact filter_of_readQuoted quote quoted
  · cases reads

/-- The text of a name and its decoded form have the same characters besides quotes. -/
theorem IsLexed.stripQuotes_lexeme {token : Token} (lexed : token.IsLexed)
    (is : token.kind = .identifier name) : stripQuotes token.lexeme = stripQuotes name := by
  obtain ⟨c, cs, named, written⟩ := lexed
  rw [is] at named
  rw [written, stripQuotes_ofList, stripQuotes]
  rcases read_of_identifier named.symm with word | ⟨opening, close, doubling, quote, quoted⟩
  · rw [word] at named ⊢
    rw [take_readWord]
    unfold readWord at named
    dsimp only at named
    split at named
    · cases named
    · rw [TokenKind.identifier.inj named, String.toList_ofList]
  · rw [quoted] at named ⊢
    rw [List.filter_cons_of_neg (by simp [opening]), filter_of_readText quote named.symm]

end Reading

/-- **Names are decoded names without quoting characters.** The text under which a name is compared
and routed is the name that its token is decoded to, without all quoting characters. So it is the
decoded name exactly when that has none of them; and two names are taken for the same, and have the
same route along all routes, exactly when they are decoded to names that are the same up to quoting
characters and the case of ASCII letters. -/
theorem identifiers_same {text text' : String} {token other : Token} (among : token ∈ list text)
    (amongOther : other ∈ list text') {name name' : String} (is : token.kind = .identifier name)
    (isOther : other.kind = .identifier name') :
    stripQuotes token.lexeme = stripQuotes name ∧
      (stripQuotes token.lexeme = name ↔ ∀ c ∈ name.toList, isQuote c = false) ∧
      (sameIgnoringCase (stripQuotes token.lexeme) (stripQuotes other.lexeme) = true ↔
        sameIgnoringCase (stripQuotes name) (stripQuotes name') = true) ∧
      ((∀ routes : Routes, routes.get? (stripQuotes token.lexeme) =
          routes.get? (stripQuotes other.lexeme)) ↔
        sameIgnoringCase (stripQuotes name) (stripQuotes name') = true) := by
  have value := (areLexed_list text token among).stripQuotes_lexeme is
  have valueOther := (areLexed_list text' other amongOther).stripQuotes_lexeme isOther
  rw [value, valueOther]
  exact ⟨rfl, stripQuotes_eq_iff, Iff.rfl, Routes.get?_eq_iff⟩

/-- A name in brackets and one in double quotes are decoded to names that differ in case alone. -/
theorem identifiers_same_of_case :
    let text := "SELECT [T].a FROM \"t\""
    let token : Token := ⟨.identifier "T", 7, "[T]"⟩
    let other : Token := ⟨.identifier "t", 18, "\"t\""⟩
    (token ∈ list text ∧ other ∈ list text) ∧ stripQuotes token.lexeme = "T" ∧
      ∀ routes : Routes, routes.get? (stripQuotes token.lexeme) =
        routes.get? (stripQuotes other.lexeme) := by
  intro text token other
  have among : token ∈ list text ∧ other ∈ list text := by decide +kernel
  obtain ⟨-, unquoted, -, route⟩ := identifiers_same among.1 among.2 rfl rfl
  exact ⟨among, unquoted.mpr (by simp [isQuote]), route.mpr (by decide +kernel)⟩

/-- A quote that is doubled in a name is one quote of the decoded name, but none of the name that is
routed: tables of two names have one route. -/
theorem doubled_quote_dropped :
    let text := "SELECT c FROM \"a\"\"b\", ab"
    (⟨.identifier "a\"b", 14, "\"a\"\"b\""⟩ ∈ list text ∧ ⟨.identifier "ab", 22, "ab"⟩ ∈ list text) ∧
      stripQuotes "\"a\"\"b\"" = "ab" ∧
      Statement.ofText .generic text = .ok
        { items := [.plain "c" none]
          tables := [⟨"ab", none⟩, ⟨"ab", none⟩]
          projectionEnd := 9
          edits := [.tableName 14 "\"a\"\"b\"", .tableName 22 "ab"] } := by
  decide +kernel

end Token

end SelectRouting
