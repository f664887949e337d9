/-!
# Quoting characters

Names are stored and compared without the characters that quote them, wherever in the name those
stand.
-/

namespace SelectRouting.Text

/-- The quotes, the backtick and the square brackets. -/
def isQuote (c : Char) : Bool :=
  c == '"' || c == '\x60' || c == '\x27' || c == '[' || c == ']'

/-- The text without its quoting characters. -/
def stripQuotes (text : String) : String :=
  String.ofList (text.toList.filter fun c => !isQuote c)

theorem stripQuotes_ofList (cs : List Char) :
    stripQuotes (String.ofList cs) = String.ofList (cs.filter fun c => !isQuote c) := by
  rw [stripQuotes, String.toList_ofList]

/-- A text is its own text without quoting characters when it has none. -/
theorem stripQuotes_eq_iff {text : String} :
    stripQuotes text = text ↔ ∀ c ∈ text.toList, isQuote c = false := by
  rw [stripQuotes, ← String.toList_inj, String.toList_ofList, List.filter_eq_self]
  simp

theorem stripQuotes_stripQuotes (text : String) : stripQuotes (stripQuotes text) = stripQuotes text := by
  rw [stripQuotes_eq_iff, stripQuotes, String.toList_ofList]
  intro c member
  simpa using (List.mem_filter.mp member).2

end SelectRouting.Text
