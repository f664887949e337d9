import SelectRouting.Text.Bytes

/-!
# Spans

A span is a range of byte offsets into a text. Spans are data of messages and answers, so nothing is
required of their ends; a span that does not cut the text at characters covers nothing.
-/

namespace SelectRouting

/-- The bytes from `start` up to `stop`. -/
structure Span where
  start : Nat
  stop : Nat
deriving DecidableEq

namespace Span

/-- The number of bytes. -/
def length (span : Span) : Nat :=
  span.stop - span.start

/-- The span covers no byte. -/
def isEmpty (span : Span) : Bool :=
  span.start == span.stop

/-- The span from the start of one span to the end of another. -/
def through (first last : Span) : Span :=
  ⟨first.start, last.stop⟩

/-- The part of the text that the span covers, empty when its ends are no places of the text. -/
def slice (span : Span) (text : String) : String :=
  match Text.slice? span.start span.stop text.toList with
  | some part => String.ofList part
  | none => ""

/-- The form in messages. -/
def describe (span : Span) : String :=
  s!"{span.start}..{span.stop}"

end Span

end SelectRouting
