import SelectRouting.Text.Quoted
import SelectRouting.Token

/-!
# Tokens in messages

The form in which a message names a kind of token, its payload included.
-/

namespace SelectRouting

/-- Numbers are positional from one ten-thousandth up to below ten to the sixteenth. -/
def TokenKind.floatLayout : DecimalLayout :=
  ⟨-4, 15⟩

/-- The form of a kind in messages. -/
def TokenKind.describe : TokenKind → String
  | .integer value => s!"Integer({value})"
  | .float value => s!"Float({value.render floatLayout})"
  | .string text => s!"String({Text.quoted text})"
  | .blob bytes => "Blob([" ++ ", ".intercalate (bytes.map fun byte => toString byte.toNat) ++ "])"
  | .identifier name => s!"Identifier({Text.quoted name})"
  | .keyword word => s!"Keyword({word.name})"
  | .symbol mark => mark.name
  | .endOfInput => "Eof"
  | .invalid error => s!"Error({Text.quoted error.message})"

end SelectRouting
