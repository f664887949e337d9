/-!
# Documents

Values of the JSON format with the members of an object in the order in which they are written, and
their text with two spaces for each level.
-/

namespace SelectRouting

/-- A value of the JSON format. Numbers are whole and not negative. -/
inductive Json where
  | null
  | bool (value : Bool)
  | number (value : Nat)
  | string (value : String)
  | array (values : List Json)
  | object (members : List (String × Json))

namespace Json

/-- The value, or null. -/
def ofOption {α : Type} (encode : α → Json) : Option α → Json
  | some value => encode value
  | none => .null

/-- The string, or null. -/
def ofString? : Option String → Json :=
  ofOption .string

/-- The digits of `n` to the base sixteen, four of them. -/
def fourDigits (n : Nat) : List Char :=
  let digits := Nat.toDigits 16 n
  List.replicate (4 - digits.length) '0' ++ digits

/-- The form of one character inside a string. -/
def escape (c : Char) : List Char :=
  if c == '"' || c == '\\' then ['\\', c]
  else if c == '\n' then ['\\', 'n']
  else if c == '\r' then ['\\', 'r']
  else if c == '\t' then ['\\', 't']
  else if c.toNat == 8 then ['\\', 'b']
  else if c.toNat == 12 then ['\\', 'f']
  else if c.toNat < 32 then ['\\', 'u'] ++ fourDigits c.toNat
  else [c]

/-- The text of a string. -/
def quote (text : String) : String :=
  String.ofList ('"' :: text.toList.flatMap escape ++ ['"'])

/-- A new line that is indented by `level` levels. -/
def newline (level : Nat) : String :=
  String.ofList ('\n' :: List.replicate (2 * level) ' ')

mutual

/-- The text of a value that stands at `level`. -/
def render (level : Nat) : Json → String
  | .null => "null"
  | .bool value => if value then "true" else "false"
  | .number value => toString value
  | .string value => quote value
  | .array [] => "[]"
  | .array (value :: values) =>
    "[" ++ newline (level + 1) ++ render (level + 1) value ++ renderValues (level + 1) values ++
      newline level ++ "]"
  | .object [] => "\x7b\x7d"
  | .object ((name, value) :: members) =>
    "\x7b" ++ newline (level + 1) ++ quote name ++ ": " ++ render (level + 1) value ++
      renderMembers (level + 1) members ++ newline level ++ "\x7d"

/-- The text of the values behind the first one of a list. -/
def renderValues (level : Nat) : List Json → String
  | [] => ""
  | value :: values =>
    "," ++ newline level ++ render level value ++ renderValues level values

/-- The text of the members behind the first one of an object. -/
def renderMembers (level : Nat) : List (String × Json) → String
  | [] => ""
  | (name, value) :: members =>
    "," ++ newline level ++ quote name ++ ": " ++ render level value ++ renderMembers level members

end

/-- The text of a document. -/
def pretty (value : Json) : String :=
  value.render 0

end Json

end SelectRouting
