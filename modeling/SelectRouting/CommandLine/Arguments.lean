/-!
# Arguments of a command

The words of a command line are options, long or short, and operands. An option may take a value:
the next word, or what follows an equals sign in a long option or the letter of a short one. Short
options without a value can share a word. Two hyphens alone end the options.
-/

namespace SelectRouting

/-- An option that a command knows. -/
structure OptionSpec where
  long : String
  short : Option Char := none
  takesValue : Bool := false
deriving DecidableEq

/-- One option or operand of a command line. -/
inductive Argument where
  | flag (long : String)
  | setting (long text : String)
  | operand (text : String)
deriving DecidableEq

/-- Why a command line is not understood. -/
inductive UsageError where
  | unknownOption
  | missingValue
  | needlessValue
  | repeatedOption
  | unknownCommand
  | missingCommand
  | extraOperand
  | unknownDialect
deriving DecidableEq

/-- The form of a word. -/
inductive WordForm where
  /-- Two hyphens alone. -/
  | terminator
  /-- A long option, with what follows the equals sign. -/
  | long (name : String) (value : Option String)
  /-- Letters behind one hyphen. -/
  | short (letters : List Char)
  /-- Anything else, a lone hyphen included. -/
  | operand

/-- The form of a word. -/
def WordForm.of (word : String) : WordForm :=
  match word.toList with
  | ['-', '-'] => .terminator
  | '-' :: '-' :: rest =>
    .long (String.ofList (rest.takeWhile (· != '=')))
      (match rest.dropWhile (· != '=') with
      | [] => none
      | _ :: value => some (String.ofList value))
  | '-' :: letter :: letters => .short (letter :: letters)
  | _ => .operand

namespace Argument

/-- The arguments in the letters of a word, and the option that takes the next word as its value. -/
def ofLetters (options : List OptionSpec) :
    List Char → Except UsageError (List Argument × Option OptionSpec)
  | [] => .ok ([], none)
  | letter :: letters =>
    match options.find? (·.short == some letter) with
    | none => .error .unknownOption
    | some option =>
      if option.takesValue then
        match letters with
        | [] => .ok ([], some option)
        | '=' :: value => .ok ([.setting option.long (String.ofList value)], none)
        | value => .ok ([.setting option.long (String.ofList value)], none)
      else do
        let (arguments, pending) ← ofLetters options letters
        return (.flag option.long :: arguments, pending)

/-- The argument of a long option, or the option when it takes the next word as its value. -/
def ofLong (options : List OptionSpec) (name : String) (value : Option String) :
    Except UsageError (List Argument × Option OptionSpec) :=
  match options.find? (·.long == name), value with
  | none, _ => .error .unknownOption
  | some option, some text =>
    if option.takesValue then .ok ([.setting option.long text], none) else .error .needlessValue
  | some option, none =>
    if option.takesValue then .ok ([], some option) else .ok ([.flag option.long], none)

/-- The arguments of a list of words, of which the first is the value of the option `pending` if
there is one. With `firstOperandOnly` the words behind the first operand are left alone, and they
are the second part of the answer. -/
def read (options : List OptionSpec) (firstOperandOnly : Bool) :
    Option OptionSpec → List String → Except UsageError (List Argument × List String)
  | none, [] => .ok ([], [])
  | some _, [] => .error .missingValue
  | pending, word :: words =>
    match WordForm.of word, pending with
    | .operand, some option => do
      let (arguments, rest) ← read options firstOperandOnly none words
      return (.setting option.long word :: arguments, rest)
    | _, some _ => .error .missingValue
    | .operand, none =>
      if firstOperandOnly then .ok ([.operand word], words)
      else do
        let (arguments, rest) ← read options firstOperandOnly none words
        return (.operand word :: arguments, rest)
    | .terminator, none =>
      if firstOperandOnly then .error .unknownCommand else .ok (words.map .operand, [])
    | .long name value, none => do
      let (here, pending) ← ofLong options name value
      let (arguments, rest) ← read options firstOperandOnly pending words
      return (here ++ arguments, rest)
    | .short letters, none => do
      let (here, pending) ← ofLetters options letters
      let (arguments, rest) ← read options firstOperandOnly pending words
      return (here ++ arguments, rest)

/-- The values of an option, in order. -/
def valuesOf (long : String) (arguments : List Argument) : List String :=
  arguments.filterMap fun
    | .setting name text => if name == long then some text else none
    | _ => none

/-- The operands, in order. -/
def operands (arguments : List Argument) : List String :=
  arguments.filterMap fun
    | .operand text => some text
    | _ => none

/-- Whether a flag is given; it may be given once. -/
def flagOf (long : String) (arguments : List Argument) : Except UsageError Bool :=
  match arguments.filter (· == .flag long) with
  | [] => .ok false
  | [_] => .ok true
  | _ => .error .repeatedOption

/-- The value of an option that may be given once. -/
def valueOf? (long : String) (arguments : List Argument) : Except UsageError (Option String) :=
  match valuesOf long arguments with
  | [] => .ok none
  | [text] => .ok (some text)
  | _ => .error .repeatedOption

end Argument

end SelectRouting
