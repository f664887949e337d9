import SelectRouting.Text.Blank
import SelectRouting.Text.Case

/-!
# Routes

Which physical table stands for a logical one on a shard. Logical names are matched without regard
to the case of ASCII letters, and the last route of a name wins.
-/

namespace SelectRouting

/-- Pairs of a logical name in lower case and a physical name, the newest first. -/
structure Routes where
  entries : List (String × String) := []

namespace Routes

/-- The routes with one more. -/
def insert (routes : Routes) (logical physical : String) : Routes :=
  ⟨(Text.lower logical, physical) :: routes.entries⟩

/-- The routes of a list of pairs, which are inserted in order. -/
def ofList (pairs : List (String × String)) : Routes :=
  pairs.foldl (fun routes (logical, physical) => routes.insert logical physical) {}

/-- The physical name for a logical one. -/
def get? (routes : Routes) (logical : String) : Option String :=
  routes.entries.lookup (Text.lower logical)

/-- There is no route. -/
def isEmpty (routes : Routes) : Bool :=
  routes.entries.isEmpty

/-- The pair that is written as `logical=physical`: the text is cut at the first equals sign, blanks
around the names are dropped, and neither name may be empty. -/
def pairOf? (route : String) : Option (String × String) :=
  let logical := route.toList.takeWhile (· != '=')
  match route.toList.dropWhile (· != '=') with
  | [] => none
  | _ :: physical =>
    let logical := Text.trim (String.ofList logical)
    let physical := Text.trim (String.ofList physical)
    if logical.isEmpty || physical.isEmpty then none else some (logical, physical)

end Routes

end SelectRouting
