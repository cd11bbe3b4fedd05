import RelaxDoc.Text.Lines

/-! Paths as texts. Empty components and single dots count for nothing, except for a dot
that begins a relative path. -/
namespace RelaxDoc.Path

/-- The components between the slashes of a path, as they are written. -/
def written (path : List Char) : List (List Char) := Text.split '/' path

/-- Components as they are written, without empty ones. -/
def filled (parts : List (List Char)) : List String := (parts.filter (· ≠ [])).map String.ofList

/-- The components of a path in order. -/
def components (path : String) : List String := filled (written path.toList)

/-- A component that counts for nothing. -/
def isIdle (component : List Char) : Bool := component == [] || component == ['.']

/-- Whether a path starts at the root of the file system. -/
def isAbsolute (path : String) : Bool := path.toList.head? == some '/'

/-- Components in reverse without the idle ones they begin with, which are those at the end
of the path. The first component of a relative path is not idle unless it is empty. -/
def dropIdle (absolute : Bool) : List (List Char) → List (List Char)
  | [] => []
  | [first] => if absolute || first == [] then [] else [first]
  | last :: before => if isIdle last then dropIdle absolute before else last :: before

/-- The components of a path in reverse, idle ones at its end left out. -/
def active (path : String) : List (List Char) :=
  dropIdle (isAbsolute path) (written path.toList).reverse

/-- The path that components, given in reverse, write. -/
def ofActive (absolute : Bool) (components : List (List Char)) : String :=
  match components with
  | [] => if absolute then "/" else ""
  | _ => String.ofList (Text.joinWith ['/'] components.reverse)

/-- The path without its last component, if it has one. -/
def parent? (path : String) : Option String :=
  match active path with
  | [] => none
  | _ :: before => some (ofActive (isAbsolute path) (dropIdle (isAbsolute path) before))

/-- The last component of a path, if it is a name. -/
def fileName? (path : String) : Option String :=
  match active path with
  | [] => none
  | last :: _ =>
    if last == ['.'] || last == ['.', '.'] then none else some (String.ofList last)

/-- A path followed by another. An absolute one replaces it. -/
def join (path further : String) : String :=
  if isAbsolute further || path = "" then further
  else if path.toList.getLast? = some '/' then path ++ further
  else path ++ "/" ++ further

/-- A path and the paths around it, `bound` of them at most. -/
def ancestorsUpTo : (bound : Nat) → String → List String
  | 0, _ => []
  | bound + 1, path =>
    path :: match parent? path with
      | none => []
      | some parent => ancestorsUpTo bound parent

/-- A path and all the paths around it, the nearest first. -/
def ancestors (path : String) : List String := ancestorsUpTo (path.length + 1) path

end RelaxDoc.Path
