/-!
Paths as text: names with slashes between them. A path that begins with a slash is absolute. Paths
are combined as they are written, without a look at any file, and keep their spelling.
-/

set_option autoImplicit false

namespace ShellConfig
namespace Path

/-- The pieces between the slashes, of which there is always one more than slashes. -/
def splitSlashes : List Char → List (List Char)
  | [] => [[]]
  | c :: rest =>
    if c = '/' then [] :: splitSlashes rest
    else match splitSlashes rest with
      | [] => [[c]]
      | piece :: more => (c :: piece) :: more

/-- The pieces of a path between its slashes. -/
def segments (path : String) : List String := (splitSlashes path.toList).map String.ofList

/-- The path with these pieces. -/
def ofSegments (pieces : List String) : String := String.intercalate "/" pieces

/-- Whether the path begins at the root. -/
def isAbsolute (path : String) : Bool := path.toList.head? = some '/'

/-- Whether the piece stays where it is: it is empty or a dot. -/
def isIdle (piece : String) : Bool := piece = "" || piece = "."

/-- Whether the piece is the name of a file or directory. -/
def isName (piece : String) : Bool := !isIdle piece && piece ≠ ".."

/-- The pieces of a path by which it is told from other paths: idle pieces do not count, but a dot
at the front does. -/
def components (path : String) : List String :=
  (if (segments path).head? = some "." then ["."] else []) ++
    (segments path).filter fun piece => !isIdle piece

/-- The pieces without the idle ones at the end. The first piece is kept in any case. -/
def trimIdle : List String → List String
  | [] => []
  | first :: rest => first :: (rest.reverse.dropWhile isIdle).reverse

/-- The directory part: the path without its last name and the slashes before it. The root and the
empty path have none, and the directory part of a single name is empty. -/
def parent? (path : String) : Option String :=
  match trimIdle (segments path) with
  | [] => none
  | [only] => if only = "" then none else some ""
  | pieces =>
    let above := trimIdle pieces.dropLast
    some (if above = [""] then "/" else ofSegments above)

/-- A path below a directory, with a slash between the two unless there is one or the directory is
the empty path. -/
def join (directory path : String) : String :=
  if directory = "" || directory.toList.getLast? = some '/' then directory ++ path
  else directory ++ "/" ++ path

/-- The path that a text with the given name means by another path. It counts from the directory
part of the text's name, unless it is absolute. -/
def resolve (source path : String) : String :=
  if isAbsolute path then path
  else match parent? source with
    | some directory => join directory path
    | none => path

example : resolve "conf/main.conf" "extra.conf" = "conf/extra.conf" := by decide +kernel
example : resolve "(eval)" "a/b.conf" = "a/b.conf" := by decide +kernel
example : resolve "/main.conf" "extra.conf" = "/extra.conf" := by decide +kernel
example : resolve "a/./b/." "c" = "a/c" := by decide +kernel

end Path
end ShellConfig
