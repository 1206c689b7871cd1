import ShellConfig.File.Fault
import ShellConfig.File.Path

/-!
Files as data: a tree of directories and files with their contents, seen from a working directory.
Different paths can lead to one place; `locate` finds the place, and reading and writing go there.
There are no links and no permissions, so a place is known by the names that lead to it from the
root. That is the canonical path, by which an evaluation knows the files that it has open; where the
system does not find it, the path itself has to do (`identity`).
-/

set_option autoImplicit false

namespace ShellConfig

/-- A place for a file or directory: the names that lead there from the root. -/
structure Place where
  /-- The names on the way. -/
  names : List String
deriving DecidableEq

namespace Place

/-- The top of all directories. -/
def root : Place := ⟨[]⟩

/-- The place with one more name on the way. -/
def child (place : Place) (name : String) : Place := ⟨place.names ++ [name]⟩

/-- The directory that holds the place. The root holds itself. -/
def parent (place : Place) : Place := ⟨place.names.dropLast⟩

/-- The place to which one piece of a path leads. -/
def enter (place : Place) (piece : String) : Place :=
  if Path.isIdle piece then place
  else if piece = ".." then place.parent
  else place.child piece

/-- The length in bytes of the path that names the place from the root on. -/
def bytes (place : Place) : Nat :=
  place.names.foldl (fun bytes name => bytes + (name.utf8ByteSize + 1)) 0

end Place

/-- What is at a place. -/
inductive Node where
  /-- A file with its contents. -/
  | file (contents : ByteArray)
  /-- A directory. -/
  | directory

/-- Files and directories by their places. -/
structure FileTree where
  /-- What is where. The first entry for a place counts. -/
  entries : List (Place × Node)
  /-- The directory from which relative paths count. -/
  working : Place
  /-- Names lead to it, and nothing else does. -/
  named : ∀ name ∈ working.names, Path.isName name = true

/-- What tells one open file from another: pieces of a path, from the root on or relative. -/
structure Identity where
  /-- Whether the pieces begin at the root. -/
  absolute : Bool
  /-- The pieces on the way. -/
  pieces : List String
deriving DecidableEq

/-- The canonical path of a place. -/
def Identity.ofPlace (place : Place) : Identity := ⟨true, place.names⟩

namespace FileTree

/-- No files, and no directories but those that lead to the working directory. -/
def empty : FileTree := ⟨[], ⟨["private", "work"]⟩, by decide⟩

instance : Inhabited FileTree := ⟨empty⟩

/-- What is at a place. The working directory is one, and so are those that hold it. -/
def node? (tree : FileTree) (place : Place) : Option Node :=
  if place.names.isPrefixOf tree.working.names then some .directory
  else tree.entries.lookup place

/-- The directory at which a path begins. -/
def origin (tree : FileTree) (path : String) : Place :=
  if Path.isAbsolute path then .root else tree.working

/-- The longest name that a file can have, in bytes. -/
def maxNameBytes : Nat := 255

/-- The longest path that can be followed, in bytes. -/
def maxPathBytes : Nat := 4095

/-- Follows the pieces of a path. Each one has to be taken from a directory, and each name has to be
there and lead to a place that is asked for. -/
def walk (tree : FileTree) (fits : Place → Bool) (place : Place) :
    List String → Except FileFault Place
  | [] => .ok place
  | piece :: rest =>
    match tree.node? place with
    | none => .error .missing
    | some (.file _) => .error .notDirectory
    | some .directory =>
      if !Path.isName piece then tree.walk fits (place.enter piece) rest
      else if maxNameBytes < piece.utf8ByteSize || !fits (place.child piece) then
        .error .nameTooLong
      else if (tree.node? (place.child piece)).isNone then .error .missing
      else tree.walk fits (place.child piece) rest

/-- Follows the pieces of a path, whatever the places are. -/
def follow (tree : FileTree) : Place → List String → Except FileFault Place :=
  tree.walk fun _ => true

/-- What keeps a path from being followed at all. -/
def pathFault? (path : String) : Option FileFault :=
  if '\x00' ∈ path.toList then some .nulInName
  else if path = "" then some .missing
  else if maxPathBytes < path.utf8ByteSize then some .nameTooLong
  else none

/-- The place to which a path leads. Paths that lead to one place name one file. -/
def locate (tree : FileTree) (path : String) : Except FileFault Place :=
  match pathFault? path with
  | some fault => .error fault
  | none => tree.follow (tree.origin path) (Path.segments path)

/-- The place of which a path has the canonical path. The system looks up every place on the way
from the root, so none of these can be too long; the path itself can. -/
def canonical? (tree : FileTree) (path : String) : Option Place :=
  if '\x00' ∈ path.toList || path = "" then none
  else (tree.walk (fun place => place.bytes ≤ maxPathBytes) (tree.origin path)
    (Path.segments path)).toOption

/-- By what a path is known: the canonical path, or else the path as it is. -/
def identity (tree : FileTree) (path : String) : Identity :=
  match tree.canonical? path with
  | some place => .ofPlace place
  | none => ⟨Path.isAbsolute path, Path.components path⟩

/-- The text of the file at a place. -/
def textAt (tree : FileTree) (place : Place) : Except FileFault String :=
  match tree.node? place with
  | none => .error .missing
  | some .directory => .error .isDirectory
  | some (.file contents) =>
    match String.fromUTF8? contents with
    | some text => .ok text
    | none => .error .notText

/-- The text of the file at a path, and by what the path is known. -/
def openText (tree : FileTree) (path : String) : Except FileFault (Identity × String) :=
  match tree.locate path with
  | .error fault => .error fault
  | .ok place =>
    match tree.textAt place with
    | .error fault => .error fault
    | .ok text => .ok (tree.identity path, text)

theorem textAt_empty (place : Place) : ∃ fault, empty.textAt place = .error fault := by
  unfold textAt node?
  split
  · exact ⟨_, rfl⟩
  · exact ⟨_, rfl⟩
  · next contents hnode =>
    split at hnode <;> cases hnode

/-- Where there are no files none can be read. -/
theorem openText_empty (path : String) : ∃ fault, empty.openText path = .error fault := by
  unfold openText
  cases empty.locate path with
  | error fault => exact ⟨fault, rfl⟩
  | ok place =>
    obtain ⟨fault, hfault⟩ := textAt_empty place
    exact ⟨fault, by simp only [hfault]⟩

/-- Puts something at a place, instead of what is there. -/
def put (tree : FileTree) (place : Place) (node : Node) : FileTree :=
  { tree with entries := tree.entries.filter (·.1 ≠ place) ++ [(place, node)] }

/-- Writes a text to a path, whose directory has to be there. -/
def writeText (tree : FileTree) (path text : String) : Except FileFault FileTree :=
  match pathFault? path with
  | some fault => .error fault
  | none =>
    let pieces := (Path.segments path).reverse
    match pieces.dropWhile (· = "") with
    | [] => .error .isDirectory
    | last :: above =>
      match tree.follow (tree.origin path) (above.reverse ++ ["."]) with
      | .error fault => .error fault
      | .ok directory =>
        if last = "." || last = ".." || pieces.head? = some "" then .error .isDirectory
        else if maxNameBytes < last.utf8ByteSize then .error .nameTooLong
        else match tree.node? (directory.child last) with
          | some .directory => .error .isDirectory
          | _ => .ok (tree.put (directory.child last) (.file text.toUTF8))

/-- Follows the pieces of a path, and puts a directory wherever there is nothing on the way. -/
def addDirectories (tree : FileTree) (place : Place) : List String → FileTree × Place
  | [] => (tree, place)
  | piece :: rest =>
    let next := place.enter piece
    if (tree.node? next).isNone then (tree.put next .directory).addDirectories next rest
    else tree.addDirectories next rest

/-- Adds a directory, with those on the way. -/
def addDirectory (tree : FileTree) (path : String) : FileTree :=
  (tree.addDirectories (tree.origin path) (Path.segments path)).1

/-- Adds a file, with the directories on the way. -/
def addFile (tree : FileTree) (path : String) (contents : ByteArray) : FileTree :=
  let pieces := Path.segments path
  let (tree, directory) := tree.addDirectories (tree.origin path) pieces.dropLast
  tree.put (directory.enter (pieces.getLastD "")) (.file contents)

end FileTree

end ShellConfig
