import LicenseHeader.Check.Files

/-!
# File trees

A directory tree held in memory, with the files in it. It begins as a small system: the
directories that every system has, the device that is always empty, and a working directory,
from which a path is followed component by component unless it begins at the root.

## Main definitions

* `FileTree`, `FileTree.initially`: files and directories.
* `FileTree.write`, `FileTree.makeDirectory`, `FileTree.remove`: changes.
* `FileTree.follow`: what a path leads to.
* `FileTree.view`: what opening a path leads to.
-/

namespace LicenseHeader

/-- What a path can stand for. -/
inductive Entry where
  /-- A file with its content. -/
  | file (content : Bytes)
  /-- A directory. -/
  | directory
  deriving DecidableEq, Repr

/-- A place in a tree: the names of the directories that lead to it and its own, the last
one first. The root is the empty list. -/
abbrev TreePath := List Bytes

/-- A directory tree: its entries except the root, by their places. -/
structure FileTree where
  /-- The entries. -/
  entries : List (TreePath × Entry)
  deriving DecidableEq, Repr

namespace FileTree

/-- The entry at a place. -/
def get? (tree : FileTree) (place : TreePath) : Option Entry :=
  match place with
  | [] => some .directory
  | _ => (tree.entries.find? fun entry => entry.1 == place).map Prod.snd

/-- The tree with an entry at a place, in the stead of one that was there. -/
def insert (tree : FileTree) (place : TreePath) (entry : Entry) : FileTree :=
  ⟨(place, entry) :: tree.entries.filter fun other => other.1 != place⟩

/-- The tree without the entry at a place. -/
def erase (tree : FileTree) (place : TreePath) : FileTree :=
  ⟨tree.entries.filter fun other => other.1 != place⟩

/-! ### Paths -/

/-- The slash, which separates components. -/
def slash : UInt8 := 0x2F

/-- The components of a path; `component` holds the unfinished one in reverse. -/
def componentsFrom (component : Bytes) : Bytes → List Bytes
  | [] => [component.reverse]
  | b :: rest =>
    if b = slash then component.reverse :: componentsFrom [] rest
    else componentsFrom (b :: component) rest

/-- The components of a path, empty ones included. -/
def components (path : Bytes) : List Bytes :=
  componentsFrom [] path

/-- The component for the directory itself. -/
def here : Bytes := [0x2E]

/-- The component for the directory above. -/
def above : Bytes := [0x2E, 0x2E]

/-- The most bytes of a component. -/
def longestComponent : Nat := 255

/-- The most bytes of a path. -/
def longestPath : Nat := 4095

/-! ### Failures -/

/-- Nothing is there. -/
def notFound : Failure := ⟨.notFound, "No such file or directory (os error 2)"⟩

/-- A directory is needed, and something else is there. -/
def notADirectory : Failure := ⟨.notADirectory, "Not a directory (os error 20)"⟩

/-- A file is needed, and a directory is there. -/
def isADirectory : Failure := ⟨.isADirectory, "Is a directory (os error 21)"⟩

/-- A name has too many bytes. -/
def nameTooLong : Failure := ⟨.invalidFilename, "File name too long (os error 36)"⟩

/-- A name holds the byte that ends names. -/
def nulByte : Failure := ⟨.invalidInput, "file name contained an unexpected NUL byte"⟩

/-! ### The system -/

/-- The directories in the root. -/
def systemDirectories : List String :=
  ["bin", "boot", "dev", "etc", "home", "lib", "media", "mnt", "opt", "proc", "root", "run",
   "sbin", "srv", "sys", "tmp", "usr", "var"]

/-- The directory in the root that holds the working directory. -/
def temporary : Bytes := Bytes.ofString "tmp"

/-- The place of the working directory. Its own name is one that no path can spell. -/
def working : TreePath := [[], temporary]

/-- The place of the device that is always empty. -/
def nullDevice : TreePath := [Bytes.ofString "null", Bytes.ofString "dev"]

/-- The system with nothing in the working directory. -/
def initially : FileTree :=
  ⟨(working, .directory) :: (nullDevice, .file []) ::
    systemDirectories.map fun name => ([Bytes.ofString name], .directory)⟩

/-- Where a path begins. -/
def startOf (path : Bytes) : TreePath :=
  if path.head? = some slash then [] else working

/-! ### Following paths -/

/-- Follows components from a place of the tree. A component that is empty or stands for the
directory itself leads nowhere else, but needs a directory to stand behind. Nothing lies above
the root but the root. -/
def followFrom (tree : FileTree) (place : TreePath) : List Bytes → Except Failure TreePath
  | [] => .ok place
  | component :: components =>
    match tree.get? place with
    | none => .error notFound
    | some (.file _) => .error notADirectory
    | some .directory =>
      if component.isEmpty || component = here then followFrom tree place components
      else if component = above then followFrom tree place.tail components
      else if component.length > longestComponent then .error nameTooLong
      else
        match tree.get? (component :: place) with
        | none => .error notFound
        | some _ => followFrom tree (component :: place) components

/-- The place that a path leads to. -/
def locate (tree : FileTree) (path : Bytes) : Except Failure TreePath :=
  if path.contains 0 then .error nulByte
  else if path.length > longestPath then .error nameTooLong
  else if path.isEmpty then .error notFound
  else tree.followFrom (startOf path) (components path)

/-- What a path leads to. -/
def follow (tree : FileTree) (path : Bytes) : Except Failure Entry := do
  match tree.get? (← tree.locate path) with
  | some entry => .ok entry
  | none => .error notFound

/-! ### Opening -/

/-- How many bytes of a file are read at once. -/
def pieceSize : Nat := 8192

/-- What opening a path leads to. A directory can be opened, and fails when it is read. -/
def view (tree : FileTree) : FileView := fun path =>
  match tree.follow path with
  | .error failure => .error failure
  | .ok .directory => .ok [.failure isADirectory]
  | .ok (.file content) => .ok (Event.pieces pieceSize content)

/-! ### Changes -/

/-- Follows components from a place of the tree and makes the directories that are missing on
the way. -/
def makeFrom (tree : FileTree) (place : TreePath) : List Bytes → FileTree × TreePath
  | [] => (tree, place)
  | component :: components =>
    if component.isEmpty || component = here then makeFrom tree place components
    else if component = above then makeFrom tree place.tail components
    else
      let place := component :: place
      match tree.get? place with
      | some _ => makeFrom tree place components
      | none => makeFrom (tree.insert place .directory) place components

/-- The tree with a directory at a path. -/
def makeDirectory (tree : FileTree) (path : Bytes) : FileTree :=
  (tree.makeFrom (startOf path) (components path)).1

/-- The tree with a file at a path, and with the directories that lead to it. -/
def write (tree : FileTree) (path content : Bytes) : FileTree :=
  let components := components path
  let (tree, place) := tree.makeFrom (startOf path) components.dropLast
  tree.insert (components.getLastD [] :: place) (.file content)

/-- The tree without the file at a path. -/
def remove (tree : FileTree) (path : Bytes) : FileTree :=
  match tree.locate path with
  | .ok place => tree.erase place
  | .error _ => tree

end FileTree

end LicenseHeader
