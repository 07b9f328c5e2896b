/-!
# Files

The files that a run can see form a tree of directories. A path leads through
the tree from the working directory, or from the root if it begins with a slash,
and reading it fails with the fault of the first step that cannot be taken.
-/

namespace PocketSql

/-- Why a file cannot be read. -/
inductive FileFault where
  | missing
  | denied
  | notDirectory
  | isDirectory
  | nameTooLong
  | other (reason : String)
deriving DecidableEq

/-- The fault in the words of the operating system, with its number. -/
def FileFault.message : FileFault → String
  | missing => "No such file or directory (os error 2)"
  | denied => "Permission denied (os error 13)"
  | notDirectory => "Not a directory (os error 20)"
  | isDirectory => "Is a directory (os error 21)"
  | nameTooLong => "File name too long (os error 36)"
  | other reason => reason

inductive FileTree where
  | file (contents : ByteArray)
  | directory (entries : List (String × FileTree))

/-- A place in a tree: what is there, and the directories that it lies in, the
nearest first. -/
structure FilePlace where
  here : FileTree
  parents : List FileTree

namespace FilePlace

/-- The outermost directory. -/
def root (p : FilePlace) : FilePlace :=
  ⟨p.parents.getLastD p.here, []⟩

/-- The directory around a place; the root lies in itself. -/
def parent (p : FilePlace) : FilePlace :=
  match p.parents with
  | [] => p
  | nearest :: outer => ⟨nearest, outer⟩

/-- The most bytes that a name can have. -/
def maxNameSize : Nat := 255

/-- The most bytes that a path can have. -/
def maxPathSize : Nat := 4095

/-- Goes to the entry of a name. No name and a point stand for the directory itself, two
points for the one around it. -/
def enter (p : FilePlace) (name : String) : Except FileFault FilePlace :=
  match p.here with
  | .file _ => .error .notDirectory
  | .directory entries =>
    if name = "" ∨ name = "." then .ok p
    else if name = ".." then .ok p.parent
    else if maxNameSize < name.utf8ByteSize then .error .nameTooLong
    else
      match entries.lookup name with
      | some entry => .ok ⟨entry, p.here :: p.parents⟩
      | none => .error .missing

/-- The names between the slashes of a path. -/
def names : List Char → List (List Char)
  | [] => [[]]
  | c :: path =>
    if c = '/' then [] :: names path
    else
      match names path with
      | [] => [[c]]
      | name :: rest => (c :: name) :: rest

/-- The place that a path leads to. -/
def follow (p : FilePlace) (path : String) : Except FileFault FilePlace :=
  if path = "" then .error .missing
  else if maxPathSize < path.utf8ByteSize then .error .nameTooLong
  else
    ((names path.toList).map String.ofList).foldlM enter
      (if path.toList.head? = some '/' then p.root else p)

/-- The contents of the file that a path leads to. -/
def read (p : FilePlace) (path : String) : Except FileFault ByteArray := do
  match (← p.follow path).here with
  | .file contents => return contents
  | .directory _ => throw .isDirectory

end FilePlace

end PocketSql
