import AnchorScan.Failure
import AnchorScan.Scanner.Reader

/-!
# AnchorScan.CommandLine.FileTree

Files as the program sees them: a tree of directories with regular files and
devices, some of them empty and some that never run out of zeros.  A place in
the tree is the list of names that lead to it from the root.  A path is followed
name by name; every name but the last has to lead to a directory, a single dot
stays and a double dot goes back.  Names and paths have a longest length, and a
name that is too long is met where a directory is searched for it.
-/

namespace AnchorScan

/-- The names that lead from the root to a place. -/
abbrev Place := List String

/-- What there is at a place. -/
inductive Node where
  | regular (content : Bytes)
  | directory
  | null
  | zeros
  deriving DecidableEq, Repr

/-- The regular files, by their places, and the place that paths without a
leading slash start from. -/
structure FileTree where
  files : List (Place × Bytes)
  home : Place

namespace FileTree

/-- Files by their paths below a home directory. -/
def ofFiles (home : Place) (files : List (String × Bytes)) : FileTree :=
  ⟨files.map fun (path, content) => (home ++ path.splitOn "/", content), home⟩

/-- The device of a name.  Nobody types anything in, what is printed cannot be
read back, and chance brings nothing but zeros. -/
def device? : String → Option Node
  | "null" | "stdin" | "stdout" | "stderr" => some .null
  | "zero" | "full" | "random" | "urandom" => some .zeros
  | _ => none

/-- The directories that every machine has below its root. -/
def standardDirectories : List String :=
  ["bin", "dev", "etc", "home", "lib", "proc", "root", "run", "sbin", "sys", "tmp", "usr", "var"]

/-- Whether a place is the root, one of the standard directories, or a place
from which some names lead on to a file or to the home directory. -/
def isDirectory (tree : FileTree) (place : Place) : Bool :=
  match place with
  | [] => true
  | [name] => standardDirectories.contains name || leadsOn
  | _ => leadsOn
where
  leadsOn : Bool :=
    place.isPrefixOf tree.home ||
      tree.files.any fun (file, _) => place.isPrefixOf file && place != file

/-- What there is at a place. -/
def node? (tree : FileTree) (place : Place) : Option Node :=
  match place with
  | ["dev", name] => device? name
  | _ => if tree.isDirectory place then some .directory else (tree.files.lookup place).map .regular

/-! ## paths -/

/-- Number of octets in the longest name. -/
def maxNameOctets : Nat := 255

/-- Number of octets in the longest path. -/
def maxPathOctets : Nat := 4095

/-- Goes on from a place by one name. -/
def enter (tree : FileTree) (place : Place) (name : String) : Except FileFault Place :=
  match tree.node? place with
  | some .directory =>
    if name = "" ∨ name = "." then .ok place
    else if name = ".." then .ok place.dropLast
    else if name.utf8ByteSize ≤ maxNameOctets then .ok (place ++ [name])
    else .error .nameTooLong
  | some _ => .error .notDirectory
  | none => .error .notFound

/-- Goes on from a place by names, the last of which may lead to nothing. -/
def follow (tree : FileTree) (place : Place) : List String → Except FileFault Place
  | [] => .ok place
  | name :: rest =>
    match tree.enter place name with
    | .ok place => tree.follow place rest
    | .error fault => .error fault

/-- Where a path starts, and its names.  Text with a NUL is no path, and neither
is empty or overlong text. -/
def start (tree : FileTree) (path : String) : Except FileFault (Place × List String) :=
  if path.toList.contains '\x00' then .error .nulInPath
  else if path = "" then .error .notFound
  else if path.utf8ByteSize ≤ maxPathOctets then
    match path.toList with
    | '/' :: _ => .ok ([], path.splitOn "/")
    | _ => .ok (tree.home, path.splitOn "/")
  else .error .nameTooLong

/-- The place of a path, whether or not there is anything. -/
def locate (tree : FileTree) (path : String) : Except FileFault Place :=
  match tree.start path with
  | .error fault => .error fault
  | .ok (place, names) => tree.follow place names

/-- The names that lead to the one before the slashes, if a path ends in a slash.
Slashes at the end leave empty names behind. -/
def slashed? (names : List String) : Option (List String) :=
  match names.reverse with
  | "" :: rest => some ((rest.dropWhile (· = "")).drop 1).reverse
  | _ => none

/-- The place of a path to write to.  A path that ends in a slash can only name a
directory, which nothing is written to; its last name is not looked up. -/
def locateForAppend (tree : FileTree) (path : String) : Except FileFault Place :=
  match tree.start path with
  | .error fault => .error fault
  | .ok (place, names) =>
    match slashed? names with
    | none => tree.follow place names
    | some above =>
      match tree.follow place (above ++ ["."]) with
      | .error fault => .error fault
      | .ok _ => .error .isDirectory

/-- Opens a file for writing at its end, and creates it where there is none. -/
def openForAppend (tree : FileTree) (path : String) : Except FileFault (Place × FileTree) :=
  match tree.locateForAppend path with
  | .error fault => .error fault
  | .ok place =>
    match tree.node? place with
    | some .directory => .error .isDirectory
    | some _ => .ok (place, tree)
    | none => .ok (place, { tree with files := tree.files ++ [(place, [])] })

end FileTree

end AnchorScan
