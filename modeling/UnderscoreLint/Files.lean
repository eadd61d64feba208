import UnderscoreLint.Path
import UnderscoreLint.Text.Lines
import UnderscoreLint.Text.Quoted

/-!
# Files

What a run can see of the files around it: for each path, whether there is a file, a
directory, or nothing, and what the file holds. A run never writes.

`Tree` describes the files below one directory, and `Tree.files` what can be seen from
there. The directories above it are there too, but nothing in them can be seen.
-/

namespace UnderscoreLint

/-- What a path leads to. -/
inductive FileStatus where
  | missing
  /-- The path goes through something that is no directory. -/
  | notDirectory
  /-- The path, or a name that would have to be looked up, is too long. -/
  | tooLong
  /-- The path goes through a directory in which nothing may be looked up. -/
  | barred
  | directory
  /-- There is a file, but it may not be opened. -/
  | denied
  /-- There is a file, but reading it fails. -/
  | failing
  | file (content : ByteArray)

/-- What each path leads to. -/
structure Files where
  status : String → FileStatus

/-- Why a file cannot be read. -/
inductive FileError where
  | missing
  | notDirectory
  | tooLong
  /-- The file may not be opened, or not be looked up. -/
  | denied
  | directory
  | failing
  deriving DecidableEq, Repr

/-- The words of a file error, with the number that goes with them. A file that is read already
when it fails is not named. -/
def FileError.message (path : String) : FileError → String
  | .missing => "[Errno 2] No such file or directory: " ++ Text.quoted path
  | .failing => "[Errno 5] Input/output error"
  | .denied => "[Errno 13] Permission denied: " ++ Text.quoted path
  | .notDirectory => "[Errno 20] Not a directory: " ++ Text.quoted path
  | .directory => "[Errno 21] Is a directory: " ++ Text.quoted path
  | .tooLong => "[Errno 36] File name too long: " ++ Text.quoted path

/-- What reading comes to where a path leads. -/
def FileStatus.content : FileStatus → Except FileError ByteArray
  | .file content => .ok content
  | .missing => .error .missing
  | .notDirectory => .error .notDirectory
  | .tooLong => .error .tooLong
  | .barred | .denied => .error .denied
  | .directory => .error .directory
  | .failing => .error .failing

/-- Whether a path leads to a file, if that can be found out. Nothing can be looked up along a path
that is too long, or through a directory that does not allow it. -/
def FileStatus.isFile : FileStatus → Except FileError Bool
  | .file _ | .denied | .failing => .ok true
  | .missing | .notDirectory | .directory => .ok false
  | .tooLong => .error .tooLong
  | .barred => .error .denied

/-- The bytes of a file. -/
def Files.read (files : Files) (path : String) : Except FileError ByteArray :=
  (files.status path).content

/-- The characters of a text in UTF-8, with every line end written as a line feed. -/
def decodeText? (content : ByteArray) : Option (List Char) :=
  (String.fromUTF8? content).map fun s => Text.unifyLineEnds s.toList

/-- A file or an empty directory, at the names that lead to it. -/
inductive TreeEntry where
  | file (names : List String) (content : ByteArray)
  | directory (names : List String)

/-- The files below a directory. Directories that lead to a file are understood. -/
abbrev Tree := List TreeEntry

/-- The names that lead to an entry. -/
def TreeEntry.names : TreeEntry → List String
  | .file names _ => names
  | .directory names => names

namespace Tree

/-- What is at the names, seen from the directory of the tree. -/
def find (t : Tree) (names : List String) : FileStatus :=
  if names = [] then .directory
  else
    match List.find? (fun e : TreeEntry => decide (e.names = names)) t with
    | some (.file _ content) => .file content
    | some (.directory _) => .directory
    | none => if t.any fun e => names.isPrefixOf e.names then .directory else .missing

/-- A place on the way along a path: below the directory of the tree, or above it. -/
inductive Place where
  | below (names : List String)
  | above

/-- What is at a place. -/
def statusAt (t : Tree) : Place → FileStatus
  | .below names => t.find names
  | .above => .directory

/-- Follows the names of a path from a place on. A name is looked up in a directory only, and
one that is too long cannot be. -/
def follow (t : Tree) : Place → List String → FileStatus
  | p, [] => t.statusAt p
  | p, name :: rest =>
    match t.statusAt p with
    | .directory =>
      if name = Path.here then t.follow p rest
      else if Path.longestName < name.utf8ByteSize then .tooLong
      else
        match p with
        | .above => if name = Path.up then t.follow .above rest else .missing
        | .below names =>
          if name = Path.up then
            if names = [] then t.follow .above rest else t.follow (.below names.dropLast) rest
          else t.follow (.below (names ++ [name])) rest
    | .file _ => .notDirectory
    | status => status

/-- The steps of a path. A slash at the end asks for a directory, as a dot behind it would. -/
def stepsOf (path : String) : List String :=
  let names := (Path.pieces path).filter (· ≠ "")
  if path.toList.getLast? = some '/' then names ++ [Path.here] else names

/-- What a path leads to from the directory of the tree. The empty path leads nowhere. -/
def status (t : Tree) (path : String) : FileStatus :=
  if path = "" then .missing
  else if Path.longestPath < path.utf8ByteSize then .tooLong
  else if path.toList.head? = some '/' then t.follow .above (stepsOf path)
  else t.follow (.below []) (stepsOf path)

/-- What can be seen from the directory of the tree. -/
def files (t : Tree) : Files :=
  ⟨t.status⟩

end Tree

end UnderscoreLint
