import BootLoader.Bytes

/-!
The files of one directory, reached by paths as the system resolves them. Nothing is known of what
lies outside it: a path that leaves it finds directories on the way up, and no file.
-/

namespace BootLoader.Build

/-- the files at and below a directory, each under its path from there -/
abbrev Directory := List (String × Bytes)

inductive PathError where
  | missing
  | notDirectory
  | isDirectory
  | nameTooLong
deriving DecidableEq

namespace PathError

def code : PathError → Nat
  | missing => 2
  | notDirectory => 20
  | isDirectory => 21
  | nameTooLong => 36

def kind : PathError → String
  | missing => "NotFound"
  | notDirectory => "NotADirectory"
  | isDirectory => "IsADirectory"
  | nameTooLong => "InvalidFilename"

def reason : PathError → String
  | missing => "No such file or directory"
  | notDirectory => "Not a directory"
  | isDirectory => "Is a directory"
  | nameTooLong => "File name too long"

def inspect (e : PathError) : String :=
  s!"Os \x7b code: {e.code}, kind: {e.kind}, message: \"{e.reason}\" \x7d"

end PathError

inductive Position where
  /-- the names from the directory down to here -/
  | inside (names : List String)
  /-- a directory that is not below this one -/
  | outside
  /-- a name in such a directory, taken not to be there -/
  | unknown
deriving DecidableEq

namespace Position

def parent : Position → Position
  | inside [] => outside
  | inside names => inside names.dropLast
  | outside => outside
  | unknown => outside

def child : Position → String → Position
  | inside names, name => inside (names ++ [name])
  | _, _ => unknown

/-- One part of a path; an empty one is what two slashes in a row leave between them. -/
def enter (pos : Position) (part : String) : Position :=
  if part == "" || part == "." then pos
  else if part == ".." then pos.parent
  else pos.child part

def start (path : String) : Position := if path.startsWith "/" then outside else inside []

def ofPath (path : String) : Position := (path.splitOn "/").foldl enter (start path)

end Position

inductive Entry where
  | file (bytes : Bytes)
  | directory
  /-- nothing, but a file could be put there -/
  | free

namespace Directory

/-- The names that a file's own path is made of. -/
def namesOf (path : String) : List String :=
  (path.splitOn "/").filter fun part => part != "" && part != "."

/-- The directory itself is always there, and one below it for the sake of the files in it. -/
def entryAt (dir : Directory) : Position → Entry
  | .inside [] => .directory
  | .inside names =>
    match dir.find? fun file => namesOf file.1 == names with
    | some file => .file file.2
    | none =>
      if dir.any fun file => names.isPrefixOf (namesOf file.1) then .directory else .free
  | .outside => .directory
  | .unknown => .free

def maxNameBytes : Nat := 255

def maxPathBytes : Nat := 4095

/-- Follow the parts of a path; every one but the last must be a directory by the time the next
one is looked up in it. -/
def walk (dir : Directory) (pos : Position) : List String → Except PathError Position
  | [] => .ok pos
  | part :: parts =>
    match dir.entryAt pos with
    | .file _ => .error .notDirectory
    | .free => .error .missing
    | .directory =>
      if maxNameBytes < part.utf8ByteSize then .error .nameTooLong
      else walk dir (pos.enter part) parts

def resolve (dir : Directory) (path : String) : Except PathError Position :=
  if maxPathBytes < path.utf8ByteSize then .error .nameTooLong
  else walk dir (.start path) (path.splitOn "/")

def read? (dir : Directory) (path : String) : Option Bytes :=
  match dir.resolve path with
  | .error _ => none
  | .ok pos =>
    match dir.entryAt pos with
    | .file bytes => some bytes
    | _ => none

/-- The directory with a file at a position, in place of any that was there. A file outside it is
not seen from here. -/
def put (dir : Directory) (bytes : Bytes) : Position → Directory
  | .inside names =>
    ("/".intercalate names, bytes) :: dir.filter fun file => namesOf file.1 != names
  | _ => dir

/-- The files put into an empty directory one after another. Of those that share a place the last
one counts, whatever their paths look like. -/
def ofFiles (files : List (String × Bytes)) : Directory :=
  files.foldl (fun dir (path, bytes) => dir.put bytes (.ofPath path)) []

/-- Write a file. No directory is made for it. -/
def write (dir : Directory) (path : String) (bytes : Bytes) : Except PathError Directory := do
  let pos ← dir.resolve path
  match dir.entryAt pos with
  | .directory => throw .isDirectory
  | _ => return dir.put bytes pos

end Directory

def joinPath (dir name : String) : String :=
  if dir.isEmpty || dir.endsWith "/" then dir ++ name else dir ++ "/" ++ name

end BootLoader.Build
