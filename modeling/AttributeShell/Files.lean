import AttributeShell.Text.Bytes
import AttributeShell.Text.Split

/-!
The files that a program can read, as a value. A path leads from the root if it starts with a slash,
else from the working directory, and goes from directory to directory.
-/

namespace AttributeShell

inductive FileError where
  | notFound
  | isDirectory
  /-- The path leads on through a file. -/
  | notDirectory
  | notText
  /-- The path, or a name on it, is longer than paths or names can be. -/
  | nameTooLong
  /-- The path has a null character in it. -/
  | nullInPath
  | other (reason : String)
  deriving Repr, DecidableEq

def FileError.message : FileError → String
  | .notFound => "No such file or directory (os error 2)"
  | .isDirectory => "Is a directory (os error 21)"
  | .notDirectory => "Not a directory (os error 20)"
  | .notText => "stream did not contain valid UTF-8"
  | .nameTooLong => "File name too long (os error 36)"
  | .nullInPath => "file name contained an unexpected NUL byte"
  | .other reason => reason

/-- What stands at a path: a text, or something that cannot be read as one. -/
abbrev FileContent := Except FileError String

/-- Whether something stands there. Of an unknown reason it is taken to be so. -/
def FileContent.isThere : FileContent → Bool
  | .error .notFound | .error .notDirectory | .error .nameTooLong | .error .nullInPath => false
  | .error .isDirectory | .error .notText | .error (.other _) | .ok _ => true

/-- A place among the files: so many directories above the start, and the names that lead on from
there. -/
structure Place where
  fromRoot : Bool
  above : Nat
  names : List (List Char)
  deriving Repr, DecidableEq

namespace Place

/-- The place one directory higher. Nothing is above the root. -/
def parent (place : Place) : Place :=
  match place.names with
  | [] => if place.fromRoot then place else { place with above := place.above + 1 }
  | first :: rest => { place with names := (first :: rest).dropLast }

/-- The place to which a step of a path leads. A dot stays, and two dots go back. -/
def step (place : Place) (name : List Char) : Place :=
  if name = ['.'] then place
  else if name = ['.', '.'] then place.parent
  else { place with names := place.names ++ [name] }

def start (path : String) : Place := ⟨path.toList.head? = some '/', 0, []⟩

/-- The steps of a path. A slash at its end stays where it is, as a dot does. -/
def steps (path : String) : List (List Char) :=
  Text.parts '/' path.toList ++ if path.toList.getLast? = some '/' then [['.']] else []

def of (path : String) : Place := (steps path).foldl step (start path)

/-- Whether one place is another one, or above it. -/
def contains (above below : Place) : Bool :=
  above.fromRoot == below.fromRoot && above.above == below.above
    && above.names.isPrefixOf below.names

end Place

structure Files where
  entries : List (String × FileContent)

namespace Files

def empty : Files := ⟨[]⟩

instance : Inhabited Files := ⟨empty⟩

/-- What stands at a place. What lies above a file is a directory. -/
def contentAt (files : Files) (place : Place) : FileContent :=
  match files.entries.find? fun entry => Place.of entry.1 = place with
  | some entry => entry.2
  | none =>
    if place.names.isEmpty || files.entries.any fun entry => place.contains (Place.of entry.1) then
      .error .isDirectory
    else .error .notFound

/-- The greatest number of bytes in a name. -/
def maxNameLength : Nat := 255

/-- The greatest number of bytes in a path. -/
def maxPathLength : Nat := 4095

/-- Follows the steps of a path. Each of them is taken in a directory that is there. -/
def follow (files : Files) (place : Place) : List (List Char) → FileContent
  | [] => files.contentAt place
  | name :: rest =>
    match files.contentAt place with
    | .error .isDirectory =>
      if maxNameLength < Text.byteLength name then .error .nameTooLong
      else files.follow (place.step name) rest
    | .error .notFound => .error .notFound
    | _ => .error .notDirectory

/-- What stands at a path. A path under which something was put leads to that. -/
def content (files : Files) (path : String) : FileContent :=
  match files.entries.find? (·.1 == path) with
  | some entry => entry.2
  | none =>
    if path.isEmpty then .error .notFound
    else if path.toList.contains '\x00' then .error .nullInPath
    else if maxPathLength < Text.size path then .error .nameTooLong
    else files.follow (Place.start path) (Place.steps path)

def read (files : Files) (path : String) : Except FileError String := files.content path

def exists? (files : Files) (path : String) : Bool := (files.content path).isThere

/-- Puts a content at a path, in place of what stood there. -/
def put (files : Files) (path : String) (content : FileContent) : Files :=
  ⟨(path, content) :: files.entries.filter fun entry => Place.of entry.1 ≠ Place.of path⟩

/-- Writes a text, unless the path is that of a directory or cannot be that of a file. -/
def write (files : Files) (path text : String) : Option Files :=
  match files.content path with
  | .error .isDirectory | .error .notDirectory | .error .nameTooLong | .error .nullInPath => none
  | .error .notFound | .error .notText | .error (.other _) | .ok _ =>
    some (files.put path (.ok text))

def remove (files : Files) (path : String) : Option Files :=
  match files.content path with
  | .error .isDirectory => none
  | found =>
    if found.isThere then
      some ⟨files.entries.filter fun entry => Place.of entry.1 ≠ Place.of path⟩
    else none

end Files

end AttributeShell
