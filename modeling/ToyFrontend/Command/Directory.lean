namespace ToyFrontend
namespace Command

/-!
Files by path.  A path leads from a directory to a file name by name, from left
to right: each name must be found in the directory that the names before it led
to, so the first name that cannot be passed decides what is wrong with the path.
-/

/-- Why a document could not be loaded. -/
inductive LoadError where
  | notFound
  | notADirectory
  | isADirectory
  | nameTooLong
  | notText
  | other (text : String)
deriving DecidableEq, Repr

namespace LoadError

/-- What is said about a document that could not be loaded. -/
def message : LoadError -> String
  | .notFound => "No such file or directory (os error 2)"
  | .notADirectory => "Not a directory (os error 20)"
  | .isADirectory => "Is a directory (os error 21)"
  | .nameTooLong => "File name too long (os error 36)"
  | .notText => "stream did not contain valid UTF-8"
  | .other text => text

end LoadError

/-- The longest name that a directory can hold, in bytes. -/
def nameLimit : Nat := 255

/-- The longest path that can be followed, in bytes. -/
def pathLimit : Nat := 4095

/-- A place in a file system. -/
inductive Place where
  /-- So many directories up from the working directory, then down along names. -/
  | relative (up : Nat) (down : List String)
  /-- Down from the root along names. -/
  | absolute (down : List String)
deriving DecidableEq, Repr

namespace Place

/-- The names of a path, between its slashes. -/
def names (path : String) : List String :=
  path.splitOn "/"

/-- Where a path starts. -/
def origin (path : String) : Place :=
  if path.startsWith "/" then .absolute [] else .relative 0 []

/-- The directory around a place; the root is around itself. -/
def parent : Place -> Place
  | .relative up [] => .relative (up + 1) []
  | .relative up down => .relative up down.dropLast
  | .absolute down => .absolute down.dropLast

/-- What a directory holds under a name. -/
def child (place : Place) (name : String) : Place :=
  match place with
  | .relative up down => .relative up (down ++ [name])
  | .absolute down => .absolute (down ++ [name])

/-- Does a name stand for the directory it is looked up in? -/
def isHere (name : String) : Bool :=
  name == "" || name == "."

/-- Does a name stand for the directory around the one it is looked up in? -/
def isUp (name : String) : Bool :=
  name == ".."

/-- Where a name leads, whether or not anything is there. -/
def step (place : Place) (name : String) : Place :=
  if isHere name then
    place
  else if isUp name then
    place.parent
  else
    place.child name

/-- The places on the way along names, both ends included. -/
def visited (place : Place) : List String -> List Place
  | [] => [place]
  | name :: rest => place :: visited (place.step name) rest

/-- Is it the working directory, a directory around it, or the root? -/
def isAncestor : Place -> Bool
  | .relative _ down => down.isEmpty
  | .absolute down => down.isEmpty

end Place

/-- A file: where it is, and its bytes. -/
structure File where
  place : Place
  bytes : ByteArray

/-- What is known of a file system: some directories and some files. -/
structure Directory where
  folders : List Place
  files : List File

namespace Directory

/-- Nothing but the working directory and those around it. -/
def empty : Directory where
  folders := []
  files := []

/-- A single file, with the directories on the way to it. -/
def ofFile (path : String) (bytes : ByteArray) : Directory where
  folders := (Place.origin path).visited (Place.names path).dropLast
  files := [{ place := (Place.names path).foldl Place.step (Place.origin path), bytes }]

/-- The file at a place. -/
def file? (directory : Directory) (place : Place) : Option File :=
  directory.files.find? fun file => file.place == place

/-- Is there a directory at a place? -/
def isFolder (directory : Directory) (place : Place) : Bool :=
  place.isAncestor || directory.folders.contains place

/-- Follow names from a directory on, and give the bytes of the file they lead to. -/
def follow (directory : Directory) (place : Place) :
    List String -> Except LoadError ByteArray
  | [] => .error .isADirectory
  | name :: rest =>
      if Place.isHere name then
        follow directory place rest
      else if Place.isUp name then
        follow directory place.parent rest
      else if nameLimit < name.utf8ByteSize then
        .error .nameTooLong
      else
        match directory.file? (place.child name) with
        | some file => if rest.isEmpty then .ok file.bytes else .error .notADirectory
        | none =>
            if directory.isFolder (place.child name) then
              follow directory (place.child name) rest
            else
              .error .notFound

/-- The bytes of the file that a path leads to. -/
def load (directory : Directory) (path : String) : Except LoadError ByteArray :=
  if pathLimit < path.utf8ByteSize then
    .error .nameTooLong
  else
    directory.follow (Place.origin path) (Place.names path)

end Directory

end Command
end ToyFrontend
