import InferenceConfig.Document.Location

/-!
# Folders

A folder is what file operations work on: files and directories below a root directory,
each under the names that lead to it. Every path starts at the root. Reading and writing
follow a path part by part, as an operating system does: each part but the last must name a
directory, a slash at the end asks for one, and single and double dots stay or go up. Names
have at most 255 bytes, paths less than 4096, and none of them is zero.

Nothing in a folder is protected and nothing runs full: a file can be read wherever there is one,
and written wherever a directory can hold it. In particular, a file that has been read can be
written under the same path. So the errors here are those that the path and the nodes decide;
`IoError.other` is for real files only, and no operation on a folder ends with it.

## Main definitions

* `IoError` — why a file cannot be read or written;
* `Folder`, `Folder.node?` — what is at a place;
* `Folder.read`, `Folder.write` — a file's bytes, and the folder with new ones;
* `Folder.files`, `Folder.changes` — all files, and those that differ between two folders.
-/

namespace InferenceConfig

/-- Why a file cannot be read or written. -/
inductive IoError where
  /-- Nothing has this path. -/
  | notFound
  /-- A part of the path is not a directory. -/
  | notDirectory
  /-- The path leads to a directory. -/
  | isDirectory
  /-- A name or the whole path is too long. -/
  | nameTooLong
  /-- The path contains a zero byte. -/
  | zeroByte
  /-- Any other reason, as the system words it; it never arises in a `Folder`. -/
  | other (text : String)
  deriving DecidableEq, Repr

/-- The wording of an error. -/
def IoError.message : IoError → String
  | .notFound => "No such file or directory (os error 2)"
  | .notDirectory => "Not a directory (os error 20)"
  | .isDirectory => "Is a directory (os error 21)"
  | .nameTooLong => "File name too long (os error 36)"
  | .zeroByte => "file name contained an unexpected NUL byte"
  | .other text => text

/-- The name of a file or directory. -/
abbrev FileName := List UInt8

/-- A place below the root: the names that lead to it. -/
abbrev Place := List FileName

/-- What can be at a place. -/
inductive Node where
  /-- A file with its bytes. -/
  | file (bytes : List UInt8)
  /-- A directory. -/
  | directory
  deriving DecidableEq, Repr

/-- Files and directories below a root, each place at most once. -/
structure Folder where
  /-- What is at the places that are not empty. -/
  nodes : List (Place × Node) := []
  deriving DecidableEq, Repr, Inhabited

namespace Folder

/-- What is at a place; the root is a directory. -/
def node? (folder : Folder) (place : Place) : Option Node :=
  if place = [] then some .directory else folder.nodes.lookup place

/-- The folder with another node at a place. -/
def put (folder : Folder) (place : Place) (node : Node) : Folder :=
  ⟨(place, node) :: folder.nodes.filter fun entry => entry.1 ≠ place⟩

/-- The folder without a place and all places below it. -/
def remove (folder : Folder) (place : Place) : Folder :=
  ⟨folder.nodes.filter fun entry => !place.isPrefixOf entry.1⟩

/-- What is wrong with a path whatever the folder. -/
def flaw? (location : Location) : Option IoError :=
  if location.bytes.contains 0 then some .zeroByte
  else if location.bytes = [] then some .notFound
  else if 4096 ≤ location.bytes.length then some .nameTooLong
  else none

/-- The place where one step from a directory leads, whether or not anything is there. -/
def step (folder : Folder) (place : Place) (part : FileName) : Except IoError Place :=
  match folder.node? place with
  | none => .error .notFound
  | some (.file _) => .error .notDirectory
  | some .directory =>
    if part = [] ∨ part = Location.here then .ok place
    else if part = Location.above then .ok place.dropLast
    else if 255 < part.length then .error .nameTooLong
    else .ok (place ++ [part])

/-- The place where the parts lead, one after the other. -/
def walk (folder : Folder) : (place : Place) → (parts : List FileName) →
    Except IoError Place
  | place, [] => .ok place
  | place, part :: parts =>
    match folder.step place part with
    | .error e => .error e
    | .ok next => walk folder next parts

/-- The bytes of a file. -/
def read (folder : Folder) (location : Location) : Except IoError (List UInt8) :=
  match flaw? location with
  | some e => .error e
  | none =>
    match folder.walk [] location.parts with
    | .error e => .error e
    | .ok place =>
      match folder.node? place with
      | none => .error .notFound
      | some .directory => .error .isDirectory
      | some (.file bytes) => .ok bytes

/-- The place that a file is written to: the last part must be a name, and nothing may
follow it. -/
def target (folder : Folder) (location : Location) : Except IoError Place :=
  match flaw? location with
  | some e => .error e
  | none =>
    let reversed := location.parts.reverse
    match reversed.dropWhile fun part => part = [] with
    | [] => .error .isDirectory
    | part :: before =>
      match folder.walk [] before.reverse with
      | .error e => .error e
      | .ok place =>
        if part = Location.here ∨ part = Location.above ∨ reversed.head? = some [] then
          match folder.step place Location.here with
          | .error e => .error e
          | .ok _ => .error .isDirectory
        else folder.step place part

/-- The folder with new bytes for a file, which need not be there yet. -/
def write (folder : Folder) (location : Location) (bytes : List UInt8) :
    Except IoError Folder :=
  match folder.target location with
  | .error e => .error e
  | .ok place =>
    match folder.node? place with
    | some .directory => .error .isDirectory
    | _ => .ok (folder.put place (.file bytes))

/-- The place that the names in a path lead to, with dots and empty parts left out. -/
def placeOf (location : Location) : Place :=
  location.parts.filter fun part => part ≠ [] ∧ part ≠ Location.here

/-- The folder with directories at a place and at all places on the way to it. -/
def makeDirectories (folder : Folder) (place : Place) : Folder :=
  (List.range (place.length + 1)).foldl (fun folder n =>
    match folder.node? (place.take n) with
    | some _ => folder
    | none => folder.put (place.take n) .directory) folder

/-- The folder with a file at a place, and with the directories on the way to it. -/
def putFile (folder : Folder) (place : Place) (bytes : List UInt8) : Folder :=
  (folder.makeDirectories place.dropLast).put place (.file bytes)

/-- All files with their places. -/
def files (folder : Folder) : List (Place × List UInt8) :=
  folder.nodes.filterMap fun (place, node) =>
    match node with
    | .file bytes => some (place, bytes)
    | .directory => none

/-- The files that differ between two folders, with their new bytes if they are still
there. -/
def changes (before after : Folder) : List (Place × Option (List UInt8)) :=
  let written := after.files.filter fun (place, bytes) =>
    before.node? place ≠ some (.file bytes)
  let removed := before.files.filter fun (place, _) =>
    match after.node? place with
    | some (.file _) => false
    | _ => true
  written.map (fun (place, bytes) => (place, some bytes))
    ++ removed.map fun (place, _) => (place, none)

end Folder

end InferenceConfig
