import LineScript.Command

/-!
# Files of an enclosed run

A program in an enclosure sees one working folder, whose files and folders are all known and
whose folders are empty. Of what lies outside it knows only the usual folders at the root and
two devices: an empty one and its own input. A path is followed part by part, and the first part
that cannot be followed decides how it fails.
-/

namespace LineScript

/-- A file of the working folder, or a folder in it. -/
inductive Entry where
  | file (bytes : List UInt8)
  | folder

/-- What a program can see. -/
structure Enclosure where
  files : List (String × Entry)
  environment : List (String × String)
  input : List UInt8

/-- A folder that a path may pass through. -/
inductive Folder where
  /-- The working folder. -/
  | working
  /-- An empty folder in the working one. -/
  | inner
  /-- A folder around the working one. -/
  | outer
  | root
  /-- The folder of devices. -/
  | devices
  /-- Another folder at the root. -/
  | system
deriving DecidableEq

/-- The folder around a folder. The root is around itself. -/
def Folder.around : Folder → Folder
  | inner => working
  | working | outer => outer
  | root | devices | system => root

/-- What a path leads to. -/
inductive Node where
  | file (bytes : List UInt8)
  | folder (folder : Folder)
deriving DecidableEq

namespace ReadError

/-- The failure to read a folder. -/
def isFolder : ReadError := .other "Is a directory (os error 21)"

/-- The failure to look something up in a file. -/
def notFolder : ReadError := .other "Not a directory (os error 20)"

/-- The failure to look up a name or path that is too long. -/
def tooLong : ReadError := .other "File name too long (os error 36)"

end ReadError

namespace Enclosure

/-- How many bytes a name may have. -/
def maxName : Nat := 255

/-- How many bytes a path may have. -/
def maxPath : Nat := 4095

/-- The other folders at the root. -/
def systemFolders : List String := ["bin", "etc", "home", "lib", "proc", "root", "sys", "tmp",
  "usr", "var"]

/-- What has the given name in a folder. -/
def at? (enclosure : Enclosure) (folder : Folder) (name : String) : Option Node :=
  match folder with
  | .working =>
    (enclosure.files.lookup name).map fun entry =>
      match entry with
      | .file bytes => .file bytes
      | .folder => .folder .inner
  | .root =>
    if name = "dev" then some (.folder .devices)
    else if name ∈ systemFolders then some (.folder .system)
    else none
  | .devices =>
    if name = "null" then some (.file [])
    else if name = "stdin" then some (.file enclosure.input)
    else none
  | .inner | .outer | .system => none

/-- What the parts of a path lead to from a folder. -/
def follow (enclosure : Enclosure) (folder : Folder) : List String → Except ReadError Node
  | [] => .ok (.folder folder)
  | name :: rest =>
    if name = ".." then enclosure.follow folder.around rest
    else if maxName < name.utf8ByteSize then .error .tooLong
    else
      match enclosure.at? folder name with
      | none => .error .notFound
      | some (.folder inside) => enclosure.follow inside rest
      | some (.file bytes) => if rest.isEmpty then .ok (.file bytes) else .error .notFolder

/-- The bytes of the file that a path leads to. A path that ends like one of a folder cannot
lead to a file. -/
def bytesOf (enclosure : Enclosure) (path : String) : Except ReadError (List UInt8) :=
  if maxPath < path.utf8ByteSize then .error .tooLong
  else if path.isEmpty then .error .notFound
  else
    match enclosure.follow (if path.startsWith "/" then .root else .working) (Path.parts path) with
    | .error reason => .error reason
    | .ok (.folder _) => .error .isFolder
    | .ok (.file bytes) =>
      if path.endsWith "/" ∨ path.endsWith "/." then .error .notFolder else .ok bytes

/-- The text of the file that a path leads to. -/
def readFile (enclosure : Enclosure) (path : String) : Except ReadError String :=
  match enclosure.bytesOf path with
  | .error reason => .error reason
  | .ok bytes =>
    match String.fromUTF8? ⟨bytes.toArray⟩ with
    | some text => .ok text
    | none => .error .invalidText

end Enclosure

end LineScript
