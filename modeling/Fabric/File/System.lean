import Fabric.Path
import Fabric.Text.Lines
import Fabric.Text.Quoted
import Fabric.Text.Utf8

/-!
# Files

A file system as a value: a working directory and the nodes below it. Paths are followed name by
name, so a `..` needs the directory before it. Reading and writing fail in a few ways, each with its
own text. Writing is an action on the system: what was changed before a failure stays changed, so a
text that cannot be encoded leaves an empty file, which was opened before.
-/

namespace Fabric

inductive FileErrorKind where
  | notPermitted
  | notFound
  | permissionDenied
  | notADirectory
  | isADirectory
  | nameTooLong
  deriving DecidableEq, Repr

namespace FileErrorKind

def number : FileErrorKind → String
  | .notPermitted => "1"
  | .notFound => "2"
  | .permissionDenied => "13"
  | .notADirectory => "20"
  | .isADirectory => "21"
  | .nameTooLong => "36"

def text : FileErrorKind → String
  | .notPermitted => "Operation not permitted"
  | .notFound => "No such file or directory"
  | .permissionDenied => "Permission denied"
  | .notADirectory => "Not a directory"
  | .isADirectory => "Is a directory"
  | .nameTooLong => "File name too long"

/-- The name of the kind of error in a report. -/
def name : FileErrorKind → String
  | .notPermitted | .permissionDenied => "PermissionError"
  | .notFound => "FileNotFoundError"
  | .notADirectory => "NotADirectoryError"
  | .isADirectory => "IsADirectoryError"
  | .nameTooLong => "OSError"

/-- Whether a kind of error is a lack of permission. -/
def isPermission : FileErrorKind → Bool
  | .notPermitted | .permissionDenied => true
  | _ => false

end FileErrorKind

/-- A failed operation on a file, with the path as it was given. -/
structure FileError where
  kind : FileErrorKind
  path : Option String := none
  deriving DecidableEq

def FileError.message (e : FileError) : String :=
  let about := match e.path with
    | some path => ": " ++ Text.quoted path
    | none => ""
  "[Errno " ++ e.kind.number ++ "] " ++ e.kind.text ++ about

/-- Why a file cannot be read as text or written. -/
inductive FileFault where
  | error (e : FileError)
  /-- The path holds a null character. -/
  | nullInPath
  | notUtf8 (e : Text.Utf8.Error)
  /-- The text to write has no bytes. -/
  | notEncodable (e : Text.Utf8.Surrogates)
  deriving DecidableEq

inductive FileNode where
  | directory
  | file (content : ByteArray) (readable : Bool)

/-- A working directory, given by its names from the root, and the nodes of the system, by theirs.
The root, the working directory and the directories above it need no node. -/
structure FileSystem where
  workingDirectory : List String
  nodes : List (List String × FileNode) := []

namespace FileSystem

/-- The node with the given names. -/
def node? (fs : FileSystem) (names : List String) : Option FileNode :=
  if names.isPrefixOf fs.workingDirectory then some .directory
  else (fs.nodes.find? (·.1 == names)).map (·.2)

/-- The longest name of a file, in bytes. -/
def maxNameBytes : Nat := 255

/-- The longest path, in bytes. -/
def maxPathBytes : Nat := 4095

/-- Follows names from a directory. The names of what is found are given even if nothing is there
yet, as long as it lies in a directory. -/
def walk (fs : FileSystem) (directory : List String) :
    List String → Except FileErrorKind (List String)
  | [] => .ok directory
  | name :: rest =>
    let here := if name = ".." then directory.dropLast else directory ++ [name]
    if name.utf8ByteSize > maxNameBytes then .error .nameTooLong
    else if rest.isEmpty then .ok here
    else match fs.node? here with
      | some .directory => fs.walk here rest
      | some (.file ..) => .error .notADirectory
      | none => .error .notFound

/-- The names from the root of what a path leads to. -/
def locate (fs : FileSystem) (path : Path) : Except FileErrorKind (List String) :=
  if path.text.utf8ByteSize > maxPathBytes then .error .nameTooLong
  else fs.walk (if path.isAbsolute then [] else fs.workingDirectory) path.names

/-- Looks a path up. -/
def lookup (fs : FileSystem) (path : Path) : Except FileErrorKind FileNode := do
  match fs.node? (← fs.locate path) with
  | some node => return node
  | none => .error .notFound

/-- Whether a path can be given to the system at all. -/
def hasNull (path : Path) : Bool := path.text.toList.contains '\x00'

/-- Looks a path up where a missing node is no error. -/
def find? (fs : FileSystem) (path : Path) : Except FileError (Option FileNode) :=
  if hasNull path then .ok none
  else match fs.lookup path with
    | .ok node => .ok (some node)
    | .error .notFound | .error .notADirectory => .ok none
    | .error kind => .error ⟨kind, some path.text⟩

/-- Whether a path leads to a file. -/
def isFile (fs : FileSystem) (path : Path) : Except FileError Bool := do
  match ← fs.find? path with
  | some (.file ..) => return true
  | _ => return false

/-- Whether a path leads to anything. -/
def exists? (fs : FileSystem) (path : Path) : Except FileError Bool := do
  return (← fs.find? path).isSome

/-- The bytes of a file. -/
def readBytes (fs : FileSystem) (path : Path) : Except FileFault ByteArray :=
  let refuse kind := .error (.error ⟨kind, some path.text⟩)
  if hasNull path then .error .nullInPath
  else match fs.lookup path with
    | .error kind => refuse kind
    | .ok .directory => refuse .isADirectory
    | .ok (.file content readable) =>
      if readable then .ok content else refuse .permissionDenied

/-- The text of a file with unified line ends, where `decode` reads its bytes. -/
def readTextWith (decode : ByteArray → Except Text.Utf8.Error String) (fs : FileSystem)
    (path : Path) : Except FileFault String := do
  let text ← (decode (← fs.readBytes path)).mapError .notUtf8
  return String.ofList (Text.unifyLineEnds text.toList)

/-- The text of a file with unified line ends. -/
def readText (fs : FileSystem) (path : Path) : Except FileFault String :=
  fs.readTextWith Text.Utf8.decode path

/-- The system with a node put at names. -/
def put (fs : FileSystem) (names : List String) (node : FileNode) : FileSystem :=
  { fs with nodes := (names, node) :: fs.nodes.filter (·.1 != names) }

/-- A file that was opened to be written. -/
structure OpenFile where
  names : List String
  readable : Bool

/-- Opens a file to write it anew: if it is not there it is made, else it is emptied. -/
def openToWrite (path : Path) : EStateM FileFault FileSystem OpenFile := fun fs =>
  let refuse kind := .error (.error ⟨kind, some path.text⟩) fs
  let opened file := .ok file (fs.put file.names (.file .empty file.readable))
  if hasNull path then .error .nullInPath fs
  else match fs.locate path with
    | .error kind => refuse kind
    | .ok names => match fs.node? names with
      | some .directory => refuse .isADirectory
      | some (.file _ readable) => opened ⟨names, readable⟩
      | none => opened ⟨names, true⟩

/-- Puts the content into a file that was opened. -/
def OpenFile.fill (file : OpenFile) (content : ByteArray) : EStateM FileFault FileSystem Unit :=
  modify (·.put file.names (.file content file.readable))

/-- Writes a file anew. -/
def write (path : Path) (content : ByteArray) : EStateM FileFault FileSystem Unit := do
  (← openToWrite path).fill content

/-- Writes a text to a file, where `encode` gives its bytes. The file is opened before. -/
def writeTextWith (encode : String → Except Text.Utf8.Surrogates ByteArray) (path : Path)
    (text : String) : EStateM FileFault FileSystem Unit := do
  let file ← openToWrite path
  match encode text with
  | .ok content => file.fill content
  | .error e => throw (.notEncodable e)

/-- Makes the directories of a path that are not there. -/
def makeDirectories (fs : FileSystem) (path : Path) : FileSystem :=
  (List.range path.names.length).foldl (fun fs n =>
    match fs.locate { path with names := path.names.take (n + 1) } with
    | .ok names => if (fs.node? names).isSome then fs else fs.put names .directory
    | .error _ => fs) fs

/-- The absolute path that names a path without `..`, found from the names alone. -/
def resolve (fs : FileSystem) (path : Path) : Path where
  root := if path.root = "" then "/" else path.root
  names :=
    let base := if path.isAbsolute then [] else fs.workingDirectory
    path.names.foldl (fun names name => if name = ".." then names.dropLast else names ++ [name])
      base

end FileSystem

end Fabric
