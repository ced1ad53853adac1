import Fabric.File.System
import Fabric.Parse

/-!
# Architecture files

An architecture file is read as a whole: its bytes are decoded and its line ends unified, and what
follows does not know that there was a file. A file that is missing, closed to the reader or no text
is a located error without a line; any other failure is left to the caller.
-/

namespace Fabric

/-- Why an architecture file gives no text. -/
inductive SourceFault where
  | unreadable (e : LocatedError)
  | file (fault : FileFault)
  deriving DecidableEq

namespace SourceFault

/-- The error of a file that cannot be read, for a reason. -/
def because (path : Path) (details : String) : SourceFault :=
  .unreadable { kind := .unreadableFile, details, source := some path.text }

/-- A failure to read a file that exists. -/
def ofFileFault (path : Path) : FileFault → SourceFault
  | .error e =>
    if e.kind.isPermission then
      because path ("Permission denied when trying to read file: " ++ e.message)
    else .file (.error e)
  | .notUtf8 e => because path ("File is not valid UTF-8 text: " ++ e.message)
  | fault => .file fault

end SourceFault

/-- Why a file holds no description. -/
inductive FileParseError where
  | source (fault : SourceFault)
  | parse (e : ParseError)

namespace Stream

/-- The stream at the start of a file, which is named by its path in messages. -/
def ofFile (fs : FileSystem) (path : Path) : Except SourceFault Stream := do
  if !(← (fs.isFile path).mapError fun e => .file (.error e)) then
    throw (.because path ("Architecture file not found at path: " ++ path.text))
  let text ← (fs.readText path).mapError (.ofFileFault path)
  return .ofText text path.text

end Stream

/-- The description that a file holds. -/
def parseFile (fs : FileSystem) (path : Path) (routing : Routing) :
    Except FileParseError (Description Binary64) := do
  let stream ← (Stream.ofFile fs path).mapError .source
  (stream.parse routing).mapError .parse

end Fabric
