import Fabric.Config.Load
import Fabric.Description.Echo
import Fabric.File.Source
import Fabric.Grid.Layout

/-!
# Building an architecture

A build reads an architecture file under a run configuration, lays out the grid and, if asked to,
writes the echo report. Nothing is undone after a failure: the files stay as the steps before it left
them. A build is all or nothing because of the order of its steps, of which only the last one writes.
Every failure that has a report, and every failure of the file system, becomes one build error whose
message is the report; what remains escapes as it is.
-/

namespace Fabric

structure BuildResult where
  architecture : Description Binary64
  layout : GridLayout
  deriving DecidableEq

/-- What makes a build fail. -/
inductive BuildCause where
  | source (fault : SourceFault)
  | parse (e : ParseError)
  | grid (fault : GridFault)
  | echo (fault : WriteFault)
  | write (fault : FileFault)
  | config (e : ConfigError)

inductive BuildFailure where
  /-- The build error, with its report. -/
  | reported (report : Report) (cause : BuildCause)
  | escaped (cause : BuildCause)

/-- The report of a failure of the file system. -/
def FileError.buildReport (archPath : String) (e : FileError) : Report where
  title := "I/O Error (" ++ e.kind.name ++ ")"
  source := some archPath
  details := "The architecture build could not read or write a file: " ++ e.message
  suggestion := "Check the paths and permissions of the architecture file and the echo file."

namespace BuildCause

def ofFileParse : FileParseError → BuildCause
  | .source fault => .source fault
  | .parse e => .parse e

/-- The report of a cause, if it has one. The configuration is loaded before the build proper, so
there a failure of the file system has none. -/
def report? (archPath : String) : BuildCause → Option Report
  | .source (.unreadable e) => some e.report
  | .source (.file (.error e)) | .write (.error e) => some (e.buildReport archPath)
  | .parse (.fault f) => some f.toLocatedError.report
  | .parse (.inconsistent r) => r.report.toOption
  | .grid (.error e) => some e.report
  | .config (.file e) => some e.report
  | .config (.schema e) => some e.report
  | _ => none

def toFailure (archPath : String) (cause : BuildCause) : BuildFailure :=
  match cause.report? archPath with
  | some report => .reported report cause
  | none => .escaped cause

end BuildCause

/-- Where the echo report goes if nothing else is said. -/
def defaultEchoFile : Path := .ofString "arch.echo"

/-- What a build makes before it writes anything. -/
def prepare (fs : FileSystem) (archPath : String) (config : RunConfig) :
    Except BuildCause BuildResult := do
  let architecture ←
    (parseFile fs (.ofString archPath) config.routing).mapError .ofFileParse
  let layout ← (config.sizing.layout architecture.ioRat).mapError .grid
  return { architecture, layout }

section Encoding

variable (encode : String → Except Text.Utf8.Surrogates ByteArray)

/-- Writes the echo report of a description that was read from `source`. -/
def writeEcho (d : Description Binary64) (source : String) (routing : Routing)
    (destination : Path) : EStateM BuildCause FileSystem Unit := do
  let text ← ofExcept ((d.echo source routing).mapError .echo)
  (FileSystem.writeTextWith encode destination text).adaptExcept .write

/-- The steps of a build. -/
def buildSteps (archPath : String) (config : RunConfig) :
    EStateM BuildCause FileSystem BuildResult := do
  let result ← ofExcept (prepare (← get) archPath config)
  match config.echoFile with
  | none => return result
  | some file =>
    writeEcho encode result.architecture archPath config.routing file
    return result

/-- Builds an architecture, where `encode` gives the bytes of the echo report. The second part is
the file system after the build. -/
def buildWith (fs : FileSystem) (archPath : String) (config : RunConfig) :
    Except BuildFailure BuildResult × FileSystem :=
  match buildSteps encode archPath config fs with
  | .ok result fs => (.ok result, fs)
  | .error cause fs => (.error (cause.toFailure archPath), fs)

end Encoding

/-- Builds an architecture. The second part is the file system after the build. -/
def build (fs : FileSystem) (archPath : String) (config : RunConfig) :
    Except BuildFailure BuildResult × FileSystem :=
  buildWith Text.Utf8.encode fs archPath config

/-- Builds an architecture under the configuration in a file. -/
def buildFromFiles (fs : FileSystem) (archPath configPath : String) :
    Except BuildFailure BuildResult × FileSystem :=
  match RunConfig.load fs (.ofString configPath) with
  | .ok config => build fs archPath config
  | .error e => (.error ((BuildCause.config e).toFailure archPath), fs)

end Fabric
