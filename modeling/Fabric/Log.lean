import Fabric.Grid.Layout
import Fabric.Parse

/-!
# Progress records

What a parse and a grid layout report while they run. The records of a run are a function of its
input: each stage that is reached writes its records, and a stage that fails writes none of its
closing ones.
-/

namespace Fabric

inductive LogLevel where
  | debug
  | info
  | warning
  | error
  | critical
  deriving DecidableEq, Repr

namespace LogLevel

def all : List LogLevel := [.debug, .info, .warning, .error, .critical]

def name : LogLevel → String
  | .debug => "DEBUG"
  | .info => "INFO"
  | .warning => "WARNING"
  | .error => "ERROR"
  | .critical => "CRITICAL"

def rank : LogLevel → Nat
  | .debug => 10
  | .info => 20
  | .warning => 30
  | .error => 40
  | .critical => 50

/-- The name in a column of five characters. -/
def column (level : LogLevel) : String :=
  let chars := level.name.toList.take 5
  String.ofList (chars ++ List.replicate (5 - chars.length) ' ')

end LogLevel

/-- The part of the program that writes a record. -/
inductive LogSource where
  | setup
  | discovery
  | loading
  | consistency
  | parsing
  | grid
  deriving DecidableEq, Repr

def LogSource.name : LogSource → String
  | .setup => "fpga_arch_core"
  | .discovery => "fpga_arch_core.parser.discovery"
  | .loading => "fpga_arch_core.parser.loader"
  | .consistency => "fpga_arch_core.validation.consistency_validator"
  | .parsing => "fpga_arch_core.parser.parser"
  | .grid => "fpga_arch_core.layout.grid"

structure LogRecord where
  level : LogLevel
  source : LogSource
  message : String
  deriving DecidableEq

namespace LogRecord

/-- The line of a record. -/
def line (r : LogRecord) : String :=
  "[" ++ r.level.column ++ "] [" ++ r.source.name ++ "] " ++ r.message ++ "\n"

/-- The record written when logging is set up at a level. -/
def setup (level : LogLevel) : LogRecord :=
  ⟨.debug, .setup, "Architecture logging configured at level " ++ level.name ++ "."⟩

end LogRecord

/-- What is written of records when logging starts at a level. -/
def logText (level : LogLevel) (records : List LogRecord) : String :=
  String.join (((LogRecord.setup level :: records).filter (level.rank ≤ ·.level.rank)).map
    LogRecord.line)

namespace Census

def records (c : Census) : List LogRecord :=
  let classes := Numeral.text c.numClasses
  let pins := Numeral.text c.totalPins
  [⟨.info, .discovery, "Pass 1 complete: " ++ classes ++ " pin class(es), " ++ pins ++
      " pin(s) per block."⟩,
    ⟨.debug, .discovery, "Allocated storage for " ++ classes ++ " classes and " ++ pins ++
      " pins."⟩]

end Census

namespace LogicalLine

/-- The record of a line that was entered into a draft. -/
def record (line : LogicalLine) : LogRecord :=
  let what :=
    if (Vocabulary.find? (α := Field) line.keyword).isSome then "loaded '" ++ line.keyword ++ "'."
    else "skipping unrecognized keyword '" ++ line.keyword ++ "'."
  ⟨.debug, .loading, "Line " ++ Numeral.text line.number ++ ": " ++ what⟩

end LogicalLine

namespace Draft

/-- The records of the checks and of the verdict on a draft. -/
def records (d : Draft) (routing : Routing) : List LogRecord :=
  match d.issues routing with
  | .error _ => []
  | .ok issues =>
    let errors := issues.filter (·.isError)
    let remarks := issues.filter (!·.isError)
    let verdict :=
      if errors.isEmpty then "Validation complete with no errors found."
      else "Validation complete. Found " ++ Numeral.text errors.length ++ " error(s)."
    [⟨.info, .consistency, verdict⟩] ++
      remarks.map (fun issue => ⟨.info, .parsing, issue.line⟩) ++
      (match d.accept routing with
        | .ok description =>
          [⟨.info, .parsing, "Architecture '" ++ d.source ++ "' accepted: " ++
            Numeral.text description.numClasses ++ " pin class(es), " ++
            Numeral.text description.pinsPerBlock ++ " pin(s) per block."⟩]
        | .error _ => [])

end Draft

namespace Stream

/-- The records of loading a text with its census, and of what follows. -/
def loadRecords (s : Stream) (census : Census) (routing : Routing) : List LogRecord :=
  let entered := (s.load census).1
  match entered.halt with
  | some halt =>
    ((s.rewind.logicalLines.takeWhile (·.number < halt.lineNumber))).map LogicalLine.record
  | none =>
    s.rewind.logicalLines.map LogicalLine.record ++
      [⟨.info, .loading, "Pass 2 complete: loaded " ++ Numeral.text entered.draft.nextPin ++
          " pin statement(s) from '" ++ s.source ++ "'."⟩,
        ⟨.info, .consistency, "Validating architecture '" ++ s.source ++ "' for " ++
          Vocabulary.word routing ++ " routing..."⟩] ++
      entered.draft.records routing

/-- The records of parsing a text. -/
def parseRecords (s : Stream) (routing : Routing) : List LogRecord :=
  match s.discover.1 with
  | .error _ => []
  | .ok census => census.records ++ s.loadRecords census routing

end Stream

namespace Sizing

/-- The records of laying out a grid. -/
def layoutRecords (s : Sizing) (ioRat : Int) : List LogRecord :=
  match s.layout ioRat with
  | .error _ => []
  | .ok grid =>
    [⟨.info, .grid, "Grid sized to " ++ grid.width.text ++ " x " ++ grid.height.text ++
      " logic cells with " ++ Numeral.text grid.ioSlotCount ++ " I/O slot(s) for " ++
      s.numBlocks.text ++ " block(s) and " ++ s.numPads.text ++ " pad(s)."⟩]

end Sizing

end Fabric
