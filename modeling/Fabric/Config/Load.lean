import Fabric.Config.RunConfig
import Fabric.Yaml.Document

/-!
# Run configurations from files

A configuration file is a YAML document whose root is a mapping. The path is made absolute first, so
messages name the same file wherever the program runs.
-/

namespace Fabric

namespace ConfigFileError

def notFound (path : Path) : ConfigFileError where
  details := "Run configuration file not found at path: " ++ path.text
  path

def noPermission (path : Path) (e : FileError) : ConfigFileError where
  details := "Permission denied when trying to read file: " ++ e.message
  path

/-- The text is no YAML; what is wrong with it is not said. -/
def notYaml (path : Path) : ConfigFileError where
  details := "Invalid YAML syntax: <yaml>"
  path

def noContent (path : Path) : ConfigFileError where
  details := "The YAML file is empty or contains no valid content."
  path

def noMapping (path : Path) : ConfigFileError where
  details := "The root of the YAML file must be a dictionary (mapping)."
  path

end ConfigFileError

namespace RunConfig

/-- The text of a configuration file. -/
def readFile (fs : FileSystem) (path : Path) : Except ConfigError String := do
  if !(← (fs.isFile path).mapError fun e => .unreadable (.error e)) then
    throw (.file (.notFound path))
  match fs.readTextWith Text.Utf8.decodeStream path with
  | .ok text => return text
  | .error (.error e) =>
    if e.kind.isPermission then throw (.file (.noPermission path e))
    else throw (.unreadable (.error e))
  | .error fault => throw (.unreadable fault)

/-- How deep collections lie in each other in a configuration. -/
def documentDepth : Nat := 2

/-- The document of a configuration file, which is a mapping. -/
def readDocument (fs : FileSystem) (path : Path) : Except ConfigError Value := do
  match Yaml.read documentDepth (← readFile fs path) with
  | .ok .null => throw (.file (.noContent path))
  | .ok (.mapping entries) => return .mapping entries
  | .ok _ => throw (.file (.noMapping path))
  | .error .illFormed => throw (.file (.notYaml path))
  | .error fault => throw (.value fault)

/-- Loads the configuration from a file. -/
def load (fs : FileSystem) (path : Path) : Except ConfigError RunConfig := do
  if FileSystem.hasNull path then throw (.unreadable .nullInPath)
  let path := fs.resolve path
  ofValue fs path (← readDocument fs path)

end RunConfig

end Fabric
