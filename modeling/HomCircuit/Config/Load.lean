import HomCircuit.Config.File
import HomCircuit.Config.Layers
import HomCircuit.Config.Validation
import HomCircuit.Text.Utf8

/-!
# HomCircuit.Config.Load

Where the configuration file is, and what the configuration is in the end.

* `Surroundings.find` — the file that the environment names, or else the nearest one from the
  working directory up to its fifth parent;
* `Config.load` — the file under the environment under the command line, if that is valid.
-/

namespace HomCircuit.Config

/-- Levels above the working directory that are searched. -/
def parentLimit : Nat := 5

/-- What a search for the file sees. -/
structure Surroundings (File : Type) where
  /-- What is at the place that the environment names, if it names one. -/
  named : Option (Option File)
  /-- The configuration files of the working directory, its parent and so on. -/
  directories : List (Option File)

/-- The configuration file. -/
def Surroundings.find {File : Type} (s : Surroundings File) : Except LoadError File :=
  let found := match s.named with
    | some file => file
    | none => (s.directories.take (parentLimit + 1)).findSome? id
  match found with
  | some file => .ok file
  | none => .error .notFound

/-- The configuration that the content of a file describes; `none` stands for a file that cannot be
read. -/
def ofFile (content : Option (List UInt8)) : Except LoadError Config :=
  match content.map Text.ofUtf8 with
  | none | some (.error _) => .error .unreadable
  | some (.ok s) =>
    match parse? s with
    | none => .error .malformed
    | some c => .ok c

/-- A configuration under both layers. -/
def under (env args : Layer) (c : Config) : Config := underArguments args (underEnvironment env c)

/-- The configuration that a file, the environment and the command line give together. -/
def load (content : Option (List UInt8)) (env args : Layer) : Except LoadError Config := do
  let c := under env args (← ofFile content)
  c.validate
  return c

end HomCircuit.Config
