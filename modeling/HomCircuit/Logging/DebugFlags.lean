import HomCircuit.Config.Basic
import HomCircuit.Text.Between
import HomCircuit.Text.Blank

/-!
# HomCircuit.Logging.DebugFlags

Which parts of the program log at debug level, and the filter that says so.

```
--debug-cipherflow-keys   --debug-all            arguments
cipherflow-keys, all                             names, in the configuration or the environment
cipherflow_keys=debug,info                       filter
```

* `DebugFlags` — a set of names, kept in increasing order;
* `ofArguments`, `ofNames`, `ofEnvironment` — the flags that each source sets;
* `filter` — one entry for each name, then the level for the rest.
-/

namespace HomCircuit

/-- The parts of the program by name. -/
def partNames : List String :=
  ["cipherflow-config", "cipherflow-keys", "cipherflow-runtime", "cipherflow-observability"]

/-- The environment variable that holds names. -/
def debugVariable : String := "CIPHERFLOW_DEBUG"

/-- Names of parts that log at debug level, in increasing order. -/
structure DebugFlags where
  names : List String := []
  deriving DecidableEq, Inhabited

namespace DebugFlags

/-- Names in increasing order with one more in its place. -/
def insertName (name : String) : List String → List String
  | [] => [name]
  | n :: rest =>
    if name < n then name :: n :: rest
    else if name = n then n :: rest
    else n :: insertName name rest

/-- Flags with one more name. -/
def enable (f : DebugFlags) (name : String) : DebugFlags := ⟨insertName name f.names⟩

/-- Flags with more names. -/
def enableAll (f : DebugFlags) (names : List String) : DebugFlags := names.foldl enable f

/-- The names of either. -/
def merge (f g : DebugFlags) : DebugFlags := f.enableAll g.names

/-- Whether a name is among the flags. -/
def isEnabled (f : DebugFlags) (name : String) : Bool := f.names.contains name

/-! ## sources -/

/-- The names that one argument sets. -/
def namesOfArgument (argument : String) : List String :=
  let front := "--debug-".toList
  if argument = "--debug-all" then partNames
  else if front.isPrefixOf argument.toList then
    [String.ofList (argument.toList.drop front.length)]
  else []

/-- The names that one configured name sets: none if it is blank, all parts if it is `all`. -/
def namesOfName (name : String) : List String :=
  let name := Text.trim name
  if name = "all" then partNames else if name = "" then [] else [name]

/-- The flags that arguments set. -/
def ofArguments (arguments : List String) : DebugFlags :=
  enableAll {} (arguments.flatMap namesOfArgument)

/-- The flags that configured names set. -/
def ofNames (names : List String) : DebugFlags := enableAll {} (names.flatMap namesOfName)

/-- The flags that a text of names with commas between them sets. -/
def ofText (s : String) : DebugFlags := ofNames ((Text.between ',' s.toList).map String.ofList)

/-- The flags that the environment sets, given its variables. -/
def ofEnvironment (env : String → Option String) : DebugFlags :=
  ((env debugVariable).map ofText).getD {}

/-! ## filters -/

/-- The name under which a part logs. -/
def target (name : String) : String :=
  String.ofList (name.toList.map fun c => if c = '-' then '_' else c)

/-- The level of a part. -/
def level (f : DebugFlags) (name : String) : String := if f.isEnabled name then "DEBUG" else "INFO"

/-- One entry for each name, then the level for the rest. -/
def filter (f : DebugFlags) (level : String) : String :=
  ",".intercalate (f.names.map (fun n => target n ++ "=debug") ++ [level])

/-- The filter that a configuration and the flags of the command line ask for. -/
def directive (c : Config.Logging) (f : DebugFlags) : String :=
  ((ofNames c.debugNames).merge f).filter c.level

/-- How to set flags. -/
def help : String :=
  let name := "\x7bcrate-name\x7d"
  "Debug Flags:\n" ++
  "  --debug-all                    Enable debug logging for all crates\n" ++
  "  --debug-" ++ name ++ "          Enable debug logging for specific crate\n\n" ++
  "Available crates:\n" ++
  "  " ++ ", ".intercalate partNames ++ "\n\n" ++
  "Environment Variable:\n" ++
  "  " ++ debugVariable ++ "=" ++ name ++ "[," ++ name ++
    "]  Enable debug for crates (comma-separated)\n" ++
  "  " ++ debugVariable ++ "=all                             Enable debug for all crates\n"

end DebugFlags

end HomCircuit
