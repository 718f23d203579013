import HomCircuit.Key.Blob
import HomCircuit.Text.Between

/-!
# HomCircuit.Key.Store

Files with key sets under a directory, found by path.

```
path  =  names with "/" between them          "." stays, ".." goes to the folder above
"./k"  =  ".//k"  =  "k"                      "/k" starts at the root
```

A path is followed name by name, so what is wrong first on the way is what is reported. A path that
ends in "/" asks for a folder, and a folder holds no bytes.

* `Path` — a path, `Path.ofText` from its text;
* `BlobStore.follow` — the folder that names lead to;
* `BlobStore.read`, `BlobStore.write`, `BlobStore.load` — the bytes of a file.
-/

namespace HomCircuit

/-- Why a path cannot be read or written. -/
inductive PathFault
  | missing
  | notFolder
  | isFolder
  | nameTooLong
  | zeroByte
  deriving DecidableEq

/-- The text of a fault. -/
def PathFault.message : PathFault → String
  | .missing => "No such file or directory (os error 2)"
  | .notFolder => "Not a directory (os error 20)"
  | .isFolder => "Is a directory (os error 21)"
  | .nameTooLong => "File name too long (os error 36)"
  | .zeroByte => "file name contained an unexpected NUL byte"

/-- A folder: the root, or so many levels above the store's own. -/
inductive Folder
  | root
  | above (levels : Nat)
  deriving DecidableEq, Inhabited

/-- The folder above. -/
def Folder.parent : Folder → Folder
  | .root => .root
  | .above n => .above (n + 1)

/-! ## paths -/

/-- A path: where it starts, its names in order, and whether it asks for a folder. -/
structure Path where
  start : Folder
  names : List String
  asksFolder : Bool
  deriving DecidableEq

namespace Path

/-- The most bytes of a path. -/
def longest : Nat := 4095

/-- The most bytes of a name. -/
def longestName : Nat := 255

/-- The path that a text writes. -/
def ofText (s : String) : Except PathFault Path :=
  let pieces := Text.between '/' s.toList
  if s.toList.contains '\x00' then .error .zeroByte
  else if longest < s.utf8ByteSize then .error .nameTooLong
  else
    .ok
      { start := if s.toList.head? = some '/' then .root else .above 0
        names := (pieces.filter (!·.isEmpty)).map String.ofList
        asksFolder := pieces.getLast? = some [] }

end Path

/-! ## the store -/

/-- What a name stands for in a folder. -/
inductive Entry
  | folder (f : Folder)
  | file (bytes : List UInt8)
  deriving DecidableEq

/-- Files by folder and name. No folder holds another one that a name leads down to. -/
structure BlobStore where
  files : List ((Folder × String) × List UInt8) := []

namespace BlobStore

/-- What a name stands for in a folder. -/
def entry (d : BlobStore) (f : Folder) (name : String) : Except PathFault Entry :=
  if name = "." then .ok (.folder f)
  else if name = ".." then .ok (.folder f.parent)
  else if Path.longestName < name.utf8ByteSize then .error .nameTooLong
  else
    match d.files.lookup (f, name) with
    | some bytes => .ok (.file bytes)
    | none => .error .missing

/-- The folder that names lead to from a folder. -/
def follow (d : BlobStore) : Folder → List String → Except PathFault Folder
  | f, [] => .ok f
  | f, name :: rest =>
    match d.entry f name with
    | .error e => .error e
    | .ok (.file _) => .error .notFolder
    | .ok (.folder g) => d.follow g rest

/-- The bytes of a file. -/
def read (d : BlobStore) (path : String) : Except PathFault (List UInt8) := do
  let p ← Path.ofText path
  match p.names.getLast? with
  | none => .error .isFolder
  | some name =>
    match ← d.entry (← d.follow p.start p.names.dropLast) name with
    | .folder _ => .error .isFolder
    | .file bytes => if p.asksFolder then .error .notFolder else .ok bytes

/-- Puts bytes into a file, in place of what it held. -/
def write (d : BlobStore) (path : String) (bytes : List UInt8) : Except PathFault BlobStore := do
  let p ← Path.ofText path
  match p.names.getLast? with
  | none => .error .isFolder
  | some name =>
    let f ← d.follow p.start p.names.dropLast
    if p.asksFolder || name = "." || name = ".." then .error .isFolder
    else if Path.longestName < name.utf8ByteSize then .error .nameTooLong
    else .ok ⟨((f, name), bytes) :: d.files.filter (·.1 ≠ (f, name))⟩

/-- The key set in a file. -/
def load (d : BlobStore) (path : String) : Except BlobError KeyBlob :=
  match d.read path with
  | .error e => .error (.io e.message)
  | .ok bytes => KeyBlob.ofBytes bytes

/-- Stores a key set in a file. -/
def save (d : BlobStore) (path : String) (b : KeyBlob) : Except BlobError BlobStore :=
  (d.write path b.toBytes).mapError fun e => .io e.message

end BlobStore

end HomCircuit
