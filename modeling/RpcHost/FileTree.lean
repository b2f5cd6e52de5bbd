import RpcHost.Keyed
import RpcHost.Log.Record
import RpcHost.Text.Blank
/-!
The files that a process reads and writes. A path is walked name by name, from the root or from
the folder that the process works in, and every name but the last has to be of a folder. A
folder opens as an empty text, and nothing can be written there.
-/
namespace RpcHost

/-- A file holds the text that it was given as a whole and the records added since. -/
structure File where
  text : String
  records : List Record

namespace File

def ofText (text : String) : File := ⟨text, []⟩

def append (file : File) (record : Record) : File :=
  { file with records := file.records ++ [record] }

def contents (file : File) : String := file.text ++ String.join (file.records.map Record.line)

end File

/-- Where a path leads. A folder is given by the names from the root on. -/
inductive Place where
  | folder (names : List String)
  | file (folder : List String) (name : String)
  deriving DecidableEq, Repr

/-- The files of each folder, under the folder's path from the root. -/
structure FileTree where
  working : List String
  folders : Keyed (Keyed File)

namespace FileTree

def nameLimit : Nat := 255

def pathLimit : Nat := 4095

def pathOf (names : List String) : String := String.join (names.map ("/" ++ ·))

def withFolder (t : FileTree) (names : List String) : FileTree :=
  { t with folders := t.folders.insertNew (pathOf names) .empty }

def workingIn (names : List String) : FileTree :=
  (List.range (names.length + 1)).foldl (fun t n => t.withFolder (names.take n)) ⟨names, .empty⟩

def isFolder (t : FileTree) (names : List String) : Bool := t.folders.contains (pathOf names)

def enter (t : FileTree) (place : Place) (name : String) : Option Place :=
  match place with
  | .file _ _ => none
  | .folder names =>
    if name = "" ∨ name = "." then some (.folder names)
    else if name = ".." then some (.folder names.dropLast)
    else if t.isFolder (names ++ [name]) then some (.folder (names ++ [name]))
    else if name.utf8ByteSize ≤ nameLimit then some (.file names name)
    else none

/-- The place where a walk along a path begins, and the names on it. A path ends at its first
NUL. -/
def walk? (t : FileTree) (path : String) : Option (Place × List String) :=
  let plain := Text.beforeNul path
  if plain.isEmpty ∨ pathLimit < plain.utf8ByteSize then none
  else
    let first := if plain.toList.head? = some '/' then [] else t.working
    some (.folder first, (Text.cuts ['/'] plain.toList).map String.ofList)

def locate? (t : FileTree) (path : String) : Option Place :=
  (t.walk? path).bind fun (place, names) => names.foldlM t.enter place

def file? (t : FileTree) (folder : List String) (name : String) : Option File :=
  (t.folders.find? (pathOf folder)).bind (·.find? name)

def read? (t : FileTree) (path : String) : Option String :=
  match t.locate? path with
  | none => none
  | some (.folder _) => some ""
  | some (.file folder name) => (t.file? folder name).map File.contents

def update (t : FileTree) (path : String) (f : Option File → File) : FileTree :=
  match t.locate? path with
  | some (.file folder name) =>
    match t.folders.find? (pathOf folder) with
    | some files =>
      let changed := files.insert name (f (files.find? name))
      { t with folders := t.folders.insert (pathOf folder) changed }
    | none => t
  | _ => t

def write (t : FileTree) (path text : String) : FileTree := t.update path fun _ => .ofText text

def append (t : FileTree) (path : String) (record : Record) : FileTree :=
  t.update path fun file => (file.getD (.ofText "")).append record

def take (t : FileTree) (wanted : String → Bool) : List (String × File) × FileTree :=
  let files := (t.folders.find? (pathOf t.working)).getD .empty
  let found := files.entries.filter fun entry => wanted entry.1
  let rest := found.foldl (fun files entry => files.erase entry.1) files
  (found, { t with folders := t.folders.insert (pathOf t.working) rest })

end FileTree

end RpcHost
