import RpcHost.Demo
/-!
The command line of the demonstration. It takes the name of a configuration file, prints what
is logged to the screen and appends what is logged to files.
-/
namespace RpcHost.CommandLine

def screenLine (record : Record) : String :=
  "[" ++ record.level.name ++ "]:" ++ record.message

def printAll : List Record → IO Unit
  | [] => return ()
  | record :: rest => do
    IO.print (screenLine record)
    printAll rest

def nonEmpty (names : List String) : List String := names.filter fun name => !name.isEmpty

def workingFolder : IO (List String) := do
  return nonEmpty ((← IO.currentDir).toString.splitOn "/")

def isFolder (names : List String) : IO Bool := do
  return ← ((← IO.currentDir) / FileTree.pathOf names).isDir

/-- Adds the folders on a walk to what is known. -/
def explore (files : FileTree) (place : Place) : List String → IO FileTree
  | [] => return files
  | name :: rest => do
    match files.enter place name with
    | some (.file folder name) =>
      let names := folder ++ [name]
      if ← isFolder names then explore (files.withFolder names) (.folder names) rest
      else return files
    | some place => explore files place rest
    | none => return files

def explorePath (files : FileTree) (path : String) : IO FileTree :=
  match files.walk? path with
  | some (place, names) => explore files place names
  | none => return files

def readInto (files : FileTree) (path : String) : IO FileTree := do
  match files.locate? path with
  | some (.file folder name) =>
    try return files.write path (← IO.FS.readFile (FileTree.pathOf (folder ++ [name])))
    catch _ => return files
  | _ => return files

def logPath (text : String) : String :=
  match Json.read? text with
  | some document => (Log.start.configured (document.member Configuration.logSection)).path
  | none => Log.defaultPath

/-- A file that cannot be opened loses its records. -/
def appendRecords (path : String) (records : List Record) : IO Unit := do
  try
    let handle ← IO.FS.Handle.mk path .append
    handle.putStr (String.join (records.map Record.line))
  catch _ => pure ()

def appendFiles (folder : String) : List (String × File) → IO Unit
  | [] => return ()
  | (name, file) :: rest => do
    if !file.records.isEmpty then appendRecords (folder ++ "/" ++ name) file.records
    appendFiles folder rest

def appendAll : List (String × Keyed File) → IO Unit
  | [] => return ()
  | (folder, files) :: rest => do
    appendFiles folder files.entries
    appendAll rest

def randomByte (seed : UInt64) (sequence : UInt64) (place : Fin 8) : UInt8 :=
  (mixHash seed (hash (sequence, place.val))).toUInt8

def run (arguments : List String) : IO UInt32 := do
  let argument := arguments.head?
  let path := argument.getD Demo.defaultFile
  let files ← explorePath (.workingIn (← workingFolder)) path
  let files ← readInto files path
  let files ← explorePath files (logPath ((files.read? path).getD ""))
  let seed := (← IO.getRandomBytes 8).foldl (fun n byte => n * 256 + byte.toUInt64) 0
  let start := Host.start files (randomByte seed) fun _ _ => 0
  let (outcome, host) := (Demo.run .standard argument).run.run start
  printAll host.screen
  appendAll host.files.folders.entries
  match outcome with
  | .ok report => return report.exitCode.toUInt32
  | .error fault =>
    IO.eprintln (fault.reason?.getD "unknown")
    return 134

end RpcHost.CommandLine

def main (arguments : List String) : IO UInt32 := RpcHost.CommandLine.run arguments
