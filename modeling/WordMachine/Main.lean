import Std.Time
import WordMachine.Cli.Program

/-!
The executable: it reads the files that the arguments name and standard input, lets the program work
on them, and carries the results out.
-/
namespace WordMachine.Main

open Cli

def pathsOf (i : Invocation) : List String :=
  i.logFile.toList ++ match i.command with
    | none => []
    | some (.run a) => a.image :: (a.traceFile.toList ++ a.input.toList)
    | some (.disasm a) => a.image :: a.output.toList
    | some (.asm a) => a.input :: a.output.toList

def systemPath : List String → String
  | "/" :: parts => "/" ++ "/".intercalate parts
  | parts => "/".intercalate parts

def lookUp (parts : List String) : IO (Option FileEntry) := do
  try
    let path ← IO.FS.realPath (systemPath parts)
    if ← path.isDir then return some .directory
    else return some (.file (← IO.FS.readBinFile path).toList)
  catch _ => return none

def gather (files : FileTree) (path : String) : IO FileTree := do
  let path := Path.ofText path
  (List.range (path.parts.length + 1)).foldlM (fun files n => do
    match files.locate { path with parts := path.parts.take n } with
    | .error _ => return files
    | .ok parts =>
      if (files.entryAt parts).isSome then return files
      match ← lookUp parts with
      | none => return files
      | some entry => return files.put parts entry) files

def carryOut (before after : FileTree) : IO Unit :=
  after.entries.forM fun (parts, entry) => do
    if before.get? parts = some entry then return
    match entry with
    | .directory => IO.FS.createDirAll (systemPath parts)
    | .file bytes => IO.FS.writeBinFile (systemPath parts) ⟨bytes.toArray⟩

partial def readLines (stream : IO.FS.Stream) (done : Array String) : IO (List String) := do
  let line ← stream.getLine
  if line.isEmpty then return done.toList
  readLines stream (done.push (if line.endsWith "\n" then (line.dropEnd 1).toString else line))

/-- More steps than any run will see the end of. -/
def fuel : Nat := 0x3FFFFFFFFFFFFFFF

end WordMachine.Main

open WordMachine WordMachine.Main WordMachine.Cli in
def main (arguments : List String) : IO UInt32 := do
  let invocation := (readArguments arguments).toOption.getD {}
  let files ← (pathsOf invocation).foldlM gather {}
  let input ← match invocation.command with
    | some (.run _) => readLines (← IO.getStdin) #[]
    | _ => pure []
  let now ← Std.Time.PlainDateTime.now
  let start : Shell :=
    { files, input
      stampTime := now.format "EEE, dd MMM yy HH:mm:ss"
      logTime := now.format "uuuu-MM-dd HH:mm:ss" }
  let (done, ending) := program fuel start arguments
  carryOut files done.files
  IO.print done.output
  IO.eprint done.errors
  for r in done.reported do
    IO.eprintln (r.levelName ++ " " ++ r.message)
  match ending with
  | .status code | .exit code => return code.toUInt32
  | .escape e => do
    IO.eprintln e.message
    return 1
  | .unfinished => return 1
