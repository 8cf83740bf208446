import Std.Time.DateTime.Timestamp
import PacketPolicy.Command.Run
import PacketPolicy.Script.Host

namespace PacketPolicy
namespace Disk

def cause : IO.Error → FileCause
  | .noFileOrDirectory .. => .notFound
  | e => .other (toString e)

def attempt (operation : FileOperation) (path : String) (x : IO α) : IO (Except FileError α) := do
  match ← x.toBaseIO with
  | .ok a => return .ok a
  | .error e => return .error ⟨operation, path, cause e⟩

def isDirectory (path : String) : IO Bool := do
  return (← (← IO.FS.realPath path).metadata).type == .dir

def readFile (path : String) : IO (Except FileError String) := do
  match ← attempt .opening path (isDirectory path) with
  | .error e => return .error e
  | .ok true => return .error ⟨.reading, path, .isDirectory⟩
  | .ok false => attempt .opening path (IO.FS.readFile path)

def listDirectory (path : String) : IO (List DirectoryEntry) := do
  let entries ← (← IO.FS.realPath path).readDir
  let entries ← entries.toList.mapM fun e => do
    return DirectoryEntry.mk e.fileName ((← e.path.metadata).type == .dir)
  return entries.mergeSort fun a b => a.name ≤ b.name

def system : FileSystem IO where
  readFile := readFile
  listDirectory path := attempt .opening path (listDirectory path)
  isDirectory path := attempt .status path (isDirectory path)
  makeDirectories path := attempt .makingDirectory path (IO.FS.createDirAll path)
  writeFile path text := attempt .opening path (IO.FS.writeFile path text)

end Disk

namespace Program

def now : IO Moment := do
  let start := Moment.ofDate ⟨1970, 1, 1, rfl⟩
  return { start with seconds := start.seconds
    + (← Std.Time.Timestamp.now).toSecondsSinceUnixEpoch.val }

def entryLine (e : Log.Entry) : String :=
  let value : Log.Value → String
    | .text s => Text.quote s
    | .number n => toString n
  "level=" ++ e.level.word ++ " msg=" ++ Text.quote e.message
    ++ String.join (e.fields.map fun (k, v) => " " ++ k ++ "=" ++ value v)

def run (arguments : List String) : IO UInt32 := do
  let outcome ← Command.run Disk.system Script.bareHost () (← now) arguments
  (← IO.getStdout).putStr outcome.stdout
  let stderr ← IO.getStderr
  stderr.putStr outcome.notice
  for e in outcome.log do
    stderr.putStrLn (entryLine e)
  match outcome.error with
  | none => return 0
  | some e =>
    stderr.putStrLn ("Error: " ++ e.message)
    return 1

end Program
end PacketPolicy

def main (arguments : List String) : IO UInt32 :=
  PacketPolicy.Program.run arguments
