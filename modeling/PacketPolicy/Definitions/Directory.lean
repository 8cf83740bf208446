import PacketPolicy.Definitions.Reader
import PacketPolicy.Files.Path
import PacketPolicy.Files.System

namespace PacketPolicy
namespace Definitions

inductive LoadError where
  | directory (path : String) (cause : FileError)
  | notRead (path : String) (cause : FileError)
  | invalid (path : String) (cause : ReadError)
  deriving DecidableEq, Repr

def LoadError.message : LoadError → String
  | .directory path cause =>
    "failed to read definitions directory " ++ path ++ ": " ++ cause.message
  | .notRead path cause => "failed to read " ++ path ++ ": " ++ cause.message
  | .invalid path cause => "in " ++ path ++ ": " ++ cause.message

def loadFiles [Monad m] (files : FileSystem m) (d : Definitions) :
    List String → m (Except LoadError Definitions)
  | [] => return .ok d
  | path :: paths => do
    match ← files.readFile path with
    | .error e => return .error (.notRead path e)
    | .ok text =>
      match d.read text with
      | (_, some e) => return .error (.invalid path e)
      | (d, none) => loadFiles files d paths

def load [Monad m] (files : FileSystem m) (path : String) : m (Except LoadError Definitions) := do
  match ← files.listDirectory path with
  | .error e => return .error (.directory path e)
  | .ok entries =>
    let found := entries.filter fun e => !e.isDirectory && Path.isYaml e.name
    loadFiles files ⟨[], []⟩ ((found.map fun e => Path.join path e.name).mergeSort fun a b => a ≤ b)

end Definitions
end PacketPolicy
