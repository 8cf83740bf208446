import PacketPolicy.Files.Path
import PacketPolicy.Files.System
import PacketPolicy.Render.Platform
import PacketPolicy.Yaml.Value

namespace PacketPolicy

structure Settings where
  definitions : String := ""
  policies : List String := []
  output : String := ""
  weeks : Int := 0
  platforms : List String := []
  deriving DecidableEq, Repr

namespace Settings

def defaultOutput : String := "."

def defaultWeeks : Int := 2

def default : Settings :=
  { output := defaultOutput, weeks := defaultWeeks }

inductive ReadError where
  | malformed (cause : Yaml.Error)
  | unknownPlatform (name : String)
  | negativeWeeks (weeks : Int)
  deriving DecidableEq, Repr

def ReadError.message : ReadError → String
  | .malformed _ => "failed to unmarshal config"
  | .unknownPlatform name =>
    "unsupported platform " ++ name ++ ", expected one of "
      ++ String.intercalate ", " (Platform.all.map Platform.name)
  | .negativeWeeks weeks => "expInfo must not be negative, got " ++ toString weeks

inductive LoadError where
  | notOpened (cause : FileError)
  | notRead (path : String) (cause : FileError)
  | invalid (path : String) (cause : ReadError)
  deriving DecidableEq, Repr

def LoadError.message : LoadError → String
  | .notOpened cause => "failed to open config: " ++ cause.message
  | .notRead path cause => "config " ++ path ++ ": failed to read config: " ++ cause.message
  | .invalid path cause => "config " ++ path ++ ": " ++ cause.message

inductive Incomplete where
  | noDefinitions
  | noPolicies
  deriving DecidableEq, Repr

def Incomplete.message : Incomplete → String
  | .noDefinitions => "no definitions directory configured"
  | .noPolicies => "no policies configured"

def fill (s : Settings) (entries : List (String × Yaml.Node)) : Except Yaml.Error Settings := do
  match entries with
  | [] => return s
  | ("definitions", n) :: rest => fill { s with definitions := ← n.asText } rest
  | ("policies", n) :: rest => fill { s with policies := ← n.asTexts } rest
  | ("output", n) :: rest => fill { s with output := ← n.asText } rest
  | ("expInfo", n) :: rest => fill { s with weeks := ← n.asInteger } rest
  | ("platforms", n) :: rest => fill { s with platforms := ← n.asTexts } rest
  | _ :: _ => .error .mismatch

def ofNode (n : Yaml.Node) : Except Yaml.Error Settings := do
  let entries ← n.asEntries
  if Yaml.Node.distinctKeys entries then fill {} entries else .error .mismatch

def ofText (s : String) : Except Yaml.Error Settings := do
  match ← Yaml.Node.ofText s with
  | none => return {}
  | some n => ofNode n

def unknownPlatform? (names : List String) : Option String :=
  names.find? fun name => (Platform.ofName? name).isNone

/--
Reads settings. What is empty or zero has its default.
-/
def read (s : String) : Except ReadError Settings :=
  match ofText s with
  | .error e => .error (.malformed e)
  | .ok s =>
    let s := { s with
      output := if s.output == "" then defaultOutput else s.output
      weeks := if s.weeks == 0 then defaultWeeks else s.weeks }
    match unknownPlatform? s.platforms with
    | some name => .error (.unknownPlatform name)
    | none => if s.weeks < 0 then .error (.negativeWeeks s.weeks) else .ok s

def load [Monad m] (files : FileSystem m) (path : String) : m (Except LoadError Settings) := do
  match ← files.readFile path with
  | .error e => return .error (if e.operation == .opening then .notOpened e else .notRead path e)
  | .ok text => return (read text).mapError (.invalid path)

def validate (s : Settings) : Except Incomplete Unit :=
  if s.definitions == "" then .error .noDefinitions
  else if s.policies.isEmpty then .error .noPolicies
  else .ok ()

def renders (s : Settings) (platform : String) : Bool :=
  s.platforms.isEmpty || s.platforms.contains platform

inductive FilesError where
  | noStatus (cause : FileError)
  | notWalked (path : String) (cause : FileError)
  deriving DecidableEq, Repr

def FilesError.message : FilesError → String
  | .noStatus cause => "failed to stat policy: " ++ cause.message
  | .notWalked path cause => "failed to walk " ++ path ++ ": " ++ cause.message

/--
A path has at most this many bytes, so directories are not nested deeper.
-/
def maxDepth : Nat := 4096

def walk [Monad m] (files : FileSystem m) : Nat → String → m (Except FileError (List String))
  | 0, _ => return .ok []
  | depth + 1, path => do
    match ← files.listDirectory path with
    | .error e => return .error e
    | .ok entries => go depth path entries
where
  go (depth : Nat) (path : String) : List DirectoryEntry → m (Except FileError (List String))
    | [] => return .ok []
    | e :: es => do
      let place := Path.join path e.name
      let first ← if e.isDirectory then walk files depth place
        else pure (.ok (if Path.isYaml place then [place] else []))
      match first with
      | .error e => return .error e
      | .ok first =>
        match ← go depth path es with
        | .error e => return .error e
        | .ok rest => return .ok (first ++ rest)

def collect [Monad m] (files : FileSystem m) : List String → m (Except FilesError (List String))
  | [] => return .ok []
  | path :: paths => do
    match ← files.isDirectory path with
    | .error e => return .error (.noStatus e)
    | .ok isDirectory =>
      let first ← if isDirectory then walk files maxDepth path else pure (.ok [path])
      match first with
      | .error e => return .error (.notWalked path e)
      | .ok first =>
        match ← collect files paths with
        | .error e => return .error e
        | .ok rest => return .ok (first ++ rest)

def policyFiles [Monad m] (files : FileSystem m) (s : Settings) :
    m (Except FilesError (List String)) := do
  match ← collect files s.policies with
  | .error e => return .error e
  | .ok paths => return .ok (paths.eraseDups.mergeSort fun a b => a ≤ b)

def outputPath (s : Settings) (policyFile suffix : String) : String :=
  let base := (Path.base policyFile).toList
  let extension := (Path.extension policyFile).toList
  let stem := if extension.isSuffixOf base then base.take (base.length - extension.length) else base
  Path.join s.output (String.ofList stem ++ suffix)

end Settings
end PacketPolicy
