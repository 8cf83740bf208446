import PacketPolicy.Command.Help
import PacketPolicy.Definitions.Directory
import PacketPolicy.Policy.Reader
import PacketPolicy.Report.Overview
import PacketPolicy.Script.Engine
import PacketPolicy.Settings

/-!
This module contains the running of commands. They read and write files through a file system,
change tables through a host, and collect their log.
-/

namespace PacketPolicy

inductive Threshold where
  | debug
  | info
  | warning
  | silent
  deriving DecidableEq, Repr

namespace Threshold

def ofWord? (word : String) : Option Threshold :=
  match Text.lower word with
  | "panic" | "fatal" | "error" => some .silent
  | "warn" | "warning" => some .warning
  | "info" => some .info
  | "debug" | "trace" => some .debug
  | _ => none

def admits (t : Threshold) (e : Log.Entry) : Bool :=
  match t, e.level with
  | .debug, _ => true
  | .info, level => level != .debug
  | .warning, level => level == .warning
  | .silent, _ => false

end Threshold

namespace Command

inductive Error where
  | usage (cause : CommandLine.Error)
  | badLevel (word : String)
  | settings (cause : Settings.LoadError)
  | unknownPlatform (name : String)
  | incomplete (cause : Settings.Incomplete)
  | definitions (cause : Definitions.LoadError)
  | policyFiles (cause : Settings.FilesError)
  | policy (cause : Policy.LoadError)
  | rendering (file : String) (cause : Fault)
  | outputDirectory (cause : FileError)
  | notWritten (path : String) (cause : FileError)
  | rules (cause : FileError)
  | engine (cause : Script.Engine.Error)

def Error.message : Error → String
  | .usage cause => cause.message
  | .badLevel word => "not a valid logrus Level: " ++ Text.quote word
  | .settings cause => cause.message
  | .unknownPlatform name => "unsupported platform " ++ name
  | .incomplete cause => cause.message
  | .definitions cause => cause.message
  | .policyFiles cause => cause.message
  | .policy cause => cause.message
  | .rendering file cause => "policy " ++ file ++ ": " ++ cause.message
  | .outputDirectory cause => "failed to create output directory: " ++ cause.message
  | .notWritten path cause => "failed to write " ++ path ++ ": " ++ cause.message
  | .rules cause => "failed to read rules: " ++ cause.message
  | .engine cause => cause.message

/--
A computation of a command. What was logged before a failure is kept.
-/
abbrev Session (m : Type → Type) := ExceptT Error (StateT (List Log.Entry) m)

section

variable {m : Type → Type} [Monad m]

def log (entries : List Log.Entry) : Session m Unit :=
  modify (· ++ entries)

def orFail (failure : ε → Error) (x : Except ε α) : Session m α :=
  ExceptT.mk (pure (x.mapError failure))

def perform (failure : ε → Error) (x : m (Except ε α)) : Session m α := do
  orFail failure (← liftM x)

def traced (file : String) (x : Traced Fault α) : Session m α := do
  log (x.log.map (Log.Entry.within "policy" file))
  orFail (.rendering file) x.result

def override (a : Arguments) (s : Settings) : Except Error Settings := do
  if let some name := Settings.unknownPlatform? (a.platforms.getD []) then
    throw (.unknownPlatform name)
  return {
    definitions := a.definitions.getD s.definitions
    policies := a.policies.getD s.policies
    output := a.output.getD s.output
    weeks := a.weeks.getD s.weeks
    platforms := a.platforms.getD s.platforms }

def loadSettings (files : FileSystem m) (a : Arguments) : Session m Settings := do
  let s ← if a.config == "" then pure Settings.default
    else perform .settings (Settings.load files a.config)
  let s ← orFail id (override a s)
  orFail .incomplete s.validate
  return s

structure LoadedPolicy where
  file : String
  policy : Policy

def loadedEntry (p : LoadedPolicy) : Log.Entry where
  level := .debug
  message := "loaded " ++ toString p.policy.filters.length ++ " filters"
  fields := [("policy", .text p.file)]

def loadPolicies (files : FileSystem m) (s : Settings) : Session m (List LoadedPolicy) := do
  let definitions ← perform .definitions (Definitions.load files s.definitions)
  let paths ← perform .policyFiles (s.policyFiles files)
  paths.mapM fun path => do
    let p : LoadedPolicy := ⟨path, ← perform .policy (Policy.load files definitions path)⟩
    log [loadedEntry p]
    return p

def noRendererEntry (file platform : String) : Log.Entry where
  level := .warning
  message := "no renderer for platform " ++ platform ++ ", skipping"
  fields := [("policy", .text file)]

def documents (s : Settings) (now : Moment) (p : LoadedPolicy) : Session m (List Document) := do
  let found ← (p.policy.platforms.filter s.renders).mapM fun name => do
    match Platform.ofName? name with
    | none =>
      log [noRendererEntry p.file name]
      return none
    | some platform =>
      return some (← traced p.file (Document.ofPolicy platform ⟨now, s.weeks⟩ p.policy))
  return found.filterMap id

def wroteEntry (file path : String) (platform : Platform) : Log.Entry where
  level := .info
  message := "wrote " ++ path
  fields := [("policy", .text file), ("platform", .text platform.name)]

def writeDocument (files : FileSystem m) (s : Settings) (file : String) (d : Document) :
    Session m Unit := do
  let text ← orFail (.rendering file) d.render
  let path := s.outputPath file d.platform.suffix
  perform (.notWritten path) (files.writeFile path text)
  log [wroteEntry file path d.platform]

def summaryEntry (written policies : Nat) : Log.Entry where
  level := .info
  message := toString written ++ " filters rendered from " ++ toString policies ++ " policies"
  fields := []

def runRender (files : FileSystem m) (now : Moment) (a : Arguments) : Session m Unit := do
  let s ← loadSettings files a
  let policies ← loadPolicies files s
  perform .outputDirectory (files.makeDirectories s.output)
  let written ← policies.foldlM (fun written p => do
    let ds ← documents s now p
    ds.forM (writeDocument files s p.file)
    return written + ds.length) 0
  log [summaryEntry written policies.length]

def runInspect (files : FileSystem m) (now : Moment) (a : Arguments) : Session m String := do
  let s ← loadSettings files a
  let policies ← loadPolicies files s
  let rows := policies.flatMap fun p => Overview.rows ⟨now, s.weeks⟩ p.file p.policy
  return (Overview.table rows).render

def script (s : Settings) (now : Moment) (a : Arguments) (p : LoadedPolicy) : Session m String :=
  traced p.file do
    let d ← Iptables.Document.ofPolicy ⟨now, s.weeks⟩ p.policy
    Traced.tell (d.setTargetLog a.chain)
    Traced.ofExcept (d.setTarget a.chain a.defaultAction).render

def scripts (files : FileSystem m) (now : Moment) (a : Arguments) : Session m (List String) := do
  if a.files.isEmpty then
    let s ← loadSettings files a
    let policies ← loadPolicies files s
    policies.mapM (script s now a)
  else a.files.mapM fun path => perform .rules (files.readFile path)

def runScripts (run : Script.Engine σ → String → Script.Engine.Outcome σ) (e : Script.Engine σ) :
    List String → Session m Unit
  | [] => return
  | text :: texts => do
    let outcome := run e text
    log outcome.log
    if let some cause := outcome.error then throw (.engine cause)
    runScripts run outcome.engine texts

def threshold (a : Arguments) : Except Error Threshold :=
  if 0 < a.debug then .ok .debug
  else
    match Threshold.ofWord? a.logLevel with
    | some t => .ok t
    | none => .error (.badLevel a.logLevel)

structure Outcome where
  stdout : String := ""
  notice : String := ""
  log : List Log.Entry := []
  error : Option Error := none

def output (files : FileSystem m) (host : Script.Host σ) (state : σ) (now : Moment)
    (a : Arguments) :
    Command → Session m String
  | .render => do
    runRender files now a
    return ""
  | .inspect => runInspect files now a
  | .apply => do
    runScripts (fun e => e.apply host a.dryRun) ⟨[], state⟩ (← scripts files now a)
    return ""
  | .revert => do
    runScripts (fun e => e.revert host a.dryRun) ⟨[], state⟩ (← scripts files now a)
    return ""
  | .help | .completion => return ""

def explain (words : List String) : Outcome :=
  match CommandLine.topic words with
  | .ok (t, _) => { stdout := t.help }
  | .error _ => { notice := Topic.unknownHelp words }

def run (files : FileSystem m) (host : Script.Host σ) (state : σ) (now : Moment)
    (arguments : List String) :
    m Outcome := do
  match CommandLine.read arguments with
  | .error e => return { error := some (.usage e) }
  | .ok (.help t) => return { stdout := t.help }
  | .ok (.run t a) =>
    match threshold a with
    | .error e => return { error := some e }
    | .ok level =>
      match t with
      | .program | .completion _ => return {}
      | .command .help => return explain a.words
      | .command command =>
        let (result, entries) ← (output files host state now a command).run []
        let log := entries.filter level.admits
        match result with
        | .ok stdout => return { stdout, log }
        | .error e => return { log, error := some e }

end

end Command
end PacketPolicy
