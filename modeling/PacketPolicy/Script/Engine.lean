import PacketPolicy.Render.Log
import PacketPolicy.Script.Statement

/-!
This module contains the engine that runs scripts on the tables of a host and takes them back again.
The tables of a family are opened when they are needed first.
-/

namespace PacketPolicy
namespace Script

inductive Call where
  | changePolicy (chain target : String)
  | clearChain (chain : String)
  | deleteChain (chain : String)
  | chainExists (chain : String)
  | appendUnique (chain : String) (rule : List String)
  | deleteIfExists (chain : String) (rule : List String)
  deriving DecidableEq, Repr

/--
A host with state `σ`. A call answers whether a chain exists, and `true` if that is not what it
asks; a failure comes with its cause.
-/
structure Host (σ : Type) where
  connect : Family → σ → Except String Unit × σ
  call : Family → Call → σ → Except String Bool × σ

structure Engine (σ : Type) where
  opened : List Family
  host : σ
  deriving Repr

namespace Engine

inductive Error where
  | unreadable (cause : ReadError)
  | notOpened (family : Family) (cause : String)
  | notApplied (line : Nat) (cause : String)
  | notChecked (chain cause : String)
  | notFlushed (chain cause : String)
  | notDeleted (chain cause : String)
  | notRemoved (line : Nat) (cause : String)
  deriving DecidableEq, Repr

def Error.message : Error → String
  | .unreadable cause => cause.message
  | .notOpened family cause => "failed to open " ++ family.keyword ++ " tables: " ++ cause
  | .notApplied line cause => "failed to apply line " ++ toString line ++ ": " ++ cause
  | .notChecked chain cause => "failed to check chain " ++ chain ++ ": " ++ cause
  | .notFlushed chain cause => "failed to flush chain " ++ chain ++ ": " ++ cause
  | .notDeleted chain cause => "failed to delete chain " ++ chain ++ ": " ++ cause
  | .notRemoved line cause => "failed to delete line " ++ toString line ++ ": " ++ cause

structure Outcome (σ : Type) where
  engine : Engine σ
  log : List Log.Entry
  error : Option Error
  deriving Repr

def runAll (step : Engine σ → Statement → Outcome σ) (e : Engine σ) : List Statement → Outcome σ
  | [] => ⟨e, [], none⟩
  | s :: ss =>
    let first := step e s
    match first.error with
    | some error => ⟨first.engine, first.log, some error⟩
    | none =>
      let rest := runAll step first.engine ss
      ⟨rest.engine, first.log ++ rest.log, rest.error⟩

def entry (level : Log.Level) (s : Statement) (message : String) : Log.Entry where
  level := level
  message := message
  fields := [("family", .text s.family.keyword), ("chain", .text s.chain), ("line", .number s.line)]

def headText (s : Statement) : String :=
  s.command.word ++ " " ++ s.chain

def fullText (s : Statement) : String :=
  headText s ++ " " ++ String.intercalate " " s.command.arguments

def connect (h : Host σ) (e : Engine σ) (f : Family) : Engine σ × Option Error :=
  if e.opened.contains f then (e, none)
  else
    match h.connect f e.host with
    | (.ok _, host) => (⟨f :: e.opened, host⟩, none)
    | (.error cause, host) => (⟨e.opened, host⟩, some (.notOpened f cause))

def call (h : Host σ) (e : Engine σ) (f : Family) (c : Call) (failure : String → Error) :
    Engine σ × Except Error Bool :=
  match h.call f c e.host with
  | (.ok answer, host) => (⟨e.opened, host⟩, .ok answer)
  | (.error cause, host) => (⟨e.opened, host⟩, .error (failure cause))

def applyCall (s : Statement) : Call :=
  match s.command with
  | .policy target => .changePolicy s.chain target
  | .declare => .clearChain s.chain
  | .append rule => .appendUnique s.chain rule

def applyStatement (h : Host σ) (dryRun : Bool) (e : Engine σ) (s : Statement) : Outcome σ :=
  if dryRun then ⟨e, [entry .info s ("would run " ++ fullText s)], none⟩
  else
    match connect h e s.family with
    | (e, some error) => ⟨e, [], some error⟩
    | (e, none) =>
      match call h e s.family (applyCall s) (.notApplied s.line) with
      | (e, .error error) => ⟨e, [], some error⟩
      | (e, .ok _) => ⟨e, [entry .debug s ("applied " ++ headText s)], none⟩

def reverted (e : Engine σ) (s : Statement) : Outcome σ :=
  ⟨e, [entry .debug s ("reverted " ++ headText s)], none⟩

def revertChain (h : Host σ) (e : Engine σ) (s : Statement) : Outcome σ :=
  match call h e s.family (.chainExists s.chain) (.notChecked s.chain) with
  | (e, .error error) => ⟨e, [], some error⟩
  | (e, .ok false) => ⟨e, [], none⟩
  | (e, .ok true) =>
    match call h e s.family (.clearChain s.chain) (.notFlushed s.chain) with
    | (e, .error error) => ⟨e, [], some error⟩
    | (e, .ok _) =>
      match call h e s.family (.deleteChain s.chain) (.notDeleted s.chain) with
      | (e, .error error) => ⟨e, [], some error⟩
      | (e, .ok _) => reverted e s

def revertRule (h : Host σ) (e : Engine σ) (s : Statement) (rule : List String) : Outcome σ :=
  match call h e s.family (.deleteIfExists s.chain rule) (.notRemoved s.line) with
  | (e, .error error) => ⟨e, [], some error⟩
  | (e, .ok _) => reverted e s

/--
Takes a statement back. Default policies are left as they are.
-/
def revertStatement (h : Host σ) (dryRun : Bool) (e : Engine σ) (s : Statement) : Outcome σ :=
  match s.command with
  | .policy target =>
    ⟨e, [entry .info s ("leaving policy of " ++ s.chain ++ " as " ++ target)], none⟩
  | command =>
    if dryRun then ⟨e, [entry .info s ("would revert " ++ fullText s)], none⟩
    else
      match connect h e s.family with
      | (e, some error) => ⟨e, [], some error⟩
      | (e, none) =>
        match command with
        | .append rule => revertRule h e s rule
        | _ => revertChain h e s

def apply (h : Host σ) (dryRun : Bool) (e : Engine σ) (script : String) : Outcome σ :=
  match read script with
  | ⟨_, some error⟩ => ⟨e, [], some (.unreadable error)⟩
  | ⟨statements, none⟩ => runAll (applyStatement h dryRun) e statements

def revert (h : Host σ) (dryRun : Bool) (e : Engine σ) (script : String) : Outcome σ :=
  match read script with
  | ⟨_, some error⟩ => ⟨e, [], some (.unreadable error)⟩
  | ⟨statements, none⟩ => runAll (revertStatement h dryRun) e statements.reverse

end Engine
end Script
end PacketPolicy
