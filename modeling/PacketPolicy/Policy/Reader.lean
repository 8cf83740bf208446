import PacketPolicy.Calendar.Reader
import PacketPolicy.Definitions.Basic
import PacketPolicy.Files.System
import PacketPolicy.Policy.Draft
import PacketPolicy.Policy.Term

namespace PacketPolicy

inductive Term.ReadError where
  | unnamed
  | noAction
  | badAction (word : String)
  | badExpiration (text : String) (cause : Date.ReadError)
  | portsWithoutProtocol
  | badName (cause : Definitions.Error)
  deriving DecidableEq, Repr

def Term.ReadError.message : Term.ReadError → String
  | .unnamed => "term without a name"
  | .noAction => "no action"
  | .badAction word => "invalid action " ++ Text.quote word
  | .badExpiration text cause => "invalid expiration " ++ Text.quote text ++ ": " ++ cause.message
  | .portsWithoutProtocol => "ports specified without a protocol"
  | .badName cause => cause.message

inductive Filter.ReadError where
  | noTarget
  | emptyTarget
  | badTerm (name : String) (cause : Term.ReadError)
  deriving DecidableEq, Repr

def Filter.ReadError.message : Filter.ReadError → String
  | .noTarget => "header has no target"
  | .emptyTarget => "empty target"
  | .badTerm name cause => "term " ++ name ++ ": " ++ cause.message

inductive Policy.ReadError where
  | malformed (cause : Yaml.Error)
  | noFilters
  | badFilter (index : Nat) (cause : Filter.ReadError)
  deriving DecidableEq, Repr

def Policy.ReadError.message : Policy.ReadError → String
  | .malformed _ => "failed to unmarshal policy"
  | .noFilters => "policy has no filters"
  | .badFilter index cause => "filter " ++ toString index ++ ": " ++ cause.message

namespace Draft

def checkAction (t : Term) : Except Term.ReadError Action :=
  if t.action == "" then (if t.verbatim.isEmpty then .error .noAction else .ok (.other ""))
  else
    match Action.ofWord t.action with
    | .other word => .error (.badAction word)
    | action => .ok action

def readExpiration (s : String) : Except Term.ReadError (Option Moment) :=
  if s == "" then .ok none
  else
    match Date.read s with
    | .ok date => .ok (Moment.ofDate date).nonzero?
    | .error e => .error (.badExpiration s e)

/--
The prefixes of all networks. Without any the side is not restricted.
-/
def resolveAddresses (d : Definitions) (names : List String) :
    Except Term.ReadError (Option (List Prefix)) :=
  if names.isEmpty then .ok none
  else
    match names.mapM d.addresses with
    | .ok lists => .ok (some lists.flatten)
    | .error e => .error (.badName e)

def resolvePorts (d : Definitions) (names protocols : List String) :
    Except Term.ReadError (List PortRange) :=
  if names.isEmpty then .ok []
  else
    match (protocols.flatMap fun p => names.map fun name => (name, p)).mapM fun (name, p) =>
      d.ports name p with
    | .ok lists => .ok (PortRange.collapse lists.flatten)
    | .error e => .error (.badName e)

def Term.resolve (d : Definitions) (t : Term) : Except Term.ReadError PacketPolicy.Term := do
  if t.name == "" then throw .unnamed
  let action ← checkAction t
  let expiration ← readExpiration t.expiration
  let sourceAddress ← resolveAddresses d t.sourceAddress
  let sourceExclude ← resolveAddresses d t.sourceExclude
  let destinationAddress ← resolveAddresses d t.destinationAddress
  let destinationExclude ← resolveAddresses d t.destinationExclude
  if (!t.sourcePort.isEmpty || !t.destinationPort.isEmpty) && t.protocol.isEmpty then
    throw .portsWithoutProtocol
  let sourcePort ← resolvePorts d t.sourcePort t.protocol
  let destinationPort ← resolvePorts d t.destinationPort t.protocol
  return {
    name := t.name
    protocol := t.protocol
    protocolExcept := t.protocolExcept
    sourceAddress, sourceExclude, destinationAddress, destinationExclude, sourcePort,
      destinationPort
    option := t.option
    icmpType := t.icmpType
    action
    logging := t.logs
    owner := t.owner
    comment := t.comment
    verbatim := t.verbatim.map fun v => ⟨v.platform, v.text⟩
    expiration
    sourceInterface := t.sourceInterface
    destinationInterface := t.destinationInterface
    packetLength := t.packetLength
    fragmentOffset := t.fragmentOffset
    etherType := t.etherType
    platform := t.platform
    platformExclude := t.platformExclude
    extensions := t.extensions }

def readTarget (line : String) : Except Filter.ReadError Target :=
  match Text.words line with
  | [] => .error .emptyTarget
  | platform :: options => .ok ⟨platform, options⟩

def Filter.resolve (d : Definitions) (f : Filter) :
    Except Filter.ReadError PacketPolicy.Filter := do
  if f.header.target.isEmpty then throw .noTarget
  let targets ← f.header.target.mapM readTarget
  let terms ← f.terms.mapM fun t => (t.resolve d).mapError (.badTerm t.name)
  return ⟨f.header.comment, targets, terms⟩

def resolveFilters (d : Definitions) :
    Nat → List Filter → Except Policy.ReadError (List PacketPolicy.Filter)
  | _, [] => .ok []
  | index, f :: fs => do
    let first ← (f.resolve d).mapError (.badFilter index)
    let rest ← resolveFilters d (index + 1) fs
    return first :: rest

def Policy.resolve (d : Definitions) (p : Policy) :
    Except Policy.ReadError PacketPolicy.Policy := do
  if p.filters.isEmpty then throw .noFilters
  return ⟨← resolveFilters d 0 p.filters⟩

end Draft

def Policy.read (d : Definitions) (s : String) : Except Policy.ReadError Policy :=
  match Draft.Policy.ofText s with
  | .error e => .error (.malformed e)
  | .ok draft => draft.resolve d

namespace Policy

inductive LoadError where
  | notRead (path : String) (cause : FileError)
  | invalid (path : String) (cause : ReadError)

def LoadError.message : LoadError → String
  | .notRead path cause => "failed to read policy " ++ path ++ ": " ++ cause.message
  | .invalid path cause => "policy " ++ path ++ ": " ++ cause.message

def load [Monad m] (files : FileSystem m) (definitions : Definitions) (path : String) :
    m (Except LoadError Policy) := do
  match ← files.readFile path with
  | .error e => return .error (.notRead path e)
  | .ok text => return (read definitions text).mapError (.invalid path)

end Policy

end PacketPolicy
