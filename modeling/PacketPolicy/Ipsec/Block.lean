import PacketPolicy.Ipsec.Statement
import PacketPolicy.Render.Filter

/-!
This module contains the statements of one term: a filter list, a filter action, a filter for every
combination of addresses, protocols and ports, and the rule that applies them.
-/

namespace PacketPolicy
namespace Ipsec

def platform : String := "windows_ipsec"

def maxNameBytes : Nat := 32

def supportedKeywords : List String :=
  ["owner"]

def filterAction? : Action → Option FilterAction
  | .accept => some .permit
  | .deny => some .block
  | .reject => some .block
  | _ => none

inductive Reach where
  | any
  | prefixes (ps : List Prefix)
  deriving DecidableEq, Repr

namespace Reach

def ofLists (f : Family) (includes : Option (List Prefix)) (excludes : List Prefix) : Reach :=
  let excluded := Prefix.collapse (Prefix.ofFamily f excludes)
  if includes.isNone && excluded.isEmpty then .any
  else
    let included := Prefix.collapse (Prefix.ofFamily f (includes.getD [Prefix.all f]))
    match Prefix.subtract included excluded with
    | [p] => if p.isAll then .any else .prefixes [p]
    | ps => .prefixes ps

def isEmpty : Reach → Bool
  | .any => false
  | .prefixes ps => ps.isEmpty

def addresses : Reach → List (Option Prefix)
  | .any => [none]
  | .prefixes ps => ps.map some

end Reach

def source (f : Family) (r : Request) : Reach :=
  Reach.ofLists f r.source r.sourceExclude

def destination (f : Family) (r : Request) : Reach :=
  Reach.ofLists f r.destination r.destinationExclude

def emptySide? (f : Family) (r : Request) : Option Side :=
  if (source f r).isEmpty then some .source
  else if (destination f r).isEmpty then some .destination
  else none

def listName (name : String) : String := name ++ "-list"

def actionName (name : String) : String := name ++ "-action"

def ruleName (name : String) : String := name ++ "-rule"

def policyName (name : String) : String := name ++ "-policy"

def unsupported (t : Term) (feature detail : String) : Fault where
  kind := .unsupportedFilter
  platform := platform
  term := t.name
  feature := feature
  detail := detail

def checkKeywords (t : Term) : Except Fault Unit :=
  match t.unsupportedKeyword? supportedKeywords with
  | some e => .error e
  | none => .ok ()

def checkAction (t : Term) : Except Fault FilterAction :=
  match filterAction? t.action with
  | some a => .ok a
  | none =>
    .error (unsupported t ("action " ++ t.action.word) "netsh filter actions are permit and block")

def checkPortProtocols (t : Term) : Except Fault Unit :=
  if t.sourcePort.isEmpty && t.destinationPort.isEmpty then .ok ()
  else
    match t.protocol.find? fun p => p != "tcp" && p != "udp" with
    | some p =>
      .error (unsupported t "ports" ("ports are only supported for tcp and udp, got " ++ p))
    | none => .ok ()

def checkSinglePorts (t : Term) : Except Fault Unit :=
  match (t.sourcePort ++ t.destinationPort).find? fun r => !r.isSingle with
  | some r => .error (unsupported t ("port range " ++ r.text) "netsh filters take single ports")
  | none => .ok ()

/--
Checks a term and gives its action. Terms with verbatim text are not looked at.
-/
def check (t : Term) : Except Fault FilterAction := do
  if t.isVerbatim then return .block
  if !t.protocolExcept.isEmpty then
    throw (unsupported t "protocol-except" "protocol-except is not supported")
  checkKeywords t
  let action ← checkAction t
  if !t.option.isEmpty then
    throw (unsupported t "option" ("options " ++ Icmp.bracketed t.option ++ " are not supported"))
  checkPortProtocols t
  checkSinglePorts t
  return action

structure Block where
  term : Term
  family : Family
  action : FilterAction
  tagged : TaggedName
  deriving Repr

namespace Block

def name (b : Block) : String :=
  b.tagged.text

def finish (filter : String) (f : Family) (shortening : TermName.Shortening) (t : Term)
    (action : FilterAction) :
    Except Fault Block :=
  match TermName.fit maxNameBytes shortening t.name with
  | .error e => .error e
  | .ok name => .ok ⟨t, f, action, TaggedName.ofFilter filter name⟩

def ofTerm (filter : String) (f : Family) (shortening : TermName.Shortening) (t : Term) :
    Except Fault Block := do
  let action ← check t
  finish filter f shortening t action

def protocols (b : Block) : List String :=
  if b.term.protocol.isEmpty then [""] else b.term.protocol

def portChoices (rs : List PortRange) : List (Option PortRange) :=
  if rs.isEmpty then [none] else rs.map some

def filters (b : Block) : List Statement :=
  (source b.family b.term.request).addresses.flatMap fun s =>
    (destination b.family b.term.request).addresses.flatMap fun d =>
      b.protocols.flatMap fun p =>
        (portChoices b.term.sourcePort).flatMap fun sp =>
          (portChoices b.term.destinationPort).map fun dp =>
            .filter (listName b.name) ⟨s, sp⟩ ⟨d, dp⟩ p

/--
The statements for the policy of the filter. There are none if one of the sides has no address.
Message types of control protocols cannot be expressed.
-/
def statements (policy : String) (b : Block) : Except Fault (List Statement) :=
  if b.term.isVerbatim then .ok ((b.term.verbatimFor platform).map .verbatim)
  else if !b.term.icmpType.isEmpty then
    .error (unsupported b.term "icmp-type" "netsh filters cannot match icmp types")
  else if (emptySide? b.family b.term.request).isSome then .ok []
  else
    .ok ((Comment.lines b.term.comment b.term.owner).map .remark
      ++ [.filterList (listName b.name), .filterAction (actionName b.name) b.action]
      ++ b.filters
      ++ [.rule (ruleName b.name) policy (listName b.name) (actionName b.name)])

end Block
end Ipsec
end PacketPolicy
