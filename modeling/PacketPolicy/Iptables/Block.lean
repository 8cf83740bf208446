import PacketPolicy.Iptables.Line
import PacketPolicy.Render.Filter
import PacketPolicy.Render.Icmp

/-!
This module contains the rules of one term. They stand in a chain of their own, which the chain of
the filter jumps to.
-/

namespace PacketPolicy
namespace Iptables

def platform : String := "iptables"

def maxNameBytes : Nat := 24

def highPorts : PortRange := .ofNat 1024 65535

def supportedKeywords : List String :=
  ["logging", "owner", "source_interface", "destination_interface", "packet_length",
    "fragment_offset"]

def otherOptions : List String :=
  ["initial", "first-fragment", "established", "tcp-established"]

def onlyTcpUdp (protocols : List String) : Bool :=
  protocols.all fun p => p == "tcp" || p == "udp"

def target? (f : Family) : Action → Option Jump
  | .accept => some .accept
  | .deny => some .drop
  | .reject =>
    match f with
    | .v4 => some (.reject .hostProhibited)
    | .v6 => some (.reject .administratively)
  | .rejectWithTcpReset => some (.reject .tcpReset)
  | .next => some .leave
  | .other _ => none

structure Matching where
  jump : Jump := .leave
  flags : List TcpFlag := []
  established : Bool := false
  length : Option PortRange := none
  fragmentOffset : Option PortRange := none
  deriving DecidableEq, Repr

namespace Matching

def unsupported (t : Term) (feature detail : String) : Fault where
  kind := .unsupportedFilter
  platform := platform
  term := t.name
  feature := feature
  detail := detail

def checkProtocols (t : Term) : Except Fault Unit :=
  if t.protocolExcept.isEmpty then .ok ()
  else if t.protocol.isEmpty then
    .error (unsupported t "protocol-except" "protocol-except is not supported")
  else
    .error (unsupported t "protocol-except" "protocol and protocol-except cannot be combined")

def checkKeywords (t : Term) : Except Fault Unit :=
  match t.unsupportedKeyword? supportedKeywords with
  | some e => .error e
  | none => .ok ()

def jumpOf (f : Family) (t : Term) : Except Fault Jump :=
  match target? f t.action with
  | some jump => .ok jump
  | none => .error (unsupported t ("action " ++ t.action.word) "unknown action")

def checkOptions (t : Term) : Except Fault Unit :=
  match t.option.find? fun o => (TcpFlag.ofOption? o).isNone && !otherOptions.contains o with
  | some o => .error (unsupported t ("option " ++ o) "unknown option")
  | none => .ok ()

def flagsOf (t : Term) : List TcpFlag :=
  (t.option.filterMap TcpFlag.ofOption?).mergeSort fun a b => a.word ≤ b.word

def readRange (t : Term) (feature value : String) : Except Fault (Option PortRange) :=
  if value == "" then .ok none
  else
    match PortRange.read value with
    | .ok r => .ok (some r)
    | .error e => .error (unsupported t feature e.message)

/--
Without connection tracking, established connections are recognised by the TCP flags alone.
-/
def checkStateless (t : Term) (flags : List TcpFlag) : Except Fault Unit :=
  if t.protocol.isEmpty || !onlyTcpUdp t.protocol then
    .error {
      kind := .established
      platform := platform
      term := t.name
      feature := "established"
      detail := "stateless filters only support established for tcp and udp, got "
        ++ Icmp.bracketed t.protocol }
  else if !flags.isEmpty then
    .error (unsupported t "tcp flags"
      "tcp flags cannot be combined with established in a stateless filter")
  else .ok ()

def isEstablished (t : Term) : Bool :=
  t.hasOption "established" || t.hasOption "tcp-established"

def ofTerm (f : Family) (stateful : Bool) (t : Term) : Except Fault Matching := do
  if t.isVerbatim then return {}
  checkProtocols t
  checkKeywords t
  let jump ← jumpOf f t
  checkOptions t
  let flags := flagsOf t
  let length ← readRange t "packet-length" t.packetLength
  let fragmentOffset ← readRange t "fragment-offset" t.fragmentOffset
  if isEstablished t && !stateful then checkStateless t flags
  return { jump, flags, established := isEstablished t, length, fragmentOffset }

end Matching

def sidePorts (side : Side) : List PortRange → List Clause
  | [r] => [.port side r]
  | rs => (PortRange.groups PortRange.maxEntries rs).map (.ports side)

def portStatement (rs : List PortRange) (source destination : Bool) : Except Fault (List Clause) :=
  match source, destination with
  | true, true =>
    .error {
      kind := .badPorts
      platform := platform
      detail := "cannot render source and destination ports in one statement" }
  | false, false =>
    .error {
      kind := .notImplemented
      platform := platform
      detail := "port statement needs a direction" }
  | true, false => .ok (sidePorts .source rs)
  | false, true => .ok (sidePorts .destination rs)

structure Chain where
  term : Term
  family : Family
  stateful : Bool
  matching : Matching
  codes : List Nat
  tagged : TaggedName
  deriving Repr

namespace Chain

def name (c : Chain) : String :=
  c.tagged.text

def plan (c : Chain) : Plan :=
  Plan.ofRequest c.family c.term.request

/--
The protocols to write rules for. A term without any has rules for the empty name, which matches
them all.
-/
def protocols (c : Chain) : List String :=
  if c.term.protocol.isEmpty then [""] else c.term.protocol

def protocolClauses (c : Chain) (protocol : String) : List Clause :=
  if Icmp.isProtocol protocol then []
  else if protocol == "hop-by-hop" && c.family == .v6 then [.extensionHeader .hopByHop]
  else if protocol == "fragment" && c.family == .v6 then [.extensionHeader .fragment]
  else if protocol == "" || protocol == "all" then []
  else [.protocol protocol]

/--
The flags of packets of established connections: an acknowledgement, or a reset alone.
-/
def establishedFlags : List Clause :=
  [.tcpFlags [.ack] [.ack], .tcpFlags [.ack, .fin, .rst, .syn] [.rst]]

def flagVariants (c : Chain) (protocol : String) : List (List Clause) :=
  if protocol != "tcp" then [[]]
  else
    let flags :=
      if c.matching.flags.isEmpty then [] else [Clause.tcpFlags c.matching.flags c.matching.flags]
    let base := flags ++ (if c.term.hasOption "initial" then [.syn] else [])
    if c.matching.established && !c.stateful then establishedFlags.map fun e => base ++ [e]
    else [base]

def optionalPorts (rs : List PortRange) (source destination : Bool) :
    Except Fault (List (List Clause)) :=
  if rs.isEmpty then .ok [[]]
  else do
    let clauses ← portStatement rs source destination
    return clauses.map fun clause => [clause]

/--
The ports at the destination. Packets of established connections go to high ports by default.
-/
def destinationPorts (c : Chain) : List PortRange :=
  if c.matching.established && c.term.destinationPort.isEmpty && onlyTcpUdp c.term.protocol then
    [highPorts]
  else c.term.destinationPort

/--
One list of clauses for each pair of a source clause and a destination clause. A clause for a single
range stands before one for several.
-/
def portClauses (c : Chain) (protocol : String) : Except Fault (List (List Clause)) :=
  if protocol == "tcp" || protocol == "udp" then do
    let sources ← optionalPorts c.term.sourcePort true false
    let destinations ← optionalPorts c.destinationPorts false true
    return sources.flatMap fun s => destinations.map fun d =>
      if 1 < c.term.sourcePort.length && c.destinationPorts.length == 1 then d ++ s else s ++ d
  else .ok [[]]

def icmpClauses (c : Chain) (protocol : String) : List (List Clause) :=
  if protocol == "icmpv6" then
    if c.codes.isEmpty then [[.protocol "ipv6-icmp"]] else c.codes.map fun n => [.icmp6Type n]
  else if protocol == "icmp" then
    if c.codes.isEmpty then [[.protocol "icmp"]] else c.codes.map fun n => [.icmpType n]
  else [[]]

def optionClauses (c : Chain) : List Clause :=
  (if c.term.hasOption "first-fragment" then [.firstFragment] else [])
    ++ (c.matching.length.map Clause.length).toList
    ++ (c.matching.fragmentOffset.map Clause.fragmentOffset).toList
    ++ (if !c.stateful then []
        else if c.matching.established then [.state false]
        else if c.term.action == .accept then [.state true]
        else [])

def interfaceClauses (c : Chain) : List Clause :=
  (if c.term.sourceInterface == "" then [] else [.inInterface c.term.sourceInterface])
    ++ (if c.term.destinationInterface == "" then []
      else [.outInterface c.term.destinationInterface])

structure Shape where
  before : List Clause
  after : List Clause
  deriving DecidableEq, Repr

def protocolShapes (c : Chain) (protocol : String) (ports : List (List Clause)) : List Shape :=
  (c.flagVariants protocol).flatMap fun flags =>
    ports.flatMap fun ports =>
      (c.icmpClauses protocol).map fun icmp =>
        ⟨c.protocolClauses protocol ++ flags ++ ports,
          icmp ++ c.optionClauses ++ c.interfaceClauses⟩

def shapes (c : Chain) : Except Fault (List Shape) := do
  let shapes ← c.protocols.mapM fun p => do return c.protocolShapes p (← c.portClauses p)
  return shapes.flatten

def addressClauses (side : Side) (p : Prefix) : List Clause :=
  if p.isAll then [] else [.address side p]

def Shape.clauses (s : Shape) (source destination : Prefix) : List Clause :=
  s.before ++ addressClauses .source source ++ addressClauses .destination destination ++ s.after

def rulesFor (c : Chain) (s : Shape) (source destination : Prefix) : List Line :=
  let clauses := s.clauses source destination
  (if c.term.logging then [.append c.name clauses (some (.log c.tagged.name))] else [])
    ++ [.append c.name clauses (some c.matching.jump)]

def returnLine (c : Chain) (side : Side) (p : Prefix) : Line :=
  .append c.name (addressClauses side p) (some .leave)

def commentLine (c : Chain) (text : String) : Line :=
  .append c.name [.comment text] none

def ruleLines (c : Chain) (shapes : List Shape) (source destination : Encoding) : List Line :=
  source.returns.map (c.returnLine .source) ++ destination.returns.map (c.returnLine .destination)
    ++ shapes.flatMap fun shape =>
      source.includes.flatMap fun s => destination.includes.flatMap fun d => c.rulesFor shape s d

/--
The declaration of the chain, the jump from its parent, the comments, the early returns and the
rules. There are no lines if one of the sides has no address.
-/
def lines (c : Chain) (parent : String) : Except Fault (List Line) :=
  match c.plan with
  | .empty _ => .ok []
  | .rules source destination => do
    let shapes ← c.shapes
    return [.declare c.name, .append parent [] (some (.chain c.name))]
      ++ (Comment.lines c.term.comment c.term.owner).map c.commentLine
      ++ c.ruleLines shapes source destination

end Chain

inductive Block where
  | verbatim (term : Term)
  | chain (c : Chain)
  deriving Repr

namespace Block

def name : Block → String
  | .verbatim t => t.name
  | .chain c => c.tagged.name

def chainName : Block → String
  | .verbatim _ => ""
  | .chain c => c.name

def lines (parent : String) : Block → Except Fault (List Line)
  | .verbatim t => .ok ((t.verbatimFor platform).map .verbatim)
  | .chain c => c.lines parent

def finish (filter : String) (f : Family) (stateful : Bool) (shortening : TermName.Shortening)
    (t : Term) (m : Matching) : Except Fault Block :=
  if t.isVerbatim then .ok (.verbatim t)
  else
    match Icmp.codes f t.icmpType t.protocol with
    | .error e => .error { e with term := t.name }
    | .ok codes =>
      match TermName.fit maxNameBytes shortening t.name with
      | .error e => .error e
      | .ok name => .ok (.chain ⟨t, f, stateful, m, codes, TaggedName.ofFilter filter name⟩)

def ofTerm (filter : String) (f : Family) (stateful : Bool) (shortening : TermName.Shortening)
    (t : Term) :
    Except Fault Block := do
  let m ← Matching.ofTerm f stateful t
  finish filter f stateful shortening t m

end Block

end Iptables
end PacketPolicy
