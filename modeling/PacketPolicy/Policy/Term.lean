import PacketPolicy.Address.Plan
import PacketPolicy.Calendar.Date
import PacketPolicy.Port.Range

namespace PacketPolicy

inductive Action where
  | accept
  | deny
  | reject
  | rejectWithTcpReset
  | next
  | other (word : String)
  deriving DecidableEq, Repr, Inhabited

namespace Action

def ofWord (word : String) : Action :=
  if word == "accept" then .accept
  else if word == "deny" then .deny
  else if word == "reject" then .reject
  else if word == "reject-with-tcp-rst" then .rejectWithTcpReset
  else if word == "next" then .next
  else .other word

def word : Action → String
  | .accept => "accept"
  | .deny => "deny"
  | .reject => "reject"
  | .rejectWithTcpReset => "reject-with-tcp-rst"
  | .next => "next"
  | .other word => word

end Action

structure Verbatim where
  platform : String
  text : String
  deriving DecidableEq, Repr, Inhabited

/--
A term with all its names resolved. Addresses that are absent do not restrict their side, an empty
list matches no address.
-/
structure Term where
  name : String := ""
  protocol : List String := []
  protocolExcept : List String := []
  sourceAddress : Option (List Prefix) := none
  sourceExclude : Option (List Prefix) := none
  destinationAddress : Option (List Prefix) := none
  destinationExclude : Option (List Prefix) := none
  sourcePort : List PortRange := []
  destinationPort : List PortRange := []
  option : List String := []
  icmpType : List String := []
  action : Action := .other ""
  logging : Bool := false
  owner : String := ""
  comment : List String := []
  verbatim : List Verbatim := []
  expiration : Option Moment := none
  sourceInterface : String := ""
  destinationInterface : String := ""
  packetLength : String := ""
  fragmentOffset : String := ""
  etherType : List String := []
  platform : List String := []
  platformExclude : List String := []
  /-- Keywords without a field of their own. -/
  extensions : List (String × String) := []
  deriving Repr, Inhabited

namespace Term

def request (t : Term) : Request where
  source := t.sourceAddress
  sourceExclude := t.sourceExclude.getD []
  destination := t.destinationAddress
  destinationExclude := t.destinationExclude.getD []

def isVerbatim (t : Term) : Bool :=
  !t.verbatim.isEmpty

def optionalKeywords (t : Term) : List String :=
  let known := [
    (t.logging, "logging"),
    (t.owner != "", "owner"),
    (t.sourceInterface != "", "source_interface"),
    (t.destinationInterface != "", "destination_interface"),
    (t.packetLength != "", "packet_length"),
    (t.fragmentOffset != "", "fragment_offset"),
    (!t.etherType.isEmpty, "ether_type")]
  let keywords := (known.filter (·.1)).map (·.2) ++ t.extensions.map (·.1)
  keywords.mergeSort fun a b => a ≤ b

def appliesTo (t : Term) (platform : String) : Bool :=
  !t.platformExclude.contains platform && (t.platform.isEmpty || t.platform.contains platform)

def verbatimFor (t : Term) (platform : String) : List String :=
  (t.verbatim.filter (·.platform == platform)).map (·.text)

def hasOption (t : Term) (word : String) : Bool :=
  t.option.contains word

end Term

structure Target where
  platform : String
  options : List String
  deriving DecidableEq, Repr, Inhabited

structure Filter where
  comment : List String
  targets : List Target
  terms : List Term
  deriving Repr, Inhabited

namespace Filter

def target? (f : Filter) (platform : String) : Option Target :=
  f.targets.find? (·.platform == platform)

def name (f : Filter) (platform : String) : String :=
  ((f.target? platform).bind (·.options.head?)).getD ""

def options (f : Filter) (platform : String) : List String :=
  ((f.target? platform).map (·.options.drop 1)).getD []

end Filter

structure Policy where
  filters : List Filter
  deriving Repr, Inhabited

def Policy.platforms (p : Policy) : List String :=
  (p.filters.flatMap fun f => f.targets.map (·.platform)).foldl
    (fun seen name => if seen.contains name then seen else seen ++ [name]) []

end PacketPolicy
