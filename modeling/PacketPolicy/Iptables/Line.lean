import PacketPolicy.Address.Plan
import PacketPolicy.Port.Range

namespace PacketPolicy
namespace Iptables

inductive Word where
  | bare (s : String)
  | quoted (s : String)
  deriving DecidableEq, Repr

def Word.text : Word → String
  | .bare s => s
  | .quoted s => "\"" ++ s ++ "\""

def Word.content : Word → String
  | .bare s => s
  | .quoted s => s

inductive TcpFlag where
  | ack
  | all
  | fin
  | none
  | psh
  | rst
  | syn
  | urg
  deriving DecidableEq, Repr

namespace TcpFlag

def word : TcpFlag → String
  | .ack => "ACK"
  | .all => "ALL"
  | .fin => "FIN"
  | .none => "NONE"
  | .psh => "PSH"
  | .rst => "RST"
  | .syn => "SYN"
  | .urg => "URG"

def ofOption? (option : String) : Option TcpFlag :=
  if option == "ack" then some .ack
  else if option == "all" then some .all
  else if option == "fin" then some .fin
  else if option == "none" then some .none
  else if option == "psh" then some .psh
  else if option == "rst" then some .rst
  else if option == "syn" then some .syn
  else if option == "urg" then some .urg
  else Option.none

def list (flags : List TcpFlag) : String :=
  String.intercalate "," (flags.map word)

end TcpFlag

inductive ExtensionHeader where
  | hopByHop
  | fragment
  deriving DecidableEq, Repr

inductive Clause where
  | protocol (name : String)
  | extensionHeader (header : ExtensionHeader)
  /-- Of the flags in `mask` exactly those in `set` are set. -/
  | tcpFlags (mask set : List TcpFlag)
  | syn
  | port (side : Side) (range : PortRange)
  | ports (side : Side) (ranges : List PortRange)
  | address (side : Side) (p : Prefix)
  | icmpType (code : Nat)
  | icmp6Type (code : Nat)
  | firstFragment
  | length (range : PortRange)
  | fragmentOffset (range : PortRange)
  /-- The packet belongs to a known connection, or, if `new`, opens one. -/
  | state (new : Bool)
  | inInterface (name : String)
  | outInterface (name : String)
  | comment (text : String)
  deriving DecidableEq, Repr

namespace Clause

def words : Clause → List Word
  | .protocol name => [.bare "-p", .bare name]
  | .extensionHeader .hopByHop => [.bare "-m", .bare "u32", .bare "--u32", .quoted "0x3&0xff=0x0"]
  | .extensionHeader .fragment => [.bare "-m", .bare "u32", .bare "--u32", .quoted "0x3&0xff=0x2c"]
  | .tcpFlags mask set => [.bare "--tcp-flags", .bare (TcpFlag.list mask), .bare (TcpFlag.list set)]
  | .syn => [.bare "--syn"]
  | .port .source range => [.bare "--sport", .bare (range.textWith ":")]
  | .port .destination range => [.bare "--dport", .bare (range.textWith ":")]
  | .ports .source ranges =>
    [.bare "-m", .bare "multiport", .bare "--sports", .bare (PortRange.joinText ":" ranges)]
  | .ports .destination ranges =>
    [.bare "-m", .bare "multiport", .bare "--dports", .bare (PortRange.joinText ":" ranges)]
  | .address .source p => [.bare "-s", .bare p.text]
  | .address .destination p => [.bare "-d", .bare p.text]
  | .icmpType code => [.bare "-p", .bare "icmp", .bare "--icmp-type", .bare (toString code)]
  | .icmp6Type code =>
    [.bare "-p", .bare "ipv6-icmp", .bare "-m", .bare "icmp6", .bare "--icmpv6-type",
      .bare (toString code)]
  | .firstFragment => [.bare "-m", .bare "u32", .bare "--u32", .bare "4&0x3FFF=0x2000"]
  | .length range => [.bare "-m", .bare "length", .bare "--length", .bare (range.textWith ":")]
  | .fragmentOffset range =>
    [.bare "-m", .bare "u32", .bare "--u32", .bare ("4&0x1FFF=" ++ range.textWith ":")]
  | .state true => [.bare "-m", .bare "state", .bare "--state", .bare "NEW,ESTABLISHED,RELATED"]
  | .state false => [.bare "-m", .bare "state", .bare "--state", .bare "ESTABLISHED,RELATED"]
  | .inInterface name => [.bare "-i", .bare name]
  | .outInterface name => [.bare "-o", .bare name]
  | .comment text => [.bare "-m", .bare "comment", .bare "--comment", .quoted text]

def text (c : Clause) : String :=
  String.intercalate " " (c.words.map Word.text)

end Clause

inductive Rejection where
  | hostProhibited
  | administratively
  | tcpReset
  deriving DecidableEq, Repr

def Rejection.word : Rejection → String
  | .hostProhibited => "icmp-host-prohibited"
  | .administratively => "icmp6-adm-prohibited"
  | .tcpReset => "tcp-reset"

inductive Jump where
  | accept
  | drop
  | reject (answer : Rejection)
  | leave
  | log (label : String)
  | chain (name : String)
  deriving DecidableEq, Repr

def Jump.words : Jump → List Word
  | .accept => [.bare "-j", .bare "ACCEPT"]
  | .drop => [.bare "-j", .bare "DROP"]
  | .reject answer => [.bare "-j", .bare "REJECT", .bare "--reject-with", .bare answer.word]
  | .leave => [.bare "-j", .bare "RETURN"]
  | .log label => [.bare "-j", .bare "LOG", .bare "--log-prefix", .bare label]
  | .chain name => [.bare "-j", .bare name]

inductive Line where
  | note (text : String)
  | policy (chain action : String)
  | declare (chain : String)
  | append (chain : String) (clauses : List Clause) (jump : Option Jump)
  | verbatim (text : String)
  deriving DecidableEq, Repr

namespace Line

def words : Line → List Word
  | .note _ => []
  | .policy chain action => [.bare "-P", .bare chain, .bare action]
  | .declare chain => [.bare "-N", .bare chain]
  | .append chain clauses jump =>
    [.bare "-A", .bare chain] ++ clauses.flatMap Clause.words ++ (jump.map Jump.words).getD []
  | .verbatim _ => []

def text : Line → String
  | .note text => "# " ++ text
  | .verbatim text => text
  | line => String.intercalate " " (line.words.map Word.text)

end Line
end Iptables
end PacketPolicy
