import PacketPolicy.Iptables.Line
import PacketPolicy.Proofs.Address.Written

/-!
This module contains packets as the packet filter sees them, the clauses that match them, and the
way of a packet through the lines of a chain.
-/

namespace PacketPolicy
namespace Iptables

inductive TcpBit where
  | ack
  | fin
  | psh
  | rst
  | syn
  | urg
  deriving DecidableEq, Repr

namespace TcpFlag

def bits : TcpFlag → List TcpBit
  | .ack => [.ack]
  | .all => [.ack, .fin, .psh, .rst, .syn, .urg]
  | .fin => [.fin]
  | .none => []
  | .psh => [.psh]
  | .rst => [.rst]
  | .syn => [.syn]
  | .urg => [.urg]

end TcpFlag

inductive Tracking where
  | new
  | established
  | related
  | invalid
  | untracked
  deriving DecidableEq, Repr

/--
What rules can ask of a packet. Names of protocols and interfaces are looked up outside, so a packet
says for each of them whether it is the right one. A packet without ports or without a message type
has none.
-/
structure Packet (f : Family) where
  source : Address f
  destination : Address f
  isProtocol : String → Bool
  port : Side → Option Nat
  flag : TcpBit → Bool
  icmpType : Option Nat
  length : Nat
  /-- The word of the network header that starts at a byte. -/
  headerWord : Nat → Nat
  tracking : Tracking
  arrivesBy : String → Bool
  leavesBy : String → Bool

namespace Packet

variable {f : Family}

def address (packet : Packet f) : Side → Address f
  | .source => packet.source
  | .destination => packet.destination

def hasFlags (packet : Packet f) (mask set : List TcpFlag) : Bool :=
  TcpFlag.all.bits.all fun bit =>
    (packet.flag bit && (mask.flatMap TcpFlag.bits).contains bit)
      == (set.flatMap TcpFlag.bits).contains bit

end Packet

variable {f : Family}

/--
Whether a packet has what a clause asks for. Addresses are taken from the text that is written for
them: a prefix of the other family has none of the packet.
-/
def Clause.accepts (packet : Packet f) : Clause → Bool
  | .protocol name => packet.isProtocol name
  | .extensionHeader .hopByHop => packet.headerWord 3 &&& 0xff == 0x0
  | .extensionHeader .fragment => packet.headerWord 3 &&& 0xff == 0x2c
  | .tcpFlags mask set => packet.hasFlags mask set
  | .syn => packet.hasFlags [.syn, .rst, .ack, .fin] [.syn]
  | .port side range => (packet.port side).any range.contains
  | .ports side ranges => (packet.port side).any fun n => ranges.any (·.contains n)
  | .address side p => (Prefix.read p.text).toOption.any fun q => q.Covers (packet.address side)
  | .icmpType code => packet.isProtocol "icmp" && packet.icmpType == some code
  | .icmp6Type code => packet.isProtocol "ipv6-icmp" && packet.icmpType == some code
  | .firstFragment => packet.headerWord 4 &&& 0x3FFF == 0x2000
  | .length range => range.contains packet.length
  | .fragmentOffset range => range.contains (packet.headerWord 4 &&& 0x1FFF)
  | .state new =>
    packet.tracking == .established || packet.tracking == .related
      || (new && packet.tracking == .new)
  | .inInterface name => packet.arrivesBy name
  | .outInterface name => packet.leavesBy name
  | .comment _ => true

inductive Effect where
  | next
  | leave
  | decide (jump : Jump)
  deriving DecidableEq, Repr

/--
Logging does not decide, and a jump to a chain comes back.
-/
def Jump.effect : Jump → Effect
  | .leave => .leave
  | .log _ => .next
  | .chain _ => .next
  | jump => .decide jump

def Line.effect (chain : String) (packet : Packet f) : Line → Effect
  | .append name clauses (some jump) =>
    if name == chain && clauses.all (·.accepts packet) then jump.effect else .next
  | _ => .next

def verdict (chain : String) (packet : Packet f) : List Line → Option Jump
  | [] => none
  | line :: lines =>
    match line.effect chain packet with
    | .next => verdict chain packet lines
    | .leave => none
    | .decide jump => some jump

variable {chain : String} {packet : Packet f} {ls rest : List Line}

theorem verdict_append_of_next (h : ∀ line ∈ ls, line.effect chain packet = .next) :
    verdict chain packet (ls ++ rest) = verdict chain packet rest := by
  induction ls with
  | nil => rfl
  | cons line ls ih =>
    rw [List.cons_append, verdict, h line (by simp)]
    exact ih fun line hline => h line (by simp [hline])

theorem verdict_append_of_leave
    (h : ∀ line ∈ ls, line.effect chain packet = .next ∨ line.effect chain packet = .leave) :
    verdict chain packet (ls ++ rest) = some j ↔
      (∀ line ∈ ls, line.effect chain packet ≠ .leave) ∧ verdict chain packet rest = some j := by
  induction ls with
  | nil => simp
  | cons line ls ih =>
    rw [List.cons_append, verdict]
    cases h line (by simp) with
    | inl hnext => simp [hnext, ih fun line hline => h line (by simp [hline])]
    | inr hleave => simp [hleave]

theorem verdict_eq_some_iff
    (h : ∀ line ∈ ls, line.effect chain packet = .next ∨ line.effect chain packet = .decide j) :
    verdict chain packet ls = some j ↔ ∃ line ∈ ls, line.effect chain packet = .decide j := by
  induction ls with
  | nil => simp [verdict]
  | cons line ls ih =>
    rw [verdict]
    cases h line (by simp) with
    | inl hnext => simp [hnext, ih fun line hline => h line (by simp [hline])]
    | inr hdecide => simp [hdecide]

end Iptables
end PacketPolicy
