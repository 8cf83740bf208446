import PacketPolicy.Proofs.Iptables.Acceptance
import PacketPolicy.Proofs.Iptables.Packet
import PacketPolicy.Proofs.Iptables.Rendered

/-!
This module contains what a term asks of a packet, field by field, and the proof that the clauses
that are written for a field ask the same.
-/

namespace PacketPolicy

theorem PortRange.flatten_groups (h : 0 < size) (rs : List α) : (groups size rs).flatten = rs := by
  fun_induction groups size rs with
  | case1 rs hrs ih => simp [ih]
  | case2 rs hrs =>
    have : rs = [] := by simpa [h] using hrs
    simp [this]

namespace Iptables

variable {f : Family}

namespace Packet

def nextHeader (packet : Packet f) : Nat :=
  packet.headerWord 3 &&& 0xff

def fragmentOffset (packet : Packet f) : Nat :=
  packet.headerWord 4 &&& 0x1FFF

def IsFirstFragment (packet : Packet f) : Prop :=
  packet.headerWord 4 &&& 0x3FFF = 0x2000

def Carries (packet : Packet f) (protocol : String) : Prop :=
  if protocol = "" ∨ protocol = "all" then True
  else if protocol = "hop-by-hop" ∧ f = .v6 then packet.nextHeader = 0
  else if protocol = "fragment" ∧ f = .v6 then packet.nextHeader = 44
  else if protocol = "icmpv6" then packet.isProtocol "ipv6-icmp" = true
  else packet.isProtocol protocol = true

def HasPort (packet : Packet f) (side : Side) (ranges : List PortRange) : Prop :=
  ∃ n, packet.port side = some n ∧ ∃ r ∈ ranges, r.contains n = true

def Opens (packet : Packet f) : Prop :=
  packet.flag .ack = false ∧ packet.flag .fin = false ∧ packet.flag .rst = false
    ∧ packet.flag .syn = true

/--
What a TCP connection sends after its first packet, as far as the flags show it: acknowledgements,
or a reset alone.
-/
def Continues (packet : Packet f) : Prop :=
  packet.flag .ack = true
    ∨ packet.flag .ack = false ∧ packet.flag .fin = false ∧ packet.flag .rst = true
      ∧ packet.flag .syn = false

end Packet

def Passes (packet : Packet f) (clauses : List Clause) : Prop :=
  ∀ clause ∈ clauses, clause.accepts packet = true

variable {packet : Packet f}

@[simp]
theorem passes_nil : Passes packet [] := by
  simp [Passes]

@[simp]
theorem passes_cons :
    Passes packet (clause :: clauses) ↔ clause.accepts packet = true ∧ Passes packet clauses := by
  simp [Passes]

@[simp]
theorem passes_append : Passes packet (cs ++ ds) ↔ Passes packet cs ∧ Passes packet ds := by
  simp only [Passes, List.mem_append]
  exact ⟨fun h => ⟨fun c hc => h c (.inl hc), fun c hc => h c (.inr hc)⟩,
    fun h c hc => hc.elim (h.1 c) (h.2 c)⟩

theorem passes_ite {b : Prop} [Decidable b] :
    Passes packet (if b then clauses else []) ↔ (b → Passes packet clauses) := by
  split <;> simp_all

namespace Chain

theorem accepts_address {p : Prefix} (hp : p.masked = p) :
    (Clause.address side p).accepts packet = true ↔ p.written.Covers (packet.address side) := by
  simp [Clause.accepts, Prefix.read_text hp, Except.toOption]

theorem passes_addressClauses {p : Prefix} (hp : p.family = f ∧ p.masked = p) :
    Passes packet (addressClauses side p) ↔
      p.isMapped = false ∧ p.Covers (packet.address side) := by
  unfold addressClauses
  split
  . next h =>
    have hlength : p.length = 0 := by simpa [Prefix.isAll] using h
    simp [Prefix.covers_of_length_eq_zero hp.1 hlength, Prefix.isMapped_of_isAll hp.2 h]
  . simp [accepts_address hp.2, Prefix.covers_written hp.1]

variable {c : Chain}

theorem passes_stateClauses :
    Passes packet (if !c.stateful then [] else if c.matching.established then [.state false]
        else if c.term.action == .accept then [.state true] else []) ↔
      (c.stateful = true → c.matching.established = true →
          packet.tracking = .established ∨ packet.tracking = .related)
        ∧ (c.stateful = true → c.term.action = .accept →
            packet.tracking = .established ∨ packet.tracking = .related
              ∨ packet.tracking = .new) := by
  cases c.stateful with
  | false => simp
  | true =>
    cases c.matching.established with
    | true => grind [Clause.accepts, passes_cons, passes_nil]
    | false =>
      by_cases haction : c.term.action = .accept
      . simp [haction, Clause.accepts, or_assoc]
      . simp [haction]

theorem passes_optionClauses :
    Passes packet c.optionClauses ↔
      (c.term.hasOption "first-fragment" = true → packet.IsFirstFragment)
        ∧ (∀ r, c.matching.length = some r → r.contains packet.length = true)
        ∧ (∀ r, c.matching.fragmentOffset = some r → r.contains packet.fragmentOffset = true)
        ∧ (c.stateful = true → c.matching.established = true →
            packet.tracking = .established ∨ packet.tracking = .related)
        ∧ (c.stateful = true → c.term.action = .accept →
            packet.tracking = .established ∨ packet.tracking = .related
              ∨ packet.tracking = .new) := by
  unfold optionClauses
  simp only [passes_append, passes_stateClauses, and_assoc]
  apply and_congr
  . simp [passes_ite, Clause.accepts, Packet.IsFirstFragment]
  apply and_congr
  . cases c.matching.length <;> simp [Clause.accepts]
  apply and_congr
  . cases c.matching.fragmentOffset <;> simp [Clause.accepts, Packet.fragmentOffset]
  . rfl

theorem passes_interfaceClauses :
    Passes packet c.interfaceClauses ↔
      (c.term.sourceInterface ≠ "" → packet.arrivesBy c.term.sourceInterface = true)
        ∧ (c.term.destinationInterface ≠ "" →
          packet.leavesBy c.term.destinationInterface = true) := by
  unfold interfaceClauses
  rw [passes_append]
  apply and_congr
  . split <;> simp_all [Clause.accepts]
  . split <;> simp_all [Clause.accepts]

theorem accepts_ports : (Clause.ports side rs).accepts packet = true ↔ packet.HasPort side rs := by
  simp [Clause.accepts, Packet.HasPort, Option.any_eq_true]

theorem exists_sidePorts :
    (∃ clause ∈ sidePorts side rs, clause.accepts packet = true) ↔ packet.HasPort side rs := by
  unfold sidePorts
  split
  . simp [Clause.accepts, Packet.HasPort, Option.any_eq_true]
  . -- A port is in some group if it is in the list, as the groups are the consecutive parts of the
    -- list.
    have hflatten := PortRange.flatten_groups (show 0 < PortRange.maxEntries by decide) rs
    rw [exists_mem_map]
    simp only [accepts_ports]
    constructor
    . rintro ⟨group, hgroup, n, hn, r, hr, hcontains⟩
      exact ⟨n, hn, r, hflatten ▸ List.mem_flatten_of_mem hgroup hr, hcontains⟩
    . rintro ⟨n, hn, r, hr, hcontains⟩
      rw [← hflatten] at hr
      obtain ⟨group, hgroup, hr⟩ := List.mem_flatten.mp hr
      exact ⟨group, hgroup, n, hn, r, hr, hcontains⟩

theorem exists_portLists :
    (∃ clauses ∈ portLists side rs, Passes packet clauses) ↔
      (rs ≠ [] → packet.HasPort side rs) := by
  unfold portLists
  split
  . simp_all
  . next h =>
    rw [exists_mem_map, ← exists_sidePorts]
    simp_all

theorem exists_portClauseLists :
    (∃ clauses ∈ c.portClauseLists protocol, Passes packet clauses) ↔
      (protocol = "tcp" ∨ protocol = "udp" →
        (c.term.sourcePort ≠ [] → packet.HasPort .source c.term.sourcePort)
          ∧ (c.destinationPorts ≠ [] → packet.HasPort .destination c.destinationPorts)) := by
  unfold portClauseLists
  split
  . next h =>
    have hprotocol : protocol = "tcp" ∨ protocol = "udp" := by simpa using h
    -- The order of the two clauses does not matter.
    have hpasses : ∀ b s d,
        Passes packet (if b = true then d ++ s else s ++ d) ↔
          Passes packet s ∧ Passes packet d := by
      intro b s d
      cases b <;> simp [and_comm]
    simp only [hprotocol, forall_const, exists_mem_flatMap, exists_mem_map, hpasses,
      ← exists_portLists]
    constructor
    . rintro ⟨s, hs, d, hd, hsp, hdp⟩
      exact ⟨⟨s, hs, hsp⟩, d, hd, hdp⟩
    . rintro ⟨⟨s, hs, hsp⟩, d, hd, hdp⟩
      exact ⟨s, hs, d, hd, hsp, hdp⟩
  . next h => simp_all

theorem hasFlags_self (fs : List TcpFlag) :
    packet.hasFlags fs fs = true ↔ ∀ flag ∈ fs, ∀ bit ∈ flag.bits, packet.flag bit = true := by
  -- Mask and set are the same, so flags outside of them do not count.
  have hall : ∀ bit, bit ∈ TcpFlag.all.bits := by
    intro bit
    cases bit <;> decide
  unfold Packet.hasFlags
  rw [List.all_eq_true]
  constructor
  . intro h flag hflag bit hbit
    have hmem : bit ∈ fs.flatMap TcpFlag.bits := List.mem_flatMap.mpr ⟨flag, hflag, hbit⟩
    simpa [hmem] using h bit (hall bit)
  . intro h bit _
    by_cases hmem : bit ∈ fs.flatMap TcpFlag.bits
    . obtain ⟨flag, hflag, hbit⟩ := List.mem_flatMap.mp hmem
      simp [hmem, h flag hflag bit hbit]
    . simp [hmem]

theorem accepts_syn : Clause.syn.accepts packet = true ↔ packet.Opens := by
  simp [Clause.accepts, Packet.hasFlags, TcpFlag.bits, Packet.Opens]

theorem exists_establishedFlags :
    (∃ clause ∈ establishedFlags, clause.accepts packet = true) ↔ packet.Continues := by
  simp [establishedFlags, Clause.accepts, Packet.hasFlags, TcpFlag.bits, Packet.Continues]

theorem exists_flagVariants :
    (∃ clauses ∈ c.flagVariants protocol, Passes packet clauses) ↔
      (protocol = "tcp" →
        (∀ flag ∈ c.matching.flags, ∀ bit ∈ flag.bits, packet.flag bit = true)
          ∧ (c.term.hasOption "initial" = true → packet.Opens)
          ∧ (c.matching.established = true → c.stateful = false → packet.Continues)) := by
  have hflags : Passes packet
    (if c.matching.flags.isEmpty then [] else [.tcpFlags c.matching.flags c.matching.flags])
      ↔ ∀ flag ∈ c.matching.flags, ∀ bit ∈ flag.bits, packet.flag bit = true := by
    split
    . simp_all
    . simp [Clause.accepts, hasFlags_self]
  have hinitial : Passes packet (if c.term.hasOption "initial" then [.syn] else [])
      ↔ (c.term.hasOption "initial" = true → packet.Opens) := by
    simp [passes_ite, accepts_syn]
  unfold flagVariants
  split
  . next h => simp_all
  . next h =>
    have hprotocol : protocol = "tcp" := by simpa using h
    simp only [hprotocol, forall_const]
    split
    . next hestablished =>
      have hboth : c.matching.established = true ∧ c.stateful = false := by simpa using hestablished
      simp only [hboth, forall_const, ← exists_establishedFlags]
      simp only [exists_mem_map, passes_append, hflags, hinitial, passes_cons, passes_nil, and_true]
      constructor
      . rintro ⟨e, he, ⟨hbits, hopens⟩, haccepts⟩
        exact ⟨hbits, hopens, e, he, haccepts⟩
      . rintro ⟨hbits, hopens, e, he, haccepts⟩
        exact ⟨e, he, ⟨hbits, hopens⟩, haccepts⟩
    . next hestablished =>
      have hcontinues : c.matching.established = true → c.stateful = false → packet.Continues := by
        intro he hs
        simp [he, hs] at hestablished
      simp only [List.mem_singleton, exists_eq_left, passes_append, hflags, hinitial]
      exact and_congr_right fun _ => (and_iff_left hcontinues).symm

theorem exists_messageClauses {clause : Nat → Clause}
    (hclause : ∀ n, (clause n).accepts packet = true ↔
      packet.isProtocol protocol = true ∧ packet.icmpType = some n) (codes : List Nat) :
    (∃ clauses ∈ if codes.isEmpty then [[.protocol protocol]] else codes.map fun n => [clause n],
        Passes packet clauses) ↔
      packet.isProtocol protocol = true ∧ (codes ≠ [] → ∃ n ∈ codes, packet.icmpType = some n) := by
  split
  . simp_all [Clause.accepts]
  . next h =>
    have hcodes : codes ≠ [] := by simpa using h
    simp only [exists_mem_map, passes_cons, hclause, passes_nil, and_true, hcodes, ne_eq,
      not_false_eq_true, forall_const]
    constructor
    . rintro ⟨n, hn, hprotocol, htype⟩
      exact ⟨hprotocol, n, hn, htype⟩
    . rintro ⟨hprotocol, n, hn, htype⟩
      exact ⟨n, hn, hprotocol, htype⟩

theorem passes_protocolClauses (hf : c.family = f) (hicmp : Icmp.isProtocol protocol = false) :
    Passes packet (c.protocolClauses protocol) ↔ packet.Carries protocol := by
  have hv6 : protocol ≠ "icmpv6" := by
    intro h
    simp [h, Icmp.isProtocol] at hicmp
  unfold protocolClauses Packet.Carries
  rw [if_neg (by simp [hicmp]), if_neg hv6, hf]
  split
  . next h =>
    simp only [Bool.and_eq_true, beq_iff_eq] at h
    simp [h, Clause.accepts, Packet.nextHeader]
  . split
    . next h =>
      simp only [Bool.and_eq_true, beq_iff_eq] at h
      simp [h, Clause.accepts, Packet.nextHeader]
    . split
      . next h => simp_all
      . next hhop hfragment hany =>
        simp only [Bool.and_eq_true, Bool.or_eq_true, beq_iff_eq] at hhop hfragment hany
        simp [hhop, hfragment, hany, Clause.accepts]

theorem exists_icmpClauses (hf : c.family = f) :
    (Passes packet (c.protocolClauses protocol)
      ∧ ∃ clauses ∈ c.icmpClauses protocol, Passes packet clauses) ↔
      packet.Carries protocol ∧
        (Icmp.isProtocol protocol = true → c.codes ≠ [] →
          ∃ n ∈ c.codes, packet.icmpType = some n) := by
  by_cases hv6 : protocol = "icmpv6"
  . subst hv6
    have haccepts : ∀ n, (Clause.icmp6Type n).accepts packet = true ↔
        packet.isProtocol "ipv6-icmp" = true ∧ packet.icmpType = some n := by
      simp [Clause.accepts]
    have hmessages := exists_messageClauses haccepts c.codes
    simpa [icmpClauses, protocolClauses, Icmp.isProtocol, Packet.Carries] using hmessages
  . by_cases hv4 : protocol = "icmp"
    . subst hv4
      have haccepts : ∀ n, (Clause.icmpType n).accepts packet = true ↔
          packet.isProtocol "icmp" = true ∧ packet.icmpType = some n := by
        simp [Clause.accepts]
      have hmessages := exists_messageClauses haccepts c.codes
      simpa [icmpClauses, protocolClauses, Icmp.isProtocol, Packet.Carries] using hmessages
    . have hicmp : Icmp.isProtocol protocol = false := by simp [Icmp.isProtocol, hv4, hv6]
      simp [icmpClauses, hv4, hv6, hicmp, passes_protocolClauses hf hicmp]

end Chain
end Iptables
end PacketPolicy
