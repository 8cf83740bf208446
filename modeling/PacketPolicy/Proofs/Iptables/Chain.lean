import PacketPolicy.Proofs.Address.Plan
import PacketPolicy.Proofs.Iptables.Clauses

namespace PacketPolicy
namespace Iptables

open Prefix (Covered)

variable {f : Family} {packet : Packet f} {t : Term}

structure Admits (t : Term) (stateful : Bool) (packet : Packet f) (protocol : String) : Prop where
  carries : packet.Carries protocol
  sourcePort : t.sourcePort ≠ [] → packet.HasPort .source t.sourcePort
  destinationPort : t.destinationPort ≠ [] → packet.HasPort .destination t.destinationPort
  /-- Replies go to high ports unless the term says otherwise. -/
  highPort : Matching.isEstablished t = true → t.destinationPort = [] → t.protocol ≠ [] →
    (∀ p ∈ t.protocol, p = "tcp" ∨ p = "udp") → packet.HasPort .destination [.ofNat 1024 65535]
  flags : ∀ o ∈ t.option, ∀ flag, TcpFlag.ofOption? o = some flag →
    ∀ bit ∈ flag.bits, packet.flag bit = true
  initial : t.hasOption "initial" = true → packet.Opens
  continues : Matching.isEstablished t = true → stateful = false → protocol = "tcp" →
    packet.Continues
  icmpType : t.icmpType ≠ [] →
    ∃ name ∈ t.icmpType, ∃ n, (Icmp.types f).lookup name = some n ∧ packet.icmpType = some n
  firstFragment : t.hasOption "first-fragment" = true → packet.IsFirstFragment
  length : t.packetLength ≠ "" →
    ∃ r, PortRange.read t.packetLength = .ok r ∧ r.contains packet.length = true
  fragmentOffset : t.fragmentOffset ≠ "" →
    ∃ r, PortRange.read t.fragmentOffset = .ok r ∧ r.contains packet.fragmentOffset = true
  known : stateful = true → Matching.isEstablished t = true →
    packet.tracking = .established ∨ packet.tracking = .related
  tracked : stateful = true → t.action = .accept →
    packet.tracking = .established ∨ packet.tracking = .related ∨ packet.tracking = .new
  arrives : t.sourceInterface ≠ "" → packet.arrivesBy t.sourceInterface = true
  leaves : t.destinationInterface ≠ "" → packet.leavesBy t.destinationInterface = true

/--
The packets that a term is about. A term without protocols is about all of them.
-/
def Selects (t : Term) (stateful : Bool) (packet : Packet f) : Prop :=
  t.request.Matches .source packet.source ∧ t.request.Matches .destination packet.destination
    ∧ ∃ protocol, (protocol ∈ t.protocol ∨ t.protocol = [] ∧ protocol = "")
      ∧ Admits t stateful packet protocol

/--
Ports stand with protocols that have ports, and the options on TCP flags with TCP alone.
-/
structure Coherent (t : Term) : Prop where
  ports : t.sourcePort ≠ [] ∨ t.destinationPort ≠ [] →
    t.protocol ≠ [] ∧ ∀ p ∈ t.protocol, p = "tcp" ∨ p = "udp"
  flags : (∃ o ∈ t.option, (TcpFlag.ofOption? o).isSome = true ∨ o = "initial") →
    t.protocol = ["tcp"]

theorem onlyTcpUdp_eq_true : onlyTcpUdp ps = true ↔ ∀ p ∈ ps, p = "tcp" ∨ p = "udp" := by
  simp [onlyTcpUdp]

theorem Matching.mem_flagsOf :
    flag ∈ flagsOf t ↔ ∃ o ∈ t.option, TcpFlag.ofOption? o = some flag := by
  simp [flagsOf]

theorem Matching.forall_readRange (h : readRange t feature value = .ok r?) (n : Nat) :
    (∀ r, r? = some r → r.contains n = true) ↔
      (value ≠ "" → ∃ r, PortRange.read value = .ok r ∧ r.contains n = true) := by
  obtain ⟨hvalue, rfl⟩ | ⟨hvalue, range, hread, rfl⟩ := readRange_eq_ok.mp h
  . simp [hvalue]
  . simp [hvalue, hread]

theorem Icmp.code_eq_ok : Icmp.code f name = .ok n ↔ (Icmp.types f).lookup name = some n := by
  unfold Icmp.code
  cases (Icmp.types f).lookup name <;> simp

theorem Icmp.codes_eq_ok (h : Icmp.codes f names protocols = .ok codes) :
    (names = [] ∧ codes = []) ∨ (names ≠ [] ∧ codes ≠ [] ∧ protocols = [f.icmp]
      ∧ ∀ n, n ∈ codes ↔ ∃ name ∈ names, (Icmp.types f).lookup name = some n) := by
  unfold Icmp.codes at h
  split at h
  . next hnames => exact .inl ⟨by simpa using hnames, by simpa [eq_comm] using h⟩
  . next hnames =>
    split at h
    . simp at h
    . next hprotocols =>
      have hne : names ≠ [] := by simpa using hnames
      refine .inr ⟨hne, ?_, by simpa using hprotocols, fun n => ?_⟩
      . obtain ⟨name, hname⟩ := List.exists_mem_of_ne_nil names hne
        obtain ⟨n, hn, _⟩ := exists_of_mapM_eq_ok h hname
        exact List.ne_nil_of_mem hn
      . simp only [mem_of_mapM_eq_ok h, Icmp.code_eq_ok]

theorem Line.effect_append_of_passes (h : Passes packet clauses) :
    (Line.append name clauses (some j)).effect name packet = j.effect := by
  have : clauses.all (·.accepts packet) = true := List.all_eq_true.mpr h
  simp [Line.effect, this]

theorem Line.effect_append_of_not_passes (h : ¬Passes packet clauses) :
    (Line.append name clauses (some j)).effect name packet = .next := by
  have : ¬clauses.all (·.accepts packet) = true := fun hall => h (List.all_eq_true.mp hall)
  simp [Line.effect, this]

namespace Chain

variable {c : Chain}

theorem exists_shape :
    (∃ shape ∈ c.shapeList, Passes packet (shape.before ++ shape.after)) ↔
      ∃ p ∈ c.protocols, (∃ clauses ∈ c.flagVariants p, Passes packet clauses)
        ∧ (∃ clauses ∈ c.portClauseLists p, Passes packet clauses)
        ∧ (Passes packet (c.protocolClauses p) ∧ ∃ clauses ∈ c.icmpClauses p, Passes packet clauses)
        ∧ Passes packet c.optionClauses ∧ Passes packet c.interfaceClauses := by
  simp only [shapeList, protocolShapes, exists_mem_flatMap, exists_mem_map, passes_append]
  constructor
  . rintro ⟨p, hp, flags, hflags, ports, hports, icmp, hicmp, ⟨⟨hpp, hfp⟩, hop⟩,
      ⟨hip, hoptions⟩, hinterfaces⟩
    exact ⟨p, hp, ⟨flags, hflags, hfp⟩, ⟨ports, hports, hop⟩, ⟨hpp, icmp, hicmp, hip⟩,
      hoptions, hinterfaces⟩
  . rintro ⟨p, hp, ⟨flags, hflags, hfp⟩, ⟨ports, hports, hop⟩, ⟨hpp, icmp, hicmp, hip⟩,
      hoptions, hinterfaces⟩
    exact ⟨p, hp, flags, hflags, ports, hports, icmp, hicmp, ⟨⟨hpp, hfp⟩, hop⟩,
      ⟨hip, hoptions⟩, hinterfaces⟩

theorem mem_protocols : p ∈ c.protocols ↔ p ∈ c.term.protocol ∨ c.term.protocol = [] ∧ p = "" := by
  unfold protocols
  split <;> simp_all

theorem ports_iff (hp : p ∈ c.protocols) (hterm : Coherent c.term) :
    (p = "tcp" ∨ p = "udp" →
        (c.term.sourcePort ≠ [] → packet.HasPort .source c.term.sourcePort)
          ∧ (c.destinationPorts ≠ [] → packet.HasPort .destination c.destinationPorts)) ↔
      (c.term.sourcePort ≠ [] → packet.HasPort .source c.term.sourcePort)
        ∧ (c.term.destinationPort ≠ [] → packet.HasPort .destination c.term.destinationPort)
        ∧ (c.matching.established = true → c.term.destinationPort = [] → c.term.protocol ≠ [] →
            (∀ p ∈ c.term.protocol, p = "tcp" ∨ p = "udp") →
              packet.HasPort .destination [.ofNat 1024 65535]) := by
  rw [mem_protocols] at hp
  by_cases hprotocol : p = "tcp" ∨ p = "udp"
  . have hmem : p ∈ c.term.protocol := by
      cases hp with
      | inl h => exact h
      | inr h => simp [h.2] at hprotocol
    have hne : c.term.protocol ≠ [] := List.ne_nil_of_mem hmem
    simp only [hprotocol, forall_const]
    apply and_congr_right
    intro _
    unfold destinationPorts
    split
    . next hdefault =>
      simp only [Bool.and_eq_true, List.isEmpty_iff, onlyTcpUdp_eq_true] at hdefault
      obtain ⟨⟨hestablished, hnil⟩, hall⟩ := hdefault
      simp only [hnil, ne_eq, not_true_eq_false, false_implies, true_and]
      exact ⟨fun h _ _ _ _ => h (by simp), fun h _ => h hestablished trivial hne hall⟩
    . next hdefault =>
      simp only [Bool.and_eq_true, List.isEmpty_iff, onlyTcpUdp_eq_true] at hdefault
      refine ⟨fun h => ⟨h, fun hestablished hnil _ hall => ?_⟩, fun h => h.1⟩
      exact absurd ⟨⟨hestablished, hnil⟩, hall⟩ hdefault
  . -- A rule for another protocol has no ports, and then the term has none either.
    have hnone : ¬(c.term.protocol ≠ [] ∧ ∀ p ∈ c.term.protocol, p = "tcp" ∨ p = "udp") := by
      rintro ⟨hne, hall⟩
      exact hprotocol (hall p (hp.resolve_right fun h => hne h.1))
    obtain ⟨hsource, hdestination⟩ : c.term.sourcePort = [] ∧ c.term.destinationPort = [] := by
      simpa using mt hterm.ports hnone
    simp only [hprotocol, false_implies, hsource, hdestination, ne_eq, not_true_eq_false,
      true_and, true_iff]
    intro _ _ hne hall
    exact absurd ⟨hne, hall⟩ hnone

theorem flags_iff (hp : p ∈ c.protocols) (hterm : Coherent c.term)
    (hflags : c.matching.flags = Matching.flagsOf c.term) :
    (p = "tcp" →
        (∀ flag ∈ c.matching.flags, ∀ bit ∈ flag.bits, packet.flag bit = true)
          ∧ (c.term.hasOption "initial" = true → packet.Opens)
          ∧ (c.matching.established = true → c.stateful = false → packet.Continues)) ↔
      (∀ o ∈ c.term.option, ∀ flag, TcpFlag.ofOption? o = some flag →
        ∀ bit ∈ flag.bits, packet.flag bit = true)
        ∧ (c.term.hasOption "initial" = true → packet.Opens)
        ∧ (c.matching.established = true → c.stateful = false → p = "tcp" → packet.Continues) := by
  have hmem : (∀ flag ∈ c.matching.flags, ∀ bit ∈ flag.bits, packet.flag bit = true) ↔
      ∀ o ∈ c.term.option, ∀ flag, TcpFlag.ofOption? o = some flag →
        ∀ bit ∈ flag.bits, packet.flag bit = true := by
    simp only [hflags, Matching.mem_flagsOf]
    constructor
    . intro h o ho flag hflag
      exact h flag ⟨o, ho, hflag⟩
    . rintro h flag ⟨o, ho, hflag⟩
      exact h o ho flag hflag
  by_cases hprotocol : p = "tcp"
  . simp only [hprotocol, forall_const, hmem]
  . -- Without the protocol no option asks for a flag.
    have hnone : ∀ o ∈ c.term.option, ¬((TcpFlag.ofOption? o).isSome = true ∨ o = "initial") := by
      intro o ho hflag
      rw [mem_protocols, hterm.flags ⟨o, ho, hflag⟩] at hp
      simp [hprotocol] at hp
    simp only [hprotocol, false_implies, implies_true, and_true, true_iff]
    refine ⟨fun o ho flag hflag => absurd (.inl (by simp [hflag])) (hnone o ho), fun hinitial => ?_⟩
    have : "initial" ∈ c.term.option := by simpa [Term.hasOption] using hinitial
    exact absurd (.inr rfl) (hnone _ this)

theorem codes_iff (hp : p ∈ c.protocols)
    (hcodes : Icmp.codes f c.term.icmpType c.term.protocol = .ok c.codes) :
    (Icmp.isProtocol p = true → c.codes ≠ [] → ∃ n ∈ c.codes, packet.icmpType = some n) ↔
      (c.term.icmpType ≠ [] →
        ∃ name ∈ c.term.icmpType, ∃ n, (Icmp.types f).lookup name = some n
          ∧ packet.icmpType = some n) := by
  obtain ⟨hnames, hnil⟩ | ⟨hnames, hnil, hprotocol, hmem⟩ := Icmp.codes_eq_ok hcodes
  . simp [hnames, hnil]
  . have hicmp : Icmp.isProtocol p = true := by
      have : p = f.icmp := by simpa [mem_protocols, hprotocol] using hp
      cases f <;> simp [this, Icmp.isProtocol, Family.icmp]
    simp only [hicmp, hnil, hnames, ne_eq, not_false_eq_true, forall_const, hmem]
    constructor
    . rintro ⟨n, ⟨name, hname, hlookup⟩, htype⟩
      exact ⟨name, hname, n, hlookup, htype⟩
    . rintro ⟨name, hname, n, hlookup, htype⟩
      exact ⟨n, ⟨name, hname, hlookup⟩, htype⟩

theorem exists_shape_iff {stateful : Bool} (h : c.Renders filter f stateful shortening t)
    (hterm : Coherent t) :
    (∃ shape ∈ c.shapeList, Passes packet (shape.before ++ shape.after)) ↔
      ∃ p, (p ∈ t.protocol ∨ t.protocol = [] ∧ p = "") ∧ Admits t stateful packet p := by
  obtain ⟨rfl, hfamily, rfl, haccepts, hcodes, _, _⟩ := h
  simp only [exists_shape, ← mem_protocols]
  apply exists_congr
  intro p
  apply and_congr_right
  intro hp
  rw [exists_flagVariants, flags_iff hp hterm haccepts.flags, exists_portClauseLists,
    ports_iff hp hterm, exists_icmpClauses hfamily, codes_iff hp hcodes, passes_optionClauses,
    passes_interfaceClauses, Matching.forall_readRange haccepts.length,
    Matching.forall_readRange haccepts.fragmentOffset, haccepts.established]
  constructor
  . rintro ⟨⟨hflags, hinitial, hcontinues⟩, ⟨hsource, hdestination, hhigh⟩, ⟨hcarries, htype⟩,
      ⟨hfragment, hlength, hoffset, hknown, htracked⟩, harrives, hleaves⟩
    exact ⟨hcarries, hsource, hdestination, hhigh, hflags, hinitial, hcontinues, htype, hfragment,
      hlength, hoffset, hknown, htracked, harrives, hleaves⟩
  . intro h
    exact ⟨⟨h.flags, h.initial, h.continues⟩, ⟨h.sourcePort, h.destinationPort, h.highPort⟩,
      ⟨h.carries, h.icmpType⟩, ⟨h.firstFragment, h.length, h.fragmentOffset, h.known, h.tracked⟩,
      h.arrives, h.leaves⟩

theorem effect_returnLine {p : Prefix} (hp : p.family = f ∧ p.masked = p) :
    (c.returnLine side p).effect c.name packet =
      if p.isMapped = false ∧ p.Covers (packet.address side) then .leave else .next := by
  unfold returnLine
  split
  . next h => exact Line.effect_append_of_passes ((passes_addressClauses hp).mpr h)
  . next h => exact Line.effect_append_of_not_passes (mt (passes_addressClauses hp).mp h)

theorem forall_returnLine {ps : List Prefix} (hps : ∀ p ∈ ps, p.family = f ∧ p.masked = p) :
    (∀ line ∈ ps.map (c.returnLine side), line.effect c.name packet ≠ .leave) ↔
      ¬Covered (ps.filter fun p => !p.isMapped) (packet.address side) := by
  simp only [List.forall_mem_map, Covered, List.mem_filter, Bool.not_eq_true']
  constructor
  . rintro h ⟨p, ⟨hp, hunmapped⟩, hcovers⟩
    exact h p hp (by simp [effect_returnLine (hps p hp), hunmapped, hcovers])
  . intro h p hp
    have hpasses : ¬(p.isMapped = false ∧ p.Covers (packet.address side)) := by
      rintro ⟨hunmapped, hcovers⟩
      exact h ⟨p, ⟨hp, hunmapped⟩, hcovers⟩
    simp [effect_returnLine (hps p hp), hpasses]

theorem effect_rulesFor (hjump : c.matching.jump.effect = .decide c.matching.jump) :
    (∀ line ∈ c.rulesFor shape s d,
        line.effect c.name packet = .next ∨ line.effect c.name packet = .decide c.matching.jump)
      ∧ ((∃ line ∈ c.rulesFor shape s d, line.effect c.name packet = .decide c.matching.jump) ↔
          Passes packet (shape.clauses s d)) := by
  -- A rule and the rule that logs before it have the same clauses, and only the rule decides.
  have hlines : ∀ line ∈ c.rulesFor shape s d,
      line = .append c.name (shape.clauses s d) (some (.log c.tagged.name))
        ∨ line = .append c.name (shape.clauses s d) (some c.matching.jump) := by
    intro line hline
    unfold rulesFor at hline
    split at hline <;> simp_all
  have hrule : Line.append c.name (shape.clauses s d) (some c.matching.jump)
      ∈ c.rulesFor shape s d := by
    simp [rulesFor]
  by_cases hpasses : Passes packet (shape.clauses s d)
  . simp only [hpasses, iff_true]
    constructor
    . intro line hline
      cases hlines line hline with
      | inl h => simp [h, Line.effect_append_of_passes hpasses, Jump.effect]
      | inr h => simp [h, Line.effect_append_of_passes hpasses, hjump]
    . exact ⟨_, hrule, by rw [Line.effect_append_of_passes hpasses, hjump]⟩
  . have hnext : ∀ line ∈ c.rulesFor shape s d, line.effect c.name packet = .next := by
      intro line hline
      cases hlines line hline with
      | inl h => rw [h, Line.effect_append_of_not_passes hpasses]
      | inr h => rw [h, Line.effect_append_of_not_passes hpasses]
    refine ⟨fun line hline => .inl (hnext line hline), ?_⟩
    simp only [hpasses, iff_false]
    rintro ⟨line, hline, h⟩
    simp [hnext line hline] at h

theorem passes_clauses {s d : Prefix} (hs : s.family = f ∧ s.masked = s)
    (hd : d.family = f ∧ d.masked = d) :
    Passes packet (Shape.clauses shape s d) ↔
      Passes packet (shape.before ++ shape.after) ∧ (s.isMapped = false ∧ s.Covers packet.source)
        ∧ d.isMapped = false ∧ d.Covers packet.destination := by
  simp only [Shape.clauses, passes_append, passes_addressClauses hs, passes_addressClauses hd,
    Packet.address]
  constructor
  . rintro ⟨⟨⟨hbefore, hsource⟩, hdestination⟩, hafter⟩
    exact ⟨⟨hbefore, hafter⟩, hsource, hdestination⟩
  . rintro ⟨⟨hbefore, hafter⟩, hsource, hdestination⟩
    exact ⟨⟨⟨hbefore, hsource⟩, hdestination⟩, hafter⟩

theorem verdict_ruleList {s d : Encoding} (hjump : c.matching.jump.effect = .decide c.matching.jump)
    (hs : ∀ p ∈ s.includes ++ s.returns, p.family = f ∧ p.masked = p)
    (hd : ∀ p ∈ d.includes ++ d.returns, p.family = f ∧ p.masked = p) :
    verdict c.name packet (c.ruleList s d) = some c.matching.jump ↔
      s.unmapped.Matches packet.source ∧ d.unmapped.Matches packet.destination
        ∧ ∃ shape ∈ c.shapeList, Passes packet (shape.before ++ shape.after) := by
  rw [List.forall_mem_append] at hs hd
  have hreturns : ∀ line ∈ s.returns.map (c.returnLine .source)
    ++ d.returns.map (c.returnLine .destination),
      line.effect c.name packet = .next ∨ line.effect c.name packet = .leave := by
    intro line hline
    have heffect : ∃ side p, (p.family = f ∧ p.masked = p) ∧ line = c.returnLine side p := by
      cases List.mem_append.mp hline with
      | inl hline =>
        obtain ⟨p, hp, rfl⟩ := List.mem_map.mp hline
        exact ⟨.source, p, hs.2 p hp, rfl⟩
      | inr hline =>
        obtain ⟨p, hp, rfl⟩ := List.mem_map.mp hline
        exact ⟨.destination, p, hd.2 p hp, rfl⟩
    obtain ⟨side, p, hp, rfl⟩ := heffect
    rw [effect_returnLine hp]
    split <;> simp
  have hunmapped {ps : List Prefix} {p : Prefix} :
      p ∈ ps.filter (fun p => !p.isMapped) ↔ p ∈ ps ∧ p.isMapped = false := by simp
  unfold ruleList ruleLines
  rw [verdict_append_of_leave hreturns, List.forall_mem_append, forall_returnLine hs.2,
    forall_returnLine hd.2, verdict_eq_some_iff]
  . -- Behind the returns, some rule matches if both addresses and one of the shapes do.
    simp only [exists_mem_flatMap, (effect_rulesFor hjump).2]
    constructor
    . rintro ⟨⟨hsreturn, hdreturn⟩, shape, hshape, p, hp, q, hq, hpasses⟩
      obtain ⟨hrest, ⟨hpunmapped, hsource⟩, hqunmapped, hdestination⟩ :=
        (passes_clauses (hs.1 p hp) (hd.1 q hq)).mp hpasses
      exact ⟨⟨hsreturn, p, hunmapped.mpr ⟨hp, hpunmapped⟩, hsource⟩,
        ⟨hdreturn, q, hunmapped.mpr ⟨hq, hqunmapped⟩, hdestination⟩, shape, hshape, hrest⟩
    . rintro ⟨⟨hsreturn, p, hp, hsource⟩, ⟨hdreturn, q, hq, hdestination⟩, shape, hshape, hrest⟩
      obtain ⟨hp, hpunmapped⟩ := hunmapped.mp hp
      obtain ⟨hq, hqunmapped⟩ := hunmapped.mp hq
      refine ⟨⟨hsreturn, hdreturn⟩, shape, hshape, p, hp, q, hq, ?_⟩
      exact (passes_clauses (hs.1 p hp) (hd.1 q hq)).mpr
        ⟨hrest, ⟨hpunmapped, hsource⟩, hqunmapped, hdestination⟩
  . intro line hline
    simp only [List.mem_flatMap] at hline
    obtain ⟨shape, _, p, _, q, _, hline⟩ := hline
    exact (effect_rulesFor hjump).1 line hline

theorem verdict_lines_of_rules (hplan : c.plan = .rules s d) :
    verdict c.name packet (c.lineList parent) = verdict c.name packet (c.ruleList s d) := by
  unfold lineList
  rw [hplan]
  apply verdict_append_of_next
  -- The lines in front declare the chain, link it and hold its comments.
  intro line hline
  simp only [List.mem_append, List.mem_cons, List.not_mem_nil, or_false, List.mem_map] at hline
  obtain (rfl | rfl) | ⟨text, _, rfl⟩ := hline
  . rfl
  . simp [Line.effect, Jump.effect]
  . rfl

theorem verdict_lines (hf : c.family = f)
    (hjump : c.matching.jump.effect = .decide c.matching.jump) :
    verdict c.name packet (c.lineList parent) = some c.matching.jump ↔
      c.plan.unmapped.Matches .source packet.source
        ∧ c.plan.unmapped.Matches .destination packet.destination
        ∧ ∃ shape ∈ c.shapeList, Passes packet (shape.before ++ shape.after) := by
  subst hf
  have hprefixes : ∀ side, ∀ p ∈ c.plan.prefixes side, p.family = c.family ∧ p.masked = p :=
    fun side p => Plan.masked_of_mem_prefixes
  cases hplan : c.plan with
  | empty side => simp [lineList, hplan, verdict, Plan.unmapped, Plan.Matches]
  | rules s d =>
    rw [hplan] at hprefixes
    rw [verdict_lines_of_rules hplan,
      verdict_ruleList hjump (hprefixes .source) (hprefixes .destination)]
    rfl

end Chain

theorem effect_of_target (h : target? f action = some j)
    (haction : action = .accept ∨ action = .deny ∨ action = .reject
      ∨ action = .rejectWithTcpReset) :
    j.effect = .decide j := by
  obtain rfl | rfl | rfl | rfl := haction <;> cases f <;> cases h <;> rfl

/--
The chain of a term takes the action of the term on the packets that the term selects, and on no
others, unless a prefix that stands for IPv4 has an address of the packet: no rule matches by such a
prefix.
-/
theorem Block.verdict_lines_iff_selects (hverbatim : t.isVerbatim = false)
    (h : Block.ofTerm filter f stateful shortening t = .ok b)
    (haction : t.action = .accept ∨ t.action = .deny ∨ t.action = .reject
      ∨ t.action = .rejectWithTcpReset)
    (hterm : Coherent t) (parent : String) (packet : Packet f) :
    ∃ ls, b.lines parent = .ok ls
      ∧ (verdict b.chainName packet ls = target? f t.action ↔
          (Plan.ofRequest f t.request).unmapped.Matches .source packet.source
            ∧ (Plan.ofRequest f t.request).unmapped.Matches .destination packet.destination
            ∧ ∃ protocol, (protocol ∈ t.protocol ∨ t.protocol = [] ∧ protocol = "")
                ∧ Admits t stateful packet protocol)
      ∧ ((∀ side, ∀ p ∈ (Plan.ofRequest f t.request).prefixes side, p.isMapped = true →
            ¬p.Covers (packet.address side)) →
          (verdict b.chainName packet ls = target? f t.action ↔ Selects t stateful packet)) := by
  obtain ⟨c, rfl, hrenders⟩ := exists_renders_of_ofTerm hverbatim h
  have hjump := effect_of_target hrenders.accepts.jump haction
  have hverdict : verdict c.name packet (c.lineList parent) = _ ↔ _ :=
    Chain.verdict_lines hrenders.family_eq hjump
  rw [Chain.exists_shape_iff hrenders hterm, Chain.plan, hrenders.family_eq,
    hrenders.term_eq] at hverdict
  rw [hrenders.accepts.jump]
  refine ⟨_, c.lines_eq parent, hverdict, fun hmapped => hverdict.trans ?_⟩
  have hsource : _ ↔ (Plan.ofRequest f t.request).Matches .source packet.source :=
    Plan.matches_unmapped (hmapped .source)
  have hdestination : _ ↔ (Plan.ofRequest f t.request).Matches .destination packet.destination :=
    Plan.matches_unmapped (hmapped .destination)
  unfold Selects
  rw [hsource, hdestination, ← and_assoc, Plan.matches_ofRequest, and_assoc]

def proxyReplies : Term where
  name := "proxy-replies"
  protocol := ["udp", "tcp"]
  sourceAddress := some [.ofNat .v4 0x0A000000 8]
  sourceExclude := some [.ofNat .v4 0x0A010000 16]
  sourcePort := [.ofNat 80 80, .ofNat 443 443]
  option := ["tcp-established"]
  action := .accept
  logging := true
  packetLength := "40-1500"

def proxyReply : Packet .v4 where
  source := 0x0A020304
  destination := 0xC0000201
  isProtocol := fun name => name == "tcp"
  port := fun
    | .source => some 443
    | .destination => some 50000
  flag := fun bit => bit == .ack
  icmpType := none
  length := 60
  headerWord := fun _ => 0
  tracking := .untracked
  arrivesBy := fun _ => false
  leavesBy := fun _ => false

theorem selects_proxyReply : Selects proxyReplies false proxyReply := by
  refine ⟨⟨?_, by decide⟩, ⟨trivial, by decide⟩, "tcp", .inl (by decide), ?_⟩
  . show Prefix.Covered [.ofNat .v4 0x0A000000 8] proxyReply.source
    decide
  . constructor
    case carries => simp [Packet.Carries, proxyReply]
    case sourcePort => exact fun _ => ⟨443, rfl, .ofNat 443 443, by decide, rfl⟩
    case highPort => exact fun _ _ _ _ => ⟨50000, rfl, .ofNat 1024 65535, by decide, rfl⟩
    case continues => exact fun _ _ _ => .inl rfl
    case length => exact fun _ => ⟨.ofNat 40 1500, by decide +kernel, rfl⟩
    case flags => decide
    all_goals simp [proxyReplies, Term.hasOption]

theorem accepts_proxyReplies :
    Matching.Accepts .v4 false proxyReplies
      { jump := .accept, established := true, length := some (.ofNat 40 1500) } where
  protocolExcept := rfl
  keywords := by simp [Term.optionalKeywords, proxyReplies, supportedKeywords]
  jump := rfl
  options := by decide
  flags := by simp [Matching.flagsOf, proxyReplies, TcpFlag.ofOption?]
  established := rfl
  length := rfl
  fragmentOffset := rfl
  stateless := fun _ _ =>
    ⟨by simp [proxyReplies], rfl, by simp [Matching.flagsOf, proxyReplies, TcpFlag.ofOption?]⟩

def proxyChain : Chain where
  term := proxyReplies
  family := .v4
  stateful := false
  matching := { jump := .accept, established := true, length := some (.ofNat 40 1500) }
  codes := []
  tagged := TaggedName.ofFilter "edge" "proxy-replies"

theorem ofTerm_proxyReplies :
    Block.ofTerm "edge" .v4 false {} proxyReplies = .ok (.chain proxyChain) := by
  apply bind_eq_ok.mpr
  refine ⟨_, (Matching.ofTerm_eq_ok rfl).mpr accepts_proxyReplies, (Block.finish_eq_ok rfl).mpr ?_⟩
  exact ⟨[], "proxy-replies", rfl, rfl, rfl⟩

theorem verdict_proxyReply :
    ∃ b ls, Block.ofTerm "edge" .v4 false {} proxyReplies = .ok b ∧ b.lines "INPUT" = .ok ls
      ∧ verdict b.chainName proxyReply ls = some .accept := by
  have hm := (Matching.ofTerm_eq_ok rfl).mpr accepts_proxyReplies
  obtain ⟨b, hb⟩ : ∃ b, Block.ofTerm "edge" .v4 false {} proxyReplies = .ok b :=
    ⟨_, bind_eq_ok.mpr ⟨_, hm, (Block.finish_eq_ok rfl).mpr ⟨[], "proxy-replies", rfl, rfl, rfl⟩⟩⟩
  have hterm : Coherent proxyReplies := ⟨by decide, by decide⟩
  -- Prefixes of IPv4 do not stand for others.
  have hunmapped : ∀ side, ∀ p ∈ (Plan.ofRequest .v4 proxyReplies.request).prefixes side,
    p.isMapped = true →
      ¬p.Covers (proxyReply.address side) := by
    intro side p hp hmapped
    have hfamily := (Plan.masked_of_mem_prefixes hp).1
    simp [(Prefix.isMapped_eq_true.mp hmapped).1] at hfamily
  obtain ⟨ls, hls, _, hverdict⟩ :=
    Block.verdict_lines_iff_selects rfl hb (.inl rfl) hterm "INPUT" proxyReply
  exact ⟨b, ls, hb, hls, (hverdict hunmapped).mpr selects_proxyReply⟩

/--
The halves of the prefix `::fffe:0:0/95`. The upper one stands for IPv4.
-/
def lowerHalf : Prefix := .ofNat .v6 0xFFFE00000000 96

def upperHalf : Prefix := .ofNat .v6 0xFFFF00000000 96

def halfTerm (excluded : Prefix) : Term where
  name := "half"
  sourceAddress := some [.ofNat .v6 0xFFFE00000000 95]
  sourceExclude := some [excluded]
  action := .accept

def mappedHello : Packet .v6 where
  source := 0xFFFF0A010203
  destination := 1
  isProtocol := fun name => name == "tcp"
  port := fun _ => some 22
  flag := fun bit => bit == .syn
  icmpType := none
  length := 60
  headerWord := fun _ => 0
  tracking := .new
  arrivesBy := fun _ => false
  leavesBy := fun _ => false

theorem selects_mappedHello : Selects (halfTerm lowerHalf) true mappedHello := by
  refine ⟨⟨?_, ?_⟩, ⟨trivial, ?_⟩, "", .inr ⟨rfl, rfl⟩, ?_⟩
  . show Prefix.Covered [.ofNat .v6 0xFFFE00000000 95] mappedHello.source
    decide
  . show ¬Prefix.Covered [lowerHalf] mappedHello.source
    decide
  . show ¬Prefix.Covered [] mappedHello.destination
    decide
  . constructor
    case carries => simp [Packet.Carries]
    case tracked => exact fun _ _ => .inr (.inr rfl)
    case flags => simp [halfTerm]
    all_goals simp [halfTerm, Term.hasOption, Matching.isEstablished]

/--
The packet comes from an address that the term asks for, but the rule is written for IPv4.
-/
theorem verdict_lost_upperHalf :
    ∃ b ls, Block.ofTerm "INPUT" .v6 true {} (halfTerm lowerHalf) = .ok b
      ∧ Selects (halfTerm lowerHalf) true mappedHello ∧ b.lines "INPUT" = .ok ls
      ∧ ls.map Line.text = ["-N I_half", "-A INPUT -j I_half",
          "-A I_half -s 0.0.0.0/0 -m state --state NEW,ESTABLISHED,RELATED -j ACCEPT"]
      ∧ verdict b.chainName mappedHello ls = none := by
  have hb : (Block.ofTerm "INPUT" .v6 true {} (halfTerm lowerHalf)).toOption.any (fun b =>
      (b.lines "INPUT").toOption.any fun ls =>
        decide (ls.map Line.text = ["-N I_half", "-A INPUT -j I_half",
          "-A I_half -s 0.0.0.0/0 -m state --state NEW,ESTABLISHED,RELATED -j ACCEPT"]
        ∧ verdict b.chainName mappedHello ls = none)) = true := by decide +kernel
  obtain ⟨b, hb, hlines⟩ := exists_ok_of_any hb
  obtain ⟨ls, hls, hlines⟩ := exists_ok_of_any hlines
  obtain ⟨htext, hverdict⟩ := of_decide_eq_true hlines
  exact ⟨b, ls, hb, selects_mappedHello, hls, htext, hverdict⟩

end Iptables
end PacketPolicy
