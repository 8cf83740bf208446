import Mathlib.Data.List.TakeWhile
import PacketPolicy.Policy.Reader
import PacketPolicy.Proofs.Definitions.Reach

namespace PacketPolicy

namespace PortRange

theorem mergeFrom_ne_nil (last : PortRange) (rs : List PortRange) : mergeFrom last rs ≠ [] := by
  fun_induction mergeFrom last rs with
  | case1 last => simp
  | case2 last r rs h ih => exact ih
  | case3 last r rs h ih => simp

theorem collapse_eq_nil : collapse rs = [] ↔ rs = [] := by
  have hsort : rs.mergeSort before = [] ↔ rs = [] := by
    rw [← List.length_eq_zero_iff, List.length_mergeSort, List.length_eq_zero_iff]
  unfold collapse
  split
  . next h => simp [← hsort, h]
  . next h => simp [← hsort, h, mergeFrom_ne_nil]

end PortRange

namespace Definitions

def NamesProtocol (value protocol : String) : Prop :=
  ∃ ports, value = ports ++ "/" ++ protocol ∧ '/' ∉ protocol.toList

def Serves (d : Definitions) (name protocol : String) : Prop :=
  ∃ owner value, Reaches d.services name owner value ∧ NamesProtocol value protocol

theorem suffix_eq_iff {value protocol : String} (h : '/' ∈ value.toList) :
    String.ofList (value.toList.reverse.takeWhile (· != '/')).reverse = protocol ↔
      NamesProtocol value protocol := by
  constructor
  . intro hsuffix
    -- What follows the characters before the first slash starts with that slash.
    obtain ⟨rest, hrest⟩ : ∃ rest, value.toList.reverse.dropWhile (· != '/') = '/' :: rest := by
      cases hdrop : value.toList.reverse.dropWhile (· != '/') with
      | nil =>
        have := List.dropWhile_eq_nil_iff.mp hdrop '/' (by simpa using h)
        simp at this
      | cons c rest =>
        have := List.head?_dropWhile_not (· != '/') value.toList.reverse
        simp [hdrop] at this
        exact ⟨rest, by rw [this]⟩
    have hvalue : value.toList = rest.reverse ++ '/' :: protocol.toList := by
      have happend := List.takeWhile_append_dropWhile (p := (· != '/')) (l := value.toList.reverse)
      rw [hrest] at happend
      calc value.toList
        _ = value.toList.reverse.reverse := by simp
        _ = (value.toList.reverse.takeWhile (· != '/') ++ '/' :: rest).reverse := by rw [happend]
        _ = rest.reverse ++ '/' :: protocol.toList := by simp [← hsuffix]
    refine ⟨String.ofList rest.reverse, ?_, ?_⟩
    . apply String.toList_injective
      simp [hvalue]
    . rw [← hsuffix]
      intro hmem
      have := List.mem_takeWhile_imp (by simpa using hmem)
      simp at this
  . rintro ⟨ports, hvalue, hnone⟩
    have hbefore : ∀ c ∈ protocol.toList.reverse, (c != '/') = true := by
      intro c hc
      have : c ≠ '/' := fun heq => hnone (heq ▸ List.mem_reverse.mp hc)
      simpa using this
    have hreverse : value.toList.reverse
        = protocol.toList.reverse ++ '/' :: ports.toList.reverse := by
      simp [hvalue]
    rw [hreverse, List.takeWhile_append_of_pos hbefore]
    simp

theorem readPorts_ne_nil_iff (h : readPorts protocol owner value = .ok rs) :
    rs ≠ [] ↔ NamesProtocol value protocol := by
  unfold readPorts at h
  dsimp only at h
  split at h
  . simp at h
  . next hslash =>
    have hslash : '/' ∈ value.toList := by simpa using hslash
    rw [← suffix_eq_iff hslash]
    split at h
    . next hother =>
      cases h
      simpa using hother
    . next hsame =>
      split at h
      . cases h
        simpa using hsame
      . simp at h

theorem ports_ne_nil_iff {d : Definitions} (h : d.ports name protocol = .ok rs) :
    rs ≠ [] ↔ d.Serves name protocol := by
  constructor
  . intro hne
    obtain ⟨r, hr⟩ := List.exists_mem_of_ne_nil rs hne
    obtain ⟨owner, value, list, hreaches, hread, hr⟩ := exists_reaches_of_mem h hr
    exact ⟨owner, value, hreaches, (readPorts_ne_nil_iff hread).mp (List.ne_nil_of_mem hr)⟩
  . rintro ⟨owner, value, hreaches, hnames⟩
    obtain ⟨list, hread, hsub⟩ := exists_read_of_reaches hreaches h
    obtain ⟨r, hr⟩ := List.exists_mem_of_ne_nil list ((readPorts_ne_nil_iff hread).mpr hnames)
    exact List.ne_nil_of_mem (hsub r hr)

end Definitions

namespace Draft

theorem resolvePorts_ne_nil_iff {d : Definitions} (h : resolvePorts d names protocols = .ok rs) :
    rs ≠ [] ↔ ∃ name ∈ names, ∃ p ∈ protocols, d.Serves name p := by
  unfold resolvePorts at h
  split at h
  . simp_all
  . split at h
    . next lists hlists =>
      cases h
      have hmem : ∀ {name p}, (name, p)
        ∈ protocols.flatMap (fun p => names.map fun name => (name, p)) ↔
          name ∈ names ∧ p ∈ protocols := by
        intro name p
        simp only [List.mem_flatMap, List.mem_map, Prod.mk.injEq]
        constructor
        . rintro ⟨_, hp, _, hname, rfl, rfl⟩
          exact ⟨hname, hp⟩
        . rintro ⟨hname, hp⟩
          exact ⟨p, hp, name, hname, rfl, rfl⟩
      rw [Ne, PortRange.collapse_eq_nil, List.flatten_eq_nil_iff]
      constructor
      . intro hne
        obtain ⟨list, hlist, hne⟩ : ∃ list ∈ lists, list ≠ [] := by simpa using hne
        obtain ⟨⟨name, p⟩, hpair, hports⟩ := (mem_of_mapM_eq_ok hlists).mp hlist
        exact ⟨name, (hmem.mp hpair).1, p, (hmem.mp hpair).2,
          (Definitions.ports_ne_nil_iff hports).mp hne⟩
      . rintro ⟨name, hname, p, hp, hserves⟩ hnil
        obtain ⟨list, hlist, hports⟩ := exists_of_mapM_eq_ok hlists (hmem.mpr ⟨hname, hp⟩)
        exact (Definitions.ports_ne_nil_iff hports).mpr hserves (hnil list hlist)
    . simp at h

structure Term.Resolves (d : Definitions) (t : Term) (t' : PacketPolicy.Term) : Prop where
  named : t.name ≠ ""
  action : checkAction t = .ok t'.action
  expiration : readExpiration t.expiration = .ok t'.expiration
  sourceAddress : resolveAddresses d t.sourceAddress = .ok t'.sourceAddress
  sourceExclude : resolveAddresses d t.sourceExclude = .ok t'.sourceExclude
  destinationAddress : resolveAddresses d t.destinationAddress = .ok t'.destinationAddress
  destinationExclude : resolveAddresses d t.destinationExclude = .ok t'.destinationExclude
  protocolGiven : t.sourcePort ≠ [] ∨ t.destinationPort ≠ [] → t.protocol ≠ []
  sourcePort : resolvePorts d t.sourcePort t.protocol = .ok t'.sourcePort
  destinationPort : resolvePorts d t.destinationPort t.protocol = .ok t'.destinationPort
  others : t' = { t' with
    name := t.name
    protocol := t.protocol
    protocolExcept := t.protocolExcept
    option := t.option
    icmpType := t.icmpType
    logging := t.logs
    owner := t.owner
    comment := t.comment
    verbatim := t.verbatim.map fun v => ⟨v.platform, v.text⟩
    sourceInterface := t.sourceInterface
    destinationInterface := t.destinationInterface
    packetLength := t.packetLength
    fragmentOffset := t.fragmentOffset
    etherType := t.etherType
    platform := t.platform
    platformExclude := t.platformExclude
    extensions := t.extensions }

theorem Term.resolve_eq_ok {t : Term} : t.resolve d = .ok t' ↔ t.Resolves d t' := by
  have hguard : ((!t.sourcePort.isEmpty || !t.destinationPort.isEmpty) && t.protocol.isEmpty)
    = true ↔
      ¬(t.sourcePort ≠ [] ∨ t.destinationPort ≠ [] → t.protocol ≠ []) := by
    cases t.sourcePort <;> cases t.destinationPort <;> cases t.protocol <;> simp
  constructor
  . intro h
    unfold Term.resolve at h
    dsimp only at h
    split at h
    . exact absurd h throw_bind_ne_ok
    . next hname =>
      simp only [bind_eq_ok] at h
      obtain ⟨action, haction, expiration, hexpiration, sourceAddress, hsourceAddress,
          sourceExclude, hsourceExclude, destinationAddress, hdestinationAddress,
          destinationExclude, hdestinationExclude, h⟩ :=
        h
      split at h
      . exact absurd h throw_bind_ne_ok
      . next hprotocol =>
        obtain ⟨sourcePort, hsourcePort, h⟩ := bind_eq_ok.mp h
        obtain ⟨destinationPort, hdestinationPort, h⟩ := bind_eq_ok.mp h
        obtain rfl := pure_eq_ok.mp h
        exact ⟨by simpa using hname, haction, hexpiration, hsourceAddress, hsourceExclude,
          hdestinationAddress, hdestinationExclude,
          by simpa only [hguard, Decidable.not_not] using hprotocol, hsourcePort,
          hdestinationPort, rfl⟩
  . intro h
    have hprotocol := mt hguard.mp (Decidable.not_not.mpr h.protocolGiven)
    unfold Term.resolve
    dsimp only
    rw [if_neg (by simpa using h.named)]
    simp only [bind_eq_ok]
    refine ⟨_, h.action, _, h.expiration, _, h.sourceAddress, _, h.sourceExclude, _,
      h.destinationAddress, _, h.destinationExclude, ?_⟩
    rw [if_neg hprotocol]
    exact bind_eq_ok.mpr ⟨_, h.sourcePort,
      bind_eq_ok.mpr ⟨_, h.destinationPort, pure_eq_ok.mpr h.others.symm⟩⟩

/--
A port restriction survives if one of its services is defined for one of the protocols of the term.
It is lost, without an error, if none is.
-/
theorem Term.resolve_keeps_ports_iff_served {t : Term} (h : t.resolve d = .ok t') :
    (t'.sourcePort ≠ [] ↔ ∃ name ∈ t.sourcePort, ∃ p ∈ t.protocol, d.Serves name p)
      ∧ (t'.destinationPort ≠ [] ↔
        ∃ name ∈ t.destinationPort, ∃ p ∈ t.protocol, d.Serves name p) := by
  have hresolves := resolve_eq_ok.mp h
  exact ⟨resolvePorts_ne_nil_iff hresolves.sourcePort,
    resolvePorts_ne_nil_iff hresolves.destinationPort⟩

def webServices : Definitions where
  services := [("WEB", ["HTTP", "443/tcp # encrypted"]), ("HTTP", ["80/tcp"])]

def webTerm (protocol : String) : Term where
  name := "web"
  protocol := [protocol]
  destinationPort := ["WEB"]
  action := "accept"

theorem ports_webServices (hhttp : Definitions.readPorts protocol "HTTP" "80/tcp" = .ok http)
    (hhttps : Definitions.readPorts protocol "WEB" "443/tcp" = .ok https) :
    webServices.ports "WEB" protocol = .ok (http ++ https) := by
  have hstrip : Definitions.strip "HTTP" = "HTTP" ∧ Definitions.strip "80/tcp" = "80/tcp"
      ∧ Definitions.strip "443/tcp # encrypted" = "443/tcp" := by
    exact ⟨rfl, rfl, rfl⟩
  have hname : Definitions.flatten .service webServices.services (Definitions.readPorts protocol)
    ["WEB"] "HTTP"
      = .ok http := by
    refine Definitions.flatten_eq_ok.mpr ⟨["80/tcp"], rfl, by decide, ?_⟩
    refine Definitions.flattenValues_eq_ok.mpr
      ⟨[http], mapM_cons_eq_ok.mpr ⟨_, _, ?_, rfl, rfl⟩, by simp⟩
    simp [Definitions.flattenValue, hstrip, webServices, List.lookup_cons, hhttp]
  refine Definitions.flatten_eq_ok.mpr ⟨["HTTP", "443/tcp # encrypted"], rfl, by decide, ?_⟩
  refine Definitions.flattenValues_eq_ok.mpr ⟨[http, https],
    mapM_cons_eq_ok.mpr ⟨_, _, ?_, mapM_cons_eq_ok.mpr ⟨_, _, ?_, rfl, rfl⟩, rfl⟩, by simp⟩
  . have hlookup : (webServices.services.lookup "HTTP").isSome = true := rfl
    simp [Definitions.flattenValue, hstrip, hlookup, hname]
  . simp [Definitions.flattenValue, hstrip, webServices, List.lookup_cons, hhttps]

theorem exists_resolve_webTerm (h : webServices.ports "WEB" protocol = .ok rs) :
    ∃ t', (webTerm protocol).resolve webServices = .ok t'
      ∧ t'.destinationPort = PortRange.collapse rs := by
  have hports : resolvePorts webServices ["WEB"] [protocol] = .ok (PortRange.collapse rs) := by
    simp [resolvePorts, h]
  exact ⟨{
    name := "web"
    protocol := [protocol]
    destinationPort := PortRange.collapse rs
    action := .accept
    logging := (webTerm protocol).logs }, Term.resolve_eq_ok.mpr {
      named := by simp [webTerm]
      action := rfl
      expiration := rfl
      sourceAddress := rfl
      sourceExclude := rfl
      destinationAddress := rfl
      destinationExclude := rfl
      protocolGiven := by simp [webTerm]
      sourcePort := rfl
      destinationPort := hports
      others := rfl }, rfl⟩

theorem resolve_webTerm_tcp :
    ∃ t', (webTerm "tcp").resolve webServices = .ok t' ∧ t'.destinationPort ≠ [] := by
  have hhttp : Definitions.readPorts "tcp" "HTTP" "80/tcp" = .ok [⟨80, 80⟩] := rfl
  have hhttps : Definitions.readPorts "tcp" "WEB" "443/tcp" = .ok [⟨443, 443⟩] := rfl
  have hports := ports_webServices hhttp hhttps
  obtain ⟨t', ht', _⟩ := exists_resolve_webTerm hports
  refine ⟨t', ht', (Term.resolve_keeps_ports_iff_served ht').2.mpr
    ⟨"WEB", by decide, "tcp", by decide, ?_⟩⟩
  exact (Definitions.ports_ne_nil_iff hports).mp (by simp)

/--
A term for other protocols than those of its services is left without any restriction of its ports.
-/
theorem resolve_webTerm_udp :
    ∃ t', (webTerm "udp").resolve webServices = .ok t' ∧ t'.destinationPort = [] := by
  have hhttp : Definitions.readPorts "udp" "HTTP" "80/tcp" = .ok [] := rfl
  have hhttps : Definitions.readPorts "udp" "WEB" "443/tcp" = .ok [] := rfl
  obtain ⟨t', ht', hports⟩ := exists_resolve_webTerm (ports_webServices hhttp hhttps)
  exact ⟨t', ht', by rw [hports, PortRange.collapse_eq_nil]; rfl⟩

end Draft
end PacketPolicy
