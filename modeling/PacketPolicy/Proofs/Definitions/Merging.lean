import Mathlib.Data.List.Nodup
import Mathlib.Data.List.Perm.Basic
import PacketPolicy.Definitions.Reader
import PacketPolicy.Proofs.Definitions.Reach

namespace PacketPolicy
namespace Definitions

section Table

variable {table table' entries : Table}

def names (table : Table) : List String :=
  table.map (·.1)

theorem names_append : names (table ++ entries) = names table ++ names entries := by
  apply List.map_append

theorem isSome_lookup_iff : (table.lookup name).isSome = true ↔ name ∈ names table := by
  rw [List.lookup_isSome_iff, names, List.mem_map]
  simp only [beq_iff_eq, @eq_comm _ name]

theorem addTo_eq_none_iff (kind : NameKind) (h : (names table).Nodup) :
    (addTo kind table entries).2 = none ↔ (names (table ++ entries)).Nodup := by
  induction entries generalizing table with
  | nil => simpa [addTo] using h
  | cons entry entries ih =>
    obtain ⟨name, values⟩ := entry
    rw [addTo]
    split
    . -- The name occurs on both sides of the point that is reached.
      next hdefined =>
      rw [isSome_lookup_iff] at hdefined
      simp only [reduceCtorEq, false_iff]
      intro hnodup
      rw [names_append, List.nodup_append] at hnodup
      apply hnodup.2.2 name hdefined name List.mem_cons_self rfl
    . next hnew =>
      rw [isSome_lookup_iff] at hnew
      rw [ih, List.append_assoc, List.singleton_append]
      rw [names_append, List.nodup_append]
      refine ⟨h, by simp [names], ?_⟩
      intro a ha b hb
      rw [List.mem_singleton.mp hb]
      apply ne_of_mem_of_not_mem ha hnew

theorem addTo_of_none (h : (addTo kind table entries).2 = none) :
    (addTo kind table entries).1 = table ++ entries := by
  induction entries generalizing table with
  | nil => simp [addTo]
  | cons entry entries ih =>
    obtain ⟨name, values⟩ := entry
    rw [addTo] at h ⊢
    split at h
    . cases h
    . next hnew => rw [if_neg hnew, ih h, List.append_assoc, List.singleton_append]

theorem exists_addTo_eq_append (kind : NameKind) (table entries : Table) :
    ∃ added, (addTo kind table entries).1 = table ++ added := by
  induction entries generalizing table with
  | nil => exact ⟨[], by simp [addTo]⟩
  | cons entry entries ih =>
    obtain ⟨name, values⟩ := entry
    rw [addTo]
    split
    . exact ⟨[], by simp⟩
    . obtain ⟨added, hadded⟩ := ih (table ++ [(name, values)])
      exact ⟨(name, values) :: added, by rw [hadded, List.append_assoc, List.singleton_append]⟩

theorem lookup_addTo (kind : NameKind) (entries : Table) (h : table.lookup name = some values) :
    (addTo kind table entries).1.lookup name = some values := by
  obtain ⟨added, hadded⟩ := exists_addTo_eq_append kind table entries
  rw [hadded, List.lookup_append, h, Option.some_or]

theorem lookup_eq_of_perm (h : table.Perm table') (hnodup : (names table).Nodup) (name : String) :
    table.lookup name = table'.lookup name := by
  induction h with
  | nil => rfl
  | cons entry _ ih =>
    rw [names, List.map_cons, List.nodup_cons] at hnodup
    rw [List.lookup_cons, List.lookup_cons, ih hnodup.2]
  | swap entry entry' rest =>
    have hne : entry.1 ≠ entry'.1 := by
      intro heq
      simp [names, heq] at hnodup
    grind
  | trans hfirst _ ih ih' => rw [ih hnodup, ih' ((hfirst.map _).nodup_iff.mp hnodup)]

end Table

structure Distinct (d : Definitions) : Prop where
  networks : (names d.networks).Nodup
  services : (names d.services).Nodup

def append (d d' : Definitions) : Definitions :=
  ⟨d.networks ++ d'.networks, d.services ++ d'.services⟩

theorem merge_cases (d document : Definitions) :
    (∃ e, (addTo .network d.networks document.networks).2 = some e
        ∧ d.merge document = (⟨(addTo .network d.networks document.networks).1, d.services⟩,
          some e))
      ∨ (addTo .network d.networks document.networks).2 = none
        ∧ d.merge document
          = (⟨(addTo .network d.networks document.networks).1,
            (addTo .service d.services document.services).1⟩,
            (addTo .service d.services document.services).2) := by
  unfold merge
  generalize addTo .network d.networks document.networks = result
  obtain ⟨networks, _ | e⟩ := result
  . right
    exact ⟨rfl, rfl⟩
  . left
    exact ⟨e, rfl, rfl⟩

theorem merge_eq_none_iff {d : Definitions} (h : Distinct d) (document : Definitions) :
    (d.merge document).2 = none ↔ Distinct (d.append document) := by
  obtain ⟨e, hnetworks, hmerge⟩ | ⟨hnetworks, hmerge⟩ := merge_cases d document
  . rw [hmerge]
    simp only [reduceCtorEq, false_iff]
    intro hdistinct
    rw [(addTo_eq_none_iff .network h.networks).mpr hdistinct.networks] at hnetworks
    cases hnetworks
  . rw [hmerge, addTo_eq_none_iff .service h.services]
    constructor
    . intro hservices
      exact ⟨(addTo_eq_none_iff .network h.networks).mp hnetworks, hservices⟩
    . intro hdistinct
      apply hdistinct.services

theorem merge_of_none {d document : Definitions} (h : (d.merge document).2 = none) :
    (d.merge document).1 = d.append document := by
  obtain ⟨e, hnetworks, hmerge⟩ | ⟨hnetworks, hmerge⟩ := merge_cases d document
  . rw [hmerge] at h
    cases h
  . rw [hmerge] at h ⊢
    rw [addTo_of_none hnetworks, addTo_of_none h]
    rfl

structure Keeps (d d' : Definitions) : Prop where
  networks : ∀ name values, d.networks.lookup name = some values →
    d'.networks.lookup name = some values
  services : ∀ name values, d.services.lookup name = some values →
    d'.services.lookup name = some values

theorem keeps_merge (d document : Definitions) : Keeps d (d.merge document).1 := by
  obtain ⟨e, _, hmerge⟩ | ⟨_, hmerge⟩ := merge_cases d document
  . rw [hmerge]
    exact ⟨fun name values h => lookup_addTo .network _ h, fun name values h => h⟩
  . rw [hmerge]
    exact ⟨fun name values h => lookup_addTo .network _ h,
      fun name values h => lookup_addTo .service _ h⟩

theorem keeps_read (d : Definitions) (text : String) : Keeps d (d.read text).1 := by
  unfold read
  split
  . exact ⟨fun name values h => h, fun name values h => h⟩
  . apply keeps_merge

theorem nodup_of_distinctKeys (h : Yaml.Node.distinctKeys entries = true) :
    (entries.map (·.1)).Nodup := by
  induction entries with
  | nil => apply List.nodup_nil
  | cons entry entries ih =>
    obtain ⟨key, n⟩ := entry
    rw [Yaml.Node.distinctKeys, Bool.and_eq_true, Bool.not_eq_true', List.any_eq_false] at h
    rw [List.map_cons, List.nodup_cons, List.mem_map]
    refine ⟨?_, ih h.2⟩
    rintro ⟨other, hother, hkey⟩
    apply h.1 other hother
    apply beq_iff_eq.mpr hkey

theorem names_of_mapM {g : Yaml.Node → Except Yaml.Error (List String)}
    {entries : List (String × Yaml.Node)}
    (h : (entries.mapM fun (name, values) => do return (name, ← g values)) = .ok table) :
    names table = entries.map (·.1) := by
  induction entries generalizing table with
  | nil =>
    obtain rfl := pure_eq_ok.mp h
    rfl
  | cons entry entries ih =>
    obtain ⟨first, rest, hfirst, hrest, rfl⟩ := mapM_cons_eq_ok.mp h
    obtain ⟨values, _, hvalues⟩ := bind_eq_ok.mp hfirst
    obtain rfl := pure_eq_ok.mp hvalues
    rw [names, List.map_cons, List.map_cons, ← ih hrest]
    rfl

theorem nodup_of_tableOfNode (h : tableOfNode n = .ok table) : (names table).Nodup := by
  obtain ⟨entries, _, h⟩ := bind_eq_ok.mp h
  split at h
  . next hkeys =>
    rw [names_of_mapM h]
    apply nodup_of_distinctKeys hkeys
  . cases h

theorem distinct_of_ofNode (h : ofNode n = .ok d) : Distinct d := by
  obtain ⟨entries, _, h⟩ := bind_eq_ok.mp h
  split at h
  . cases h
  . obtain ⟨networks, hnetworks, h⟩ := bind_eq_ok.mp h
    obtain ⟨services, hservices, h⟩ := bind_eq_ok.mp h
    obtain rfl := pure_eq_ok.mp h
    beta_reduce at hnetworks hservices
    constructor
    . split at hnetworks
      . cases hnetworks
        apply List.nodup_nil
      . apply nodup_of_tableOfNode hnetworks
    . split at hservices
      . cases hservices
        apply List.nodup_nil
      . apply nodup_of_tableOfNode hservices

theorem distinct_empty : Distinct {} :=
  ⟨List.nodup_nil, List.nodup_nil⟩

theorem distinct_of_ofText (h : ofText text = .ok d) : Distinct d := by
  obtain ⟨root, _, h⟩ := bind_eq_ok.mp h
  cases root with
  | none =>
    obtain rfl := pure_eq_ok.mp h
    apply distinct_empty
  | some n => apply distinct_of_ofNode h

def readAll (d : Definitions) : List String → Definitions × Option ReadError
  | [] => (d, none)
  | text :: texts =>
    match d.read text with
    | (d, some e) => (d, some e)
    | (d, none) => readAll d texts

def joined (documents : List Definitions) : Definitions :=
  ⟨documents.flatMap (·.networks), documents.flatMap (·.services)⟩

variable {d document : Definitions} {texts : List String}

theorem append_empty (d : Definitions) : d.append {} = d := by
  simp [append]

theorem append_joined_cons :
    d.append (joined (document :: documents)) = (d.append document).append (joined documents) := by
  simp [append, joined]

theorem Distinct.of_append (h : Distinct (d.append document)) : Distinct d := by
  obtain ⟨hnetworks, hservices⟩ := h
  rw [append, names_append] at hnetworks hservices
  exact ⟨hnetworks.of_append_left, hservices.of_append_left⟩

theorem read_eq_none_iff :
    d.read text = (d', none) ↔
      ∃ document, ofText text = .ok document ∧ (d.merge document).2 = none
        ∧ d.append document = d' := by
  unfold read
  cases ofText text with
  | error e => simp
  | ok document =>
    simp only [Prod.ext_iff, Except.ok.injEq, exists_eq_left']
    constructor
    . rintro ⟨hd', hnone⟩
      exact ⟨hnone, merge_of_none hnone ▸ hd'⟩
    . rintro ⟨hnone, hd'⟩
      exact ⟨merge_of_none hnone ▸ hd', hnone⟩

theorem readAll_cons_eq_none_iff :
    d.readAll (text :: texts) = (d', none) ↔
      ∃ d₁, d.read text = (d₁, none) ∧ d₁.readAll texts = (d', none) := by
  rw [readAll]
  generalize d.read text = result
  obtain ⟨d₁, _ | e⟩ := result <;> simp

theorem readAll_eq_none_iff (h : Distinct d) :
    d.readAll texts = (d', none) ↔
      ∃ documents, texts.mapM ofText = .ok documents ∧ Distinct (d.append (joined documents))
        ∧ d.append (joined documents) = d' := by
  induction texts generalizing d with
  | nil =>
    have hnil : d.append (joined []) = d := append_empty d
    simp only [readAll, List.mapM_nil, pure_eq_ok, exists_eq_left', hnil, h, true_and,
      Prod.mk.injEq, and_true]
  | cons text texts ih =>
    simp only [readAll_cons_eq_none_iff, read_eq_none_iff, mapM_cons_eq_ok]
    constructor
    . rintro ⟨_, ⟨document, hdocument, hmerge, rfl⟩, hrest⟩
      obtain ⟨documents, hdocuments, hdistinct, rfl⟩ :=
        (ih ((merge_eq_none_iff h document).mp hmerge)).mp hrest
      rw [← append_joined_cons] at hdistinct ⊢
      exact ⟨document :: documents, ⟨document, documents, hdocument, hdocuments, rfl⟩,
        hdistinct, rfl⟩
    . rintro ⟨_, ⟨document, documents, hdocument, hdocuments, rfl⟩, hdistinct, rfl⟩
      rw [append_joined_cons] at hdistinct
      -- What stands before the other documents is free of double names, so the induction goes on
      -- from there.
      have hfirst := hdistinct.of_append
      refine ⟨_, ⟨document, hdocument, (merge_eq_none_iff h document).mpr hfirst, rfl⟩, ?_⟩
      exact (ih hfirst).mpr ⟨documents, hdocuments, hdistinct, append_joined_cons.symm⟩

theorem empty_append (d : Definitions) : append {} d = d := by
  simp [append]

structure SameEntries (d d' : Definitions) : Prop where
  networks : d.networks.Perm d'.networks
  services : d.services.Perm d'.services

theorem SameEntries.distinct (h : SameEntries d d') (hdistinct : Distinct d) : Distinct d' := by
  constructor
  . apply (h.networks.map _).nodup_iff.mp hdistinct.networks
  . apply (h.services.map _).nodup_iff.mp hdistinct.services

theorem sameEntries_joined (h : documents.Perm documents') :
    SameEntries (joined documents) (joined documents') :=
  ⟨h.flatMap_right _, h.flatMap_right _⟩

structure Apart (d d' : Definitions) : Prop where
  networks : (names d.networks).Disjoint (names d'.networks)
  services : (names d.services).Disjoint (names d'.services)

theorem distinct_joined_iff (h : ∀ document ∈ documents, Distinct document) :
    Distinct (joined documents) ↔ documents.Pairwise Apart := by
  have hnetworks : names (joined documents).networks = documents.flatMap fun d =>
      names d.networks := by
    rw [joined, names, List.map_flatMap]
    rfl
  have hservices : names (joined documents).services = documents.flatMap fun d =>
      names d.services := by
    rw [joined, names, List.map_flatMap]
    rfl
  constructor
  . rintro ⟨hn, hs⟩
    rw [hnetworks, List.nodup_flatMap] at hn
    rw [hservices, List.nodup_flatMap] at hs
    apply (hn.2.and hs.2).imp
    rintro d d' ⟨hd, hd'⟩
    exact ⟨hd, hd'⟩
  . intro hapart
    constructor
    . rw [hnetworks, List.nodup_flatMap]
      exact ⟨fun d hd => (h d hd).networks, hapart.imp Apart.networks⟩
    . rw [hservices, List.nodup_flatMap]
      exact ⟨fun d hd => (h d hd).services, hapart.imp Apart.services⟩

/--
Every name stands for the same networks and, whatever the protocol, for the same ports in both.
-/
structure Agrees (d d' : Definitions) : Prop where
  addresses : ∀ name, d.addresses name = d'.addresses name
  ports : ∀ name protocol, d.ports name protocol = d'.ports name protocol

theorem SameEntries.agrees (h : SameEntries d d') (hdistinct : Distinct d) : Agrees d d' := by
  constructor
  . intro name
    apply flatten_congr (lookup_eq_of_perm h.networks hdistinct.networks)
  . intro name protocol
    apply flatten_congr (lookup_eq_of_perm h.services hdistinct.services)

theorem ofText_eq_ok_of_any
    (h : (ofText text).toOption.any
      (fun d' => d'.networks == d.networks && d'.services == d.services) = true) :
    ofText text = .ok d := by
  obtain ⟨⟨networks, services⟩, htext, hentries⟩ := exists_ok_of_any h
  rw [Bool.and_eq_true, beq_iff_eq, beq_iff_eq] at hentries
  obtain ⟨rfl, rfl⟩ := hentries
  exact htext

theorem readAll_empty_eq_none_iff :
    readAll {} texts = (d, none) ↔
      ∃ documents, texts.mapM ofText = .ok documents ∧ Distinct (joined documents)
        ∧ joined documents = d := by
  simp only [readAll_eq_none_iff distinct_empty, empty_append]

theorem exists_readAll_of_perm (hperm : texts.Perm texts') (h : readAll {} texts = (d, none)) :
    ∃ d', readAll {} texts' = (d', none) ∧ SameEntries d d' := by
  obtain ⟨documents, hdocuments, hdistinct, rfl⟩ := readAll_empty_eq_none_iff.mp h
  obtain ⟨documents', hdocuments', hperm⟩ := exists_mapM_of_perm hperm hdocuments
  have hsame := sameEntries_joined hperm
  exact ⟨_, readAll_empty_eq_none_iff.mpr ⟨documents', hdocuments', hsame.distinct hdistinct, rfl⟩,
    hsame⟩

theorem distinct_of_readAll (h : readAll {} texts = (d, none)) : Distinct d := by
  obtain ⟨documents, _, hdistinct, rfl⟩ := readAll_empty_eq_none_iff.mp h
  exact hdistinct

theorem exists_readAll_iff_apart :
    (∃ d, readAll {} texts = (d, none)) ↔
      ∃ documents, texts.mapM ofText = .ok documents ∧ documents.Pairwise Apart := by
  have hiff : ∀ {documents}, texts.mapM ofText = .ok documents →
      (Distinct (joined documents) ↔ documents.Pairwise Apart) := by
    intro documents hdocuments
    apply distinct_joined_iff
    intro document hmem
    obtain ⟨text, _, htext⟩ := (mem_of_mapM_eq_ok hdocuments).mp hmem
    apply distinct_of_ofText htext
  simp only [readAll_empty_eq_none_iff]
  constructor
  . rintro ⟨_, documents, hdocuments, hdistinct, _⟩
    exact ⟨documents, hdocuments, (hiff hdocuments).mp hdistinct⟩
  . rintro ⟨documents, hdocuments, hapart⟩
    exact ⟨_, documents, hdocuments, (hiff hdocuments).mpr hapart, rfl⟩

theorem merge_empty_of_distinct (h : Distinct d) : merge {} d = (d, none) := by
  have hnone : (merge {} d).2 = none := by
    rwa [merge_eq_none_iff distinct_empty, empty_append]
  rw [← hnone]
  apply Prod.ext
  . rw [merge_of_none hnone, empty_append]
  . rfl

/--
Definitions may be split into documents in any way and read in any order.
-/
theorem readAll_independent_of_split (texts : List String) :
    ((∃ d, readAll {} texts = (d, none)) ↔
        ∃ documents, texts.mapM ofText = .ok documents ∧ documents.Pairwise Apart)
      ∧ (∀ texts', texts.Perm texts' →
          ((∃ d, readAll {} texts = (d, none)) ↔ ∃ d', readAll {} texts' = (d', none)))
      ∧ (∀ d, readAll {} texts = (d, none) →
          (∀ texts' d', texts.Perm texts' → readAll {} texts' = (d', none) → Agrees d d')
            ∧ ∀ documents whole, texts.mapM ofText = .ok documents →
              SameEntries (joined documents) whole →
                merge {} whole = (whole, none) ∧ Agrees d whole
                  ∧ ∀ text, ofText text = .ok whole → read {} text = (whole, none))
      ∧ ∀ d text, Keeps d (read d text).1 := by
  refine ⟨exists_readAll_iff_apart, ?_, ?_, keeps_read⟩
  . intro texts' hperm
    constructor
    . rintro ⟨d, h⟩
      obtain ⟨d', h', _⟩ := exists_readAll_of_perm hperm h
      exact ⟨d', h'⟩
    . rintro ⟨d', h'⟩
      obtain ⟨d, h, _⟩ := exists_readAll_of_perm hperm.symm h'
      exact ⟨d, h⟩
  . intro d h
    have hdistinct := distinct_of_readAll h
    constructor
    . intro texts' d' hperm h'
      obtain ⟨d'', h'', hsame⟩ := exists_readAll_of_perm hperm h
      obtain ⟨rfl, _⟩ := Prod.mk.inj (h'.symm.trans h'')
      apply hsame.agrees hdistinct
    . intro documents whole hdocuments hsame
      obtain ⟨documents', hdocuments', _, rfl⟩ := readAll_empty_eq_none_iff.mp h
      obtain rfl := Except.ok.inj (hdocuments.symm.trans hdocuments')
      have hmerge := merge_empty_of_distinct (hsame.distinct hdistinct)
      refine ⟨hmerge, hsame.agrees hdistinct, ?_⟩
      intro text htext
      rw [read, htext]
      apply hmerge

def officeText : String :=
  "networks:\n  OFFICE: [LAB, 10.1.0.0/16]\nservices:\n  WEB: [80/tcp, SECURE]\n"

def labText : String :=
  "networks:\n  LAB: [10.2.0.0/16]\nservices:\n  SECURE: [443/tcp]\n"

def siteText : String :=
  "networks:\n  LAB: [10.2.0.0/16]\n  OFFICE: [LAB, 10.1.0.0/16]\n"
    ++ "services:\n  SECURE: [443/tcp]\n  WEB: [80/tcp, SECURE]\n"

def office : Definitions :=
  ⟨[("OFFICE", ["LAB", "10.1.0.0/16"])], [("WEB", ["80/tcp", "SECURE"])]⟩

def lab : Definitions :=
  ⟨[("LAB", ["10.2.0.0/16"])], [("SECURE", ["443/tcp"])]⟩

theorem readAll_office_lab :
    ∃ d d', readAll {} [officeText, labText] = (d, none)
      ∧ readAll {} [labText, officeText] = (d', none)
      ∧ Agrees d d' ∧ read {} siteText = (joined [lab, office], none)
      ∧ Agrees d (joined [lab, office])
      ∧ Keeps d (read d labText).1 := by
  have hoffice : ofText officeText = .ok office := ofText_eq_ok_of_any (by decide +kernel)
  have hlab : ofText labText = .ok lab := ofText_eq_ok_of_any (by decide +kernel)
  have hsite : ofText siteText = .ok (joined [lab, office]) :=
    ofText_eq_ok_of_any (by decide +kernel)
  have hdocuments : [officeText, labText].mapM ofText = .ok [office, lab] := by
    simp only [List.mapM_cons, hoffice, hlab]
    rfl
  have hsame : SameEntries (joined [office, lab]) (joined [lab, office]) :=
    sameEntries_joined (.swap lab office [])
  have hapart : [office, lab].Pairwise Apart := by
    rw [List.pairwise_pair]
    constructor <;> simp [names, office, lab]
  obtain ⟨hapart_iff, horder, hresult, hkeeps⟩ := readAll_independent_of_split [officeText, labText]
  obtain ⟨d, h⟩ := hapart_iff.mpr ⟨_, hdocuments, hapart⟩
  obtain ⟨d', h'⟩ := (horder [labText, officeText] (.swap _ _ [])).mp ⟨d, h⟩
  obtain ⟨hsplit, hwhole⟩ := hresult d h
  obtain ⟨_, hagrees, hread⟩ := hwhole _ _ hdocuments hsame
  exact ⟨d, d', h, h', hsplit _ d' (.swap _ _ []) h', hread siteText hsite, hagrees,
    hkeeps d labText⟩

end Definitions
end PacketPolicy
