import Mathlib.Data.List.Forall2
import PacketPolicy.Proofs.Definitions.Walks
import PacketPolicy.Proofs.Policy.Resolution

namespace PacketPolicy
namespace Definitions

open Relation (ReflTransGen TransGen)

variable {kind : NameKind} {table : Table} {read : String → String → Except Error (List α)}
  {path : List String}
  {name : String}

theorem flattenValues_eq_error (h : flattenValues kind table read path owner values = .error e) :
    ∃ value ∈ values, flattenValue kind table read path owner value = .error e := by
  induction values with
  | nil => simp [flattenValues] at h
  | cons value values ih =>
    rw [flattenValues_cons] at h
    cases hfirst : flattenValue kind table read path owner value with
    | error e' =>
      rw [hfirst] at h
      cases h
      exact ⟨value, List.mem_cons_self, hfirst⟩
    | ok first =>
      rw [hfirst] at h
      cases hrest : flattenValues kind table read path owner values with
      | error e' =>
        rw [hrest] at h
        cases h
        obtain ⟨v, hv, hvalue⟩ := ih hrest
        exact ⟨v, List.mem_cons_of_mem _ hv, hvalue⟩
      | ok rest =>
        rw [hrest] at h
        cases h

theorem flatten_ne_undefined (hread : ∀ owner value, read owner value ≠ .error (.undefined k n))
    {path : List String} {name : String} (hname : (table.lookup name).isSome = true) :
    flatten kind table read path name ≠ .error (.undefined k n) := by
  intro h
  unfold flatten at h
  split at h
  . next hnone => simp [hnone] at hname
  . next values hvalues =>
    split at h
    . simp at h
    . next hpath =>
      have := length_unvisited_cons_lt (mem_of_lookup hvalues) hpath
      obtain ⟨value, _, hvalue⟩ := flattenValues_eq_error h
      unfold flattenValue at hvalue
      split at hvalue
      . simp at hvalue
      . split at hvalue
        . next hname' => exact flatten_ne_undefined hread hname' hvalue
        . exact hread _ _ hvalue
termination_by (unvisited table path).length

theorem flatten_eq_undefined_iff
    (hread : ∀ owner value k n, read owner value ≠ .error (.undefined k n)) :
    flatten kind table read path name = .error (.undefined k n) ↔
      table.lookup name = none ∧ k = kind ∧ n = name := by
  cases hlookup : table.lookup name with
  | none => simp [flatten_of_none hlookup, eq_comm]
  | some values =>
    have hdefined : flatten kind table read path name ≠ .error (.undefined k n) :=
      flatten_ne_undefined (fun owner value => hread owner value k n)
        (Option.isSome_of_eq_some hlookup)
    simp [hdefined]

theorem exists_flatten_of_refers (h : flatten kind table read path name = .ok as)
    (hrefers : Refers table name target) :
    ∃ as', flatten kind table read (name :: path) target = .ok as' := by
  obtain ⟨hne, hsome, value, hvalue, rfl⟩ := hrefers
  obtain ⟨values, hname, _⟩ := flatten_eq_ok.mp h
  have hmem : value ∈ values := by simpa [written, hname] using hvalue
  obtain ⟨list, hlist, _⟩ := exists_flattenValue h hname hmem
  simp only [flattenValue, beq_iff_eq, hne, ↓reduceIte, hsome] at hlist
  exact ⟨list, hlist⟩

theorem exists_flatten_of_reflTransGen (h : flatten kind table read path name = .ok as)
    (hleads : ReflTransGen (Refers table) name target) :
    ∃ path' as', flatten kind table read path' target = .ok as' := by
  induction hleads with
  | refl => exact ⟨path, as, h⟩
  | tail _ hrefers ih =>
    obtain ⟨path', as', h'⟩ := ih
    exact ⟨_, exists_flatten_of_refers h' hrefers⟩

theorem exists_flatten_of_transGen (h : flatten kind table read path name = .ok as)
    (hleads : TransGen (Refers table) name target) :
    ∃ path' as', name ∈ path' ∧ flatten kind table read path' target = .ok as' := by
  induction hleads with
  | single hrefers =>
    obtain ⟨as', h'⟩ := exists_flatten_of_refers h hrefers
    exact ⟨_, as', List.mem_cons_self, h'⟩
  | tail _ hrefers ih =>
    obtain ⟨path', as', hmem, h'⟩ := ih
    obtain ⟨as'', h''⟩ := exists_flatten_of_refers h' hrefers
    exact ⟨_, as'', List.mem_cons_of_mem _ hmem, h''⟩

/--
A cycle would lead to a name that is on the path already.
-/
theorem not_cyclic_of_flatten (h : flatten kind table read path name = .ok as) :
    ¬Cyclic table name := by
  rintro ⟨target, hleads, hcycle⟩
  obtain ⟨path', as', h'⟩ := exists_flatten_of_reflTransGen h hleads
  obtain ⟨path'', as'', hmem, h''⟩ := exists_flatten_of_transGen h' hcycle
  obtain ⟨_, _, hnew, _⟩ := flatten_eq_ok.mp h''
  exact hnew hmem

theorem exists_mapM_eq_ok {g : β → Except ε γ} {bs : List β} (h : ∀ b ∈ bs, ∃ c, g b = .ok c) :
    ∃ cs, bs.mapM g = .ok cs := by
  induction bs with
  | nil => exact ⟨[], rfl⟩
  | cons b bs ih =>
    obtain ⟨c, hc⟩ := h b List.mem_cons_self
    obtain ⟨cs, hcs⟩ := ih fun b' hb' => h b' (List.mem_cons_of_mem b hb')
    exact ⟨c :: cs, mapM_cons_eq_ok.mpr ⟨c, cs, hc, hcs, rfl⟩⟩

theorem Cyclic.of_refers (hrefers : Refers table name target) (h : Cyclic table target) :
    Cyclic table name := by
  obtain ⟨target', hleads, hcycle⟩ := h
  exact ⟨target', .head hrefers hleads, hcycle⟩

/--
Without cycles the names on a path, which all lead to the name, are different from it.
-/
theorem exists_flatten_eq_ok {path : List String} {name : String}
    (hname : (table.lookup name).isSome = true) (hcyclic : ¬Cyclic table name)
    (hleaves : ∀ walk owner value, leafAt? table name walk = some (owner, value) → ∃ part,
    read owner value = .ok part) (hpath : ∀ visited ∈ path, TransGen (Refers table) visited name) :
    ∃ as, flatten kind table read path name = .ok as := by
  obtain ⟨values, hvalues⟩ := Option.isSome_iff_exists.mp hname
  have hnew : name ∉ path := fun hmem => hcyclic ⟨name, .refl, hpath name hmem⟩
  have := length_unvisited_cons_lt (mem_of_lookup hvalues) (by simpa using hnew)
  obtain ⟨lists, hlists⟩ : ∃ lists, values.mapM (flattenValue kind table read (name :: path) name)
      = .ok lists := by
    apply exists_mapM_eq_ok
    intro value hvalue
    obtain ⟨place, hplace⟩ := List.mem_iff_getElem?.mp hvalue
    have hplace : (written table name)[place]? = some value := by
      simpa [written, hvalues] using hplace
    unfold flattenValue
    by_cases hne : strip value = ""
    . exact ⟨[], by simp [hne]⟩
    by_cases hname' : (table.lookup (strip value)).isSome = true
    . have hrefers := refers_of_getElem? hplace hne hname'
      simp only [beq_iff_eq, hne, ↓reduceIte, hname']
      refine exists_flatten_eq_ok hname' (fun h => hcyclic (h.of_refers hrefers)) ?_ ?_
      . intro walk owner leaf hleaf
        exact hleaves (place :: walk) owner leaf
          (by rw [leafAt?_cons hplace hne, if_pos hname', hleaf])
      . intro visited hvisited
        obtain rfl | hvisited := List.mem_cons.mp hvisited
        . exact .single hrefers
        . exact (hpath visited hvisited).tail hrefers
    . have hleaf : leafAt? table name [place] = some (name, strip value) := by
        rw [leafAt?_cons hplace hne, if_neg hname', if_pos rfl]
      obtain ⟨part, hpart⟩ := hleaves [place] name (strip value) hleaf
      exact ⟨part, by simp [hne, hname', hpart]⟩
  exact ⟨lists.flatten,
    flatten_eq_ok.mpr ⟨values, hvalues, hnew, flattenValues_eq_ok.mpr ⟨lists, hlists, rfl⟩⟩⟩
termination_by (unvisited table path).length

theorem length_le_of_leafAt? (h : flatten kind table read path name = .ok as)
    (hleaf : leafAt? table name walk = some leaf) :
    walk.length ≤ (unvisited table path).length := by
  induction walk generalizing path name as with
  | nil => simp [leafAt?] at hleaf
  | cons place walk ih =>
    obtain ⟨values, hvalues, hnew, _⟩ := flatten_eq_ok.mp h
    have hlt := length_unvisited_cons_lt (mem_of_lookup hvalues) (by simpa using hnew)
    obtain ⟨value, hvalue, hne⟩ := exists_of_leafAt? hleaf
    rw [leafAt?_cons hvalue hne] at hleaf
    rw [List.length_cons]
    split at hleaf
    . next hname =>
      obtain ⟨as', h'⟩ := exists_flatten_of_refers h (refers_of_getElem? hvalue hne hname)
      have := ih h' hleaf
      omega
    . split at hleaf
      . next hend =>
        rw [hend, List.length_nil]
        omega
      . simp at hleaf

def partAt (table : Table) (read : String → String → Except Error (List α)) (name : String)
    (walk : List Nat) :
    List α :=
  match leafAt? table name walk with
  | some (owner, value) => (read owner value).toOption.getD []
  | none => []

theorem flatten_of_mapM_eq_ok {g : β → Except ε (List γ)} {bs : List β}
    (h : bs.mapM g = .ok lists) :
    lists.flatten = bs.flatMap fun b => (g b).toOption.getD [] := by
  induction bs generalizing lists with
  | nil =>
    obtain rfl := pure_eq_ok.mp h
    rfl
  | cons b bs ih =>
    obtain ⟨list, lists', hlist, hlists', rfl⟩ := mapM_cons_eq_ok.mp h
    rw [List.flatten_cons, List.flatMap_cons, ih hlists', hlist]
    rfl

theorem flatMap_eq_flatMap_zipIdx {bs : List β} {g : β → List γ} {g' : β × Nat → List γ}
    (h : ∀ b (place : Nat), bs[place]? = some b → g b = g' (b, place)) :
    bs.flatMap g = bs.zipIdx.flatMap g' := by
  have hplaces : bs.zipIdx.map (fun p => g p.1) = bs.zipIdx.map g' := by
    apply List.map_congr_left
    rintro ⟨b, place⟩ hmem
    exact h b place (List.mem_zipIdx_iff_getElem?.mp hmem)
  rw [List.flatMap_def, List.flatMap_def, ← hplaces, ← List.zipIdx_map_fst 0 bs, List.map_map,
    List.zipIdx_map_fst]
  rfl

theorem flatMap_walksThrough {place : Nat} (hvalue : (written table name)[place]? = some value)
    (h : flattenValue kind table read path name value = .ok list)
    (hfurther : ∀ {target as}, flatten kind table read path target = .ok as →
      as = (further target).flatMap (partAt table read target)) :
    (walksThrough table further value place).flatMap (partAt table read name) = list := by
  unfold flattenValue at h
  unfold walksThrough
  by_cases hne : strip value = ""
  . simp_all
  by_cases hname : (table.lookup (strip value)).isSome = true
  . simp only [beq_iff_eq, hne, ↓reduceIte, hname] at h
    simp only [hne, ↓reduceIte, hname, List.flatMap_map, partAt, leafAt?_cons hvalue hne]
    exact (hfurther h).symm
  . rw [if_neg (by simpa using hne), if_neg hname] at h
    simp [hne, hname, partAt, leafAt?_cons hvalue hne, h, Except.toOption]

theorem flatten_eq_walks (h : flatten kind table read path name = .ok as)
    (hlength : (unvisited table path).length ≤ n) :
    as = (walks table n name).flatMap (partAt table read name) := by
  induction n generalizing path name as with
  | zero =>
    obtain ⟨values, hvalues, hnew, _⟩ := flatten_eq_ok.mp h
    have := length_unvisited_cons_lt (mem_of_lookup hvalues) (by simpa using hnew)
    omega
  | succ n ih =>
    obtain ⟨values, hvalues, hnew, hflatten⟩ := flatten_eq_ok.mp h
    have hlt := length_unvisited_cons_lt (mem_of_lookup hvalues) (by simpa using hnew)
    obtain ⟨lists, hlists, rfl⟩ := flattenValues_eq_ok.mp hflatten
    have hwritten : written table name = values := by simp [written, hvalues]
    rw [flatten_of_mapM_eq_ok hlists, walks, hwritten, List.flatMap_assoc]
    apply flatMap_eq_flatMap_zipIdx
    intro value place hvalue
    obtain ⟨list, _, hlist⟩ := exists_of_mapM_eq_ok hlists (List.mem_of_getElem? hvalue)
    have hfurther : ∀ {target as}, flatten kind table read (name :: path) target = .ok as →
        as = (walks table n target).flatMap (partAt table read target) :=
      fun h' => ih h' (by omega)
    rw [← hwritten] at hvalue
    rw [flatMap_walksThrough hvalue hlist hfurther, hlist]
    rfl

/--
The list holds what `gives` says of the values at the ends of the walks from a name, from left to
right and in depth first. A name that several walks come by counts once for each of them.
-/
def FlattensTo (table : Table) (gives : String → List α → Prop) (name : String) (as : List α) :
    Prop :=
  ∃ (walks : List (List Nat)) (parts : List (List α)),
    walks.Pairwise (· < ·)
      ∧ (∀ walk, walk ∈ walks ↔ (leafAt? table name walk).isSome = true)
      ∧ List.Forall₂ (fun walk part => ∃ owner value, leafAt? table name walk = some (owner, value)
        ∧ gives value part)
          walks parts
      ∧ parts.flatten = as

/--
The result is what a name of a table must resolve to if values that are written out are read as
`gives` says.
-/
structure Resolves (kind : NameKind) (table : Table) (gives : String → List α → Prop)
    (name : String) (result : Except Error (List α)) : Prop where
  undefined : ∀ k n, result = .error (.undefined k n) ↔
    table.lookup name = none ∧ k = kind ∧ n = name
  succeeds : (∃ as, result = .ok as) ↔
    (table.lookup name).isSome = true ∧ ¬Cyclic table name
      ∧ ∀ walk owner value, leafAt? table name walk = some (owner, value) → ∃ part, gives value part
  flattens : ∀ as, result = .ok as → FlattensTo table gives name as

theorem reaches_of_leafAt? (h : leafAt? table name walk = some (owner, value)) :
    Reaches table name owner value := by
  induction walk generalizing name with
  | nil => simp [leafAt?] at h
  | cons place walk ih =>
    obtain ⟨v, hv, hne⟩ := exists_of_leafAt? h
    have hmem : v ∈ written table name := List.mem_of_getElem? hv
    obtain ⟨values, hvalues⟩ : ∃ values, table.lookup name = some values := by
      cases hlookup : table.lookup name with
      | none => simp [written, hlookup] at hmem
      | some values => exact ⟨values, rfl⟩
    rw [written, hvalues, Option.getD_some] at hmem
    rw [leafAt?_cons hv hne] at h
    split at h
    . exact .there hvalues hmem hne (ih h)
    . next hwritten =>
      split at h
      . cases h
        exact .here hvalues hmem hne (Option.not_isSome_iff_eq_none.mp hwritten)
      . simp at h

theorem exists_read_of_leafAt? (h : flatten kind table read path name = .ok as)
    (hleaf : leafAt? table name walk = some (owner, value)) :
    ∃ part, read owner value = .ok part := by
  obtain ⟨part, hpart, _⟩ := exists_read_of_reaches (reaches_of_leafAt? hleaf) h
  exact ⟨part, hpart⟩

theorem flattensTo_of_flatten
    (hgives : ∀ {owner value part}, read owner value = .ok part ↔ gives value part)
    (h : flatten kind table read path name = .ok as) :
    FlattensTo table gives name as := by
  refine ⟨walks table (unvisited table path).length name, _, pairwise_walks .., fun walk => ?_, ?_,
    (flatten_eq_walks h (Nat.le_refl _)).symm⟩
  . rw [mem_walks]
    constructor
    . exact And.right
    . intro hleaf
      obtain ⟨leaf, hsome⟩ := Option.isSome_iff_exists.mp hleaf
      exact ⟨length_le_of_leafAt? h hsome, hleaf⟩
  . rw [List.forall₂_map_right_iff, List.forall₂_same]
    intro walk hwalk
    obtain ⟨⟨owner, value⟩, hleaf⟩ := Option.isSome_iff_exists.mp (mem_walks.mp hwalk).2
    obtain ⟨part, hpart⟩ := exists_read_of_leafAt? h hleaf
    refine ⟨owner, value, hleaf, ?_⟩
    simp only [partAt, hleaf]
    rw [hpart]
    exact hgives.mp hpart

theorem resolves_flatten
    (hgives : ∀ {owner value part}, read owner value = .ok part ↔ gives value part)
    (hdefined : ∀ owner value k n, read owner value ≠ .error (.undefined k n)) :
    Resolves kind table gives name (flatten kind table read [] name) where
  undefined := fun k n => flatten_eq_undefined_iff hdefined
  succeeds := by
    constructor
    . rintro ⟨as, h⟩
      obtain ⟨values, hname, _⟩ := flatten_eq_ok.mp h
      refine ⟨Option.isSome_of_eq_some hname, not_cyclic_of_flatten h, ?_⟩
      intro walk owner value hleaf
      obtain ⟨part, hpart⟩ := exists_read_of_leafAt? h hleaf
      exact ⟨part, hgives.mp hpart⟩
    . rintro ⟨hname, hcyclic, hleaves⟩
      apply exists_flatten_eq_ok hname hcyclic
      . intro walk owner value hleaf
        obtain ⟨part, hpart⟩ := hleaves walk owner value hleaf
        exact ⟨part, hgives.mpr hpart⟩
      . simp
  flattens := fun as h => flattensTo_of_flatten hgives h

def GivesPrefix (value : String) (ps : List Prefix) : Prop :=
  ∃ p, Prefix.read value = .ok p ∧ ps = [p]

/--
A service is written out as ports and a protocol behind the last slash. The ports count for this
protocol only, and for others they are not looked at.
-/
def GivesPorts (protocol value : String) (rs : List PortRange) : Prop :=
  ∃ ports suffix, value = ports ++ "/" ++ suffix ∧ '/' ∉ suffix.toList
    ∧ (suffix ≠ protocol ∧ rs = [] ∨ suffix = protocol
      ∧ ∃ r, PortRange.read ports = .ok r ∧ rs = [r])

theorem readPrefix_eq_ok : readPrefix owner value = .ok ps ↔ GivesPrefix value ps := by
  unfold readPrefix GivesPrefix
  cases Prefix.read value <;> simp [eq_comm]

theorem readPorts_append {ports suffix : String} (h : '/' ∉ suffix.toList) :
    readPorts protocol owner (ports ++ "/" ++ suffix) =
      if suffix = protocol then
        match PortRange.read ports with
        | .ok r => .ok [r]
        | .error e => .error (.badRange owner e)
      else .ok [] := by
  have hreverse : (ports ++ "/" ++ suffix).toList.reverse
      = suffix.toList.reverse ++ '/' :: ports.toList.reverse := by
    simp
  have hsuffix : ∀ c ∈ suffix.toList.reverse, (c != '/') = true := by
    intro c hc
    simpa using ne_of_mem_of_not_mem (List.mem_reverse.mp hc) h
  unfold readPorts
  dsimp only
  rw [hreverse, List.takeWhile_append_of_pos hsuffix, List.dropWhile_append_of_pos hsuffix]
  by_cases hprotocol : suffix = protocol
  . cases hread : PortRange.read ports <;> simp [hprotocol, hread]
  . simp [hprotocol]

theorem readPorts_of_not_mem (h : '/' ∉ value.toList) :
    readPorts protocol owner value = .error (.noProtocol owner value) := by
  simp [readPorts, h]

theorem readPorts_eq_ok :
    readPorts protocol owner value = .ok rs ↔ GivesPorts protocol value rs := by
  constructor
  . intro h
    by_cases hslash : '/' ∈ value.toList
    . obtain ⟨suffix, ports, hvalue, hsuffix⟩ : ∃ suffix, NamesProtocol value suffix :=
        ⟨_, (suffix_eq_iff hslash).mp rfl⟩
      refine ⟨ports, suffix, hvalue, hsuffix, ?_⟩
      rw [hvalue, readPorts_append hsuffix] at h
      split at h
      . next hsame =>
        split at h
        . next r hread =>
          cases h
          exact .inr ⟨hsame, r, hread, rfl⟩
        . simp at h
      . next hother =>
        cases h
        exact .inl ⟨hother, rfl⟩
    . simp [readPorts_of_not_mem hslash] at h
  . rintro ⟨ports, suffix, rfl, hsuffix, ⟨hother, rfl⟩ | ⟨hsame, r, hread, rfl⟩⟩
    . rw [readPorts_append hsuffix, if_neg hother]
    . rw [readPorts_append hsuffix, if_pos hsame, hread]

theorem readPrefix_ne_undefined : readPrefix owner value ≠ .error (.undefined k n) := by
  unfold readPrefix
  split <;> simp

theorem readPorts_ne_undefined : readPorts protocol owner value ≠ .error (.undefined k n) := by
  unfold readPorts
  dsimp only
  split
  . simp
  . split
    . simp
    . split <;> simp

/--
Networks and services resolve to the flattening of their graphs, whatever their definitions are.
-/
theorem names_resolve_to_flattening (d : Definitions) (name : String) :
    Resolves .network d.networks GivesPrefix name (d.addresses name)
      ∧ ∀ protocol, Resolves .service d.services (GivesPorts protocol) name
        (d.ports name protocol) := by
  constructor
  . unfold addresses
    exact resolves_flatten readPrefix_eq_ok fun _ _ _ _ => readPrefix_ne_undefined
  . intro protocol
    unfold ports
    exact resolves_flatten readPorts_eq_ok fun _ _ _ _ => readPorts_ne_undefined

end Definitions
end PacketPolicy
