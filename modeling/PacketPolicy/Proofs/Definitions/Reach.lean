import PacketPolicy.Definitions.Basic
import PacketPolicy.Proofs.Basic

namespace PacketPolicy
namespace Definitions

/--
The name leads to `owner`, and `value` stands among the values of `owner` and is not a name itself.
-/
inductive Reaches (table : Table) : (name owner value : String) → Prop where
  | here (hname : table.lookup name = some values) (hv : v ∈ values) (hne : strip v ≠ "")
    (hwritten : table.lookup (strip v) = none) : Reaches table name name (strip v)
  | there (hname : table.lookup name = some values) (hv : v ∈ values) (hne : strip v ≠ "")
    (hreaches : Reaches table (strip v) owner value) : Reaches table name owner value

theorem Reaches.isSome_lookup (h : Reaches table name owner value) :
    (table.lookup name).isSome = true := by
  cases h with
  | here hname => simp [hname]
  | there hname => simp [hname]

variable {kind : NameKind} {table : Table} {read : String → String → Except Error (List α)}
  {path : List String}

def flattenValue (kind : NameKind) (table : Table) (read : String → String → Except Error (List α))
    (path : List String) (owner value : String) : Except Error (List α) :=
  if strip value == "" then .ok []
  else if (table.lookup (strip value)).isSome then flatten kind table read path (strip value)
  else read owner (strip value)

theorem flattenValues_cons :
    flattenValues kind table read path owner (value :: values) = do
      let first ← flattenValue kind table read path owner value
      let rest ← flattenValues kind table read path owner values
      return first ++ rest := by
  rw [flattenValues]
  unfold flattenValue
  split
  . rfl
  . split <;> rfl

theorem flattenValues_eq_ok :
    flattenValues kind table read path owner values = .ok as ↔
      ∃ lists, values.mapM (flattenValue kind table read path owner) = .ok lists
        ∧ lists.flatten = as := by
  induction values generalizing as with
  | nil => simp [flattenValues, pure_eq_ok]
  | cons value values ih =>
    simp only [flattenValues_cons, bind_eq_ok, pure_eq_ok, ih, mapM_cons_eq_ok]
    constructor
    . rintro ⟨first, hfirst, rest, ⟨lists, hlists, hrest⟩, has⟩
      exact ⟨first :: lists, ⟨first, lists, hfirst, hlists, rfl⟩, by simp [hrest, has]⟩
    . rintro ⟨_, ⟨first, lists, hfirst, hlists, rfl⟩, has⟩
      exact ⟨first, hfirst, lists.flatten, ⟨lists, hlists, rfl⟩, by simpa using has⟩

theorem flatten_eq_ok :
    flatten kind table read path name = .ok as ↔
      ∃ values, table.lookup name = some values ∧ name ∉ path
        ∧ flattenValues kind table read (name :: path) name values = .ok as := by
  unfold flatten
  split
  . next h => simp [h]
  . next values h =>
    split
    . next hpath => simp_all
    . next hpath =>
      have : name ∉ path := by simpa using hpath
      simp [h, this]

theorem exists_flattenValue (h : flatten kind table read path name = .ok as)
    (hname : table.lookup name = some values) (hv : v ∈ values) :
    ∃ list, flattenValue kind table read (name :: path) name v = .ok list ∧ ∀ a ∈ list, a ∈ as := by
  obtain ⟨values', hname', _, hvalues⟩ := flatten_eq_ok.mp h
  obtain ⟨lists, hlists, rfl⟩ := flattenValues_eq_ok.mp hvalues
  have : values' = values := by simpa [hname, eq_comm] using hname'
  obtain ⟨list, hlist, hok⟩ := exists_of_mapM_eq_ok hlists (this ▸ hv)
  exact ⟨list, hok, fun a ha => List.mem_flatten_of_mem hlist ha⟩

theorem exists_read_of_reaches (hreaches : Reaches table name owner value)
    (h : flatten kind table read path name = .ok as) :
    ∃ list, read owner value = .ok list ∧ ∀ a ∈ list, a ∈ as := by
  induction hreaches generalizing path as with
  | here hname hv hne hwritten =>
    obtain ⟨list, hlist, hsub⟩ := exists_flattenValue h hname hv
    simp only [flattenValue, beq_iff_eq, hne, ↓reduceIte, hwritten, Option.isSome_none,
      Bool.false_eq_true] at hlist
    exact ⟨list, hlist, hsub⟩
  | there hname hv hne hreaches ih =>
    obtain ⟨list, hlist, hsub⟩ := exists_flattenValue h hname hv
    simp only [flattenValue, beq_iff_eq, hne, ↓reduceIte, hreaches.isSome_lookup] at hlist
    obtain ⟨list', hread, hsub'⟩ := ih hlist
    exact ⟨list', hread, fun a ha => hsub a (hsub' a ha)⟩

theorem exists_reaches_of_mem {path : List String} (h : flatten kind table read path name = .ok as)
    (ha : a ∈ as) :
    ∃ owner value list, Reaches table name owner value ∧ read owner value = .ok list
      ∧ a ∈ list := by
  obtain ⟨values, hname, hpath, hvalues⟩ := flatten_eq_ok.mp h
  obtain ⟨lists, hlists, rfl⟩ := flattenValues_eq_ok.mp hvalues
  obtain ⟨list, hlist, ha⟩ := List.mem_flatten.mp ha
  obtain ⟨v, hv, hvalue⟩ := (mem_of_mapM_eq_ok hlists).mp hlist
  unfold flattenValue at hvalue
  split at hvalue
  . cases hvalue
    simp at ha
  . next hne =>
    have hne : strip v ≠ "" := by simpa using hne
    split at hvalue
    . -- One name more is on the path, so one less is left to visit.
      have := length_unvisited_cons_lt (mem_of_lookup hname) (by simpa using hpath)
      obtain ⟨owner, value, list', hreaches, hread, ha⟩ := exists_reaches_of_mem hvalue ha
      exact ⟨owner, value, list', .there hname hv hne hreaches, hread, ha⟩
    . next hwritten =>
      exact ⟨name, strip v, list,
        .here hname hv hne (Option.not_isSome_iff_eq_none.mp hwritten), hvalue, ha⟩
termination_by (unvisited table path).length

theorem flatten_of_none (h : table.lookup name = none) :
    flatten kind table read path name = .error (.undefined kind name) := by
  unfold flatten
  split
  . rfl
  . next hname => simp [h] at hname

theorem flatten_of_some (h : table.lookup name = some values) :
    flatten kind table read path name
      = if path.contains name then .error (.cyclic kind name)
        else flattenValues kind table read (name :: path) name values := by
  unfold flatten
  split
  . next hname => simp [h] at hname
  . next values' hname =>
    obtain rfl : values = values' := by simpa [h] using hname
    split <;> rfl

theorem flattenValues_congr {table' : Table}
    (h : ∀ value, flattenValue kind table read path owner value
      = flattenValue kind table' read path owner value) :
    flattenValues kind table read path owner values
      = flattenValues kind table' read path owner values := by
  induction values with
  | nil => simp only [flattenValues]
  | cons value values ih => rw [flattenValues_cons, flattenValues_cons, h value, ih]

theorem flatten_congr {table' : Table} (h : ∀ name, table.lookup name = table'.lookup name)
    (path : List String) (name : String) :
    flatten kind table read path name = flatten kind table' read path name := by
  cases hname : table.lookup name with
  | none => rw [flatten_of_none hname, flatten_of_none (h name ▸ hname)]
  | some values =>
    rw [flatten_of_some hname, flatten_of_some (h name ▸ hname)]
    split
    . rfl
    . next hpath =>
      apply flattenValues_congr
      intro value
      unfold flattenValue
      rw [h (strip value)]
      split
      . rfl
      . split
        . -- The recursion is the one of the walk itself: the path has one name more.
          have := length_unvisited_cons_lt (mem_of_lookup hname) hpath
          apply flatten_congr h
        . rfl
termination_by (unvisited table path).length

end Definitions
end PacketPolicy
