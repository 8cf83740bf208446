import PacketPolicy.Files.Tree
import PacketPolicy.Proofs.Basic
import PacketPolicy.Proofs.Files.Path

/-!
This module contains what is known of files in memory: a file that is written can be read, it stays
as long as nothing is written to the same place, and paths with different names at their ends never
lead to the same place.
-/

namespace PacketPolicy

structure Path.EndsWith (path name : String) : Prop where
  isName : IsName name
  components : ∃ front, components path = front ++ [name]

namespace Tree

variable {t t' : Tree} {place other found : List String}

theorem lookup_set_self (hplace : place ≠ []) :
    (t.set place (some text)).lookup place = some (.file text) := by
  have hnone : (t.entries.filter (·.1 != place)).find? (·.1 == place) = none := by
    simp [List.find?_eq_none]
  simp [lookup, set, hplace, List.find?_append, hnone]

theorem lookup_set_of_ne (h : other ≠ place) :
    (t.set place content).lookup other = t.lookup other := by
  have hfind : (t.entries.filter (·.1 != place)).find? (·.1 == other)
      = t.entries.find? (·.1 == other) := by
    rw [List.find?_filter]
    congr
    funext entry
    by_cases heq : entry.1 = other
    . simp [heq, h]
    . simp [heq]
  have hlast : [(place, content)].find? (·.1 == other) = none := by
    simp [Ne.symm h]
  unfold lookup set
  rw [List.find?_append, hfind, hlast, Option.or_none]

def enter? (place : List String) (c : String) : Option (List String) :=
  if c == "" || c == "." then some place
  else if c == ".." then (if place.isEmpty then none else some place.dropLast)
  else if maxNameBytes < c.utf8ByteSize then none
  else some (place ++ [c])

theorem follow_cons_eq_ok : t.follow place (c :: cs) = .ok found ↔
    t.lookup place = some .directory
      ∧ ∃ next, enter? place c = some next ∧ t.follow next cs = .ok found := by
  rw [follow]
  unfold enter?
  split
  . next h => simp [h]
  . next h => simp [h]
  . next h =>
    rw [h]
    grind

theorem enter?_of_isName (hname : Path.IsName name) (h : enter? place name = some next) :
    next = place ++ [name] := by
  have hspecial := hname.special
  simp only [List.mem_cons, List.not_mem_nil, or_false, not_or] at hspecial
  unfold enter? at h
  grind

theorem follow_of_directories
    (h : ∀ place, t.lookup place = some .directory → t'.lookup place = some .directory)
    (hfollow : t.follow place cs = .ok found) :
    t'.follow place cs = .ok found := by
  induction cs generalizing place with
  | nil => exact hfollow
  | cons c cs ih =>
    obtain ⟨hdirectory, next, hnext, hfollow⟩ := follow_cons_eq_ok.mp hfollow
    exact follow_cons_eq_ok.mpr ⟨h place hdirectory, next, hnext, ih hfollow⟩

theorem follow_concat (h : t.follow place (front ++ [name]) = .ok found)
    (hname : Path.IsName name) :
    ∃ above, found = above ++ [name] := by
  induction front generalizing place with
  | nil =>
    obtain ⟨_, next, hnext, h⟩ := follow_cons_eq_ok.mp h
    cases h
    exact ⟨place, enter?_of_isName hname hnext⟩
  | cons c cs ih =>
    obtain ⟨_, next, _, h⟩ := follow_cons_eq_ok.mp h
    exact ih h

theorem place_eq_ok : t.place path = .ok place ↔
    '\x00' ∉ path.toList ∧ path ≠ "" ∧ Path.isAbsolute path = false
      ∧ path.utf8ByteSize ≤ maxPathBytes
      ∧ t.follow [] (Path.components path) = .ok place := by
  unfold Tree.place
  grind

theorem named_of_isDirectory (h : t.isDirectory path = .ok answer) : Path.Named path := by
  unfold Tree.isDirectory at h
  split at h
  . simp at h
  . next hfind =>
    obtain ⟨place, hplace, _⟩ := bind_eq_ok.mp hfind
    obtain ⟨_, hempty, hrelative, _⟩ := place_eq_ok.mp hplace
    obtain ⟨c, cs, hcs⟩ := List.exists_cons_of_ne_nil (l := path.toList) (by simpa using hempty)
    refine ⟨c, by simp [hcs], ?_⟩
    simpa [Path.isAbsolute, hcs] using hrelative

theorem place_of_directories
    (h : ∀ place, t.lookup place = some .directory → t'.lookup place = some .directory)
    (hplace : t.place path = .ok place) :
    t'.place path = .ok place := by
  obtain ⟨hzero, hempty, hrelative, hlong, hfollow⟩ := place_eq_ok.mp hplace
  exact place_eq_ok.mpr ⟨hzero, hempty, hrelative, hlong, follow_of_directories h hfollow⟩

theorem place_of_endsWith (hplace : t.place path = .ok place) (h : Path.EndsWith path name) :
    ∃ above, place = above ++ [name] := by
  obtain ⟨front, hfront⟩ := h.components
  obtain ⟨_, _, _, _, hfollow⟩ := place_eq_ok.mp hplace
  rw [hfront] at hfollow
  exact follow_concat hfollow h.isName

theorem readFile_eq_ok :
    t.readFile path = .ok text ↔
      ∃ place, t.place path = .ok place ∧ t.lookup place = some (.file text) := by
  unfold readFile find
  cases hplace : t.place path with
  | error cause => simp [bind, Except.bind]
  | ok place =>
    cases hlookup : t.lookup place with
    | none => simp [bind, Except.bind, hlookup]
    | some found => cases found <;> simp [bind, Except.bind, hlookup]

theorem exists_set_of_writeFile (h : t.writeFile path text = .ok t') :
    ∃ place, t.place path = .ok place ∧ t.lookup place ≠ some .directory
      ∧ t' = t.set place (some text) := by
  unfold writeFile at h
  split at h
  . simp at h
  . next place hplace =>
    refine ⟨place, hplace, ?_⟩
    by_cases hlookup : t.lookup place = some .directory
    . simp [hlookup] at h
    . refine ⟨hlookup, ?_⟩
      split at h
      . simp at h
      . cases h
        rfl
      . simp at h
      . simp at h

theorem lookup_of_writeFile (h : t.writeFile path text = .ok t') (place : List String)
    (hdirectory : t.lookup place = some .directory) : t'.lookup place = some .directory := by
  obtain ⟨written, _, hlookup, rfl⟩ := exists_set_of_writeFile h
  rw [lookup_set_of_ne]
  . exact hdirectory
  . rintro rfl
    exact hlookup hdirectory

theorem readFile_of_writeFile (h : t.writeFile path text = .ok t') :
    t'.readFile path = .ok text := by
  obtain ⟨place, hplace, hlookup, heq⟩ := exists_set_of_writeFile h
  have hne : place ≠ [] := by
    rintro rfl
    exact hlookup rfl
  refine readFile_eq_ok.mpr ⟨place, place_of_directories (lookup_of_writeFile h) hplace, ?_⟩
  rw [heq]
  exact lookup_set_self hne

theorem readFile_of_writeFile_of_ne (h : t.writeFile path text = .ok t')
    (hread : t.readFile path' = .ok content) (hname : Path.EndsWith path name)
    (hname' : Path.EndsWith path' name') (hne : name' ≠ name) :
    t'.readFile path' = .ok content := by
  obtain ⟨place, hplace, _, heq⟩ := exists_set_of_writeFile h
  obtain ⟨place', hplace', hlookup⟩ := readFile_eq_ok.mp hread
  refine readFile_eq_ok.mpr ⟨place', place_of_directories (lookup_of_writeFile h) hplace', ?_⟩
  rw [heq, lookup_set_of_ne]
  . exact hlookup
  . obtain ⟨above, rfl⟩ := place_of_endsWith hplace hname
    obtain ⟨above', rfl⟩ := place_of_endsWith hplace' hname'
    simp [hne]

theorem run_update (change : Tree → Except FileError Tree) (t : Tree) :
    (update change).run t =
      match change t with
      | .ok t' => (.ok (), t')
      | .error e => (.error e, t) := by
  unfold update
  simp only [StateT.run_bind, StateT.run_get, pure_bind]
  cases change t <;> rfl

theorem writeFile_of_run (h : (Tree.system.writeFile path text).run t = (.ok (), t')) :
    t.writeFile path text = .ok t' := by
  change (update (·.writeFile path text)).run t = _ at h
  rw [run_update] at h
  cases hwrite : t.writeFile path text with
  | error e =>
    rw [hwrite] at h
    cases h
  | ok t₁ =>
    rw [hwrite] at h
    cases h
    rfl

end Tree
end PacketPolicy
