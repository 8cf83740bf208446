import Mathlib.Data.List.TakeWhile
import PacketPolicy.Proofs.Basic
import PacketPolicy.Settings

/-!
This module contains what is known of the paths that output is written to: the last component is the
stem of the policy file with the suffix of the platform, and what stands before it depends on the
output directory alone.
-/

namespace PacketPolicy

namespace Path

structure IsName (name : String) : Prop where
  slash : '/' ∉ name.toList
  special : name ∉ ["", ".", ".."]

def Named (path : String) : Prop :=
  ∃ c ∈ path.toList, c ≠ '/'

def stem (path : String) : String :=
  let base := (base path).toList
  let extension := (extension path).toList
  String.ofList (if extension.isSuffixOf base then base.take (base.length - extension.length)
    else base)

theorem push_of_isName (h : IsName name) : push rooted path name = name :: path := by
  have hspecial := h.special
  simp only [List.mem_cons, List.not_mem_nil, or_false, not_or] at hspecial
  simp [push, hspecial]

theorem IsName.ne_empty (h : IsName name) : name ≠ "" := by
  rintro rfl
  exact h.special (by simp)

theorem components_of_not_mem (h : '/' ∉ name.toList) : components name = [name] := by
  have hsplit : name.toList.splitOn '/' = [name.toList] := by
    apply List.splitOnP_eq_singleton
    intro c hc
    simpa using ne_of_mem_of_not_mem hc h
  simp [components, hsplit]

theorem components_append_slash (directory : List Char) (h : '/' ∉ name.toList) :
    components (String.ofList (directory ++ '/' :: name.toList))
      = components (String.ofList directory) ++ [name] := by
  have hsplit : (directory ++ '/' :: name.toList).splitOn '/'
      = directory.splitOn '/' ++ name.toList.splitOn '/' :=
    List.splitOnP_append_cons directory name.toList rfl
  rw [← components_of_not_mem h]
  simp [components, hsplit]

def lead (rooted : Bool) (above : List String) : List Char :=
  (if rooted then ['/'] else [])
    ++ ((above.foldl (push rooted) []).reverse.map String.toList).flatMap (· ++ ['/'])

theorem clean_concat (hcomponents : components path = above ++ [name]) (hname : IsName name) :
    clean path = String.ofList (lead (isAbsolute path) above ++ name.toList) := by
  have hshort :
      String.intercalate "/" ((components path).foldl (push (isAbsolute path)) []).reverse =
      String.ofList
        (((above.foldl (push (isAbsolute path)) []).reverse.map String.toList).flatMap (· ++ ['/'])
        ++ name.toList) := by
    rw [hcomponents, List.foldl_append, List.foldl_cons, List.foldl_nil, push_of_isName hname,
      List.reverse_cons]
    apply String.toList_injective
    simp only [String.toList_intercalate, List.map_append, List.map_cons, List.map_nil,
      String.toList_ofList]
    exact intercalate_concat ['/'] _ _
  unfold clean
  dsimp only
  rw [hshort]
  unfold lead
  split
  . apply String.toList_injective
    simp
  . rw [if_neg]
    . simp
    . simp [hname.ne_empty]

theorem lead_cases (rooted : Bool) (above : List String) :
    lead rooted above = [] ∨ ∃ directory, lead rooted above = directory ++ ['/'] := by
  unfold lead
  cases above.foldl (push rooted) [] with
  | nil =>
    cases rooted with
    | true => exact .inr ⟨[], rfl⟩
    | false => exact .inl rfl
  | cons last rest =>
    right
    rw [List.reverse_cons, List.map_append, List.flatMap_append]
    simp only [List.map_cons, List.map_nil, List.flatMap_cons, List.flatMap_nil, List.append_nil,
      ← List.append_assoc]
    exact ⟨_, rfl⟩

theorem exists_components_lead (rooted : Bool) (above : List String) :
    ∃ front, ∀ name, IsName name →
      components (String.ofList (lead rooted above ++ name.toList)) = front ++ [name] := by
  obtain hnil | ⟨directory, hslash⟩ := lead_cases rooted above
  . refine ⟨[], fun name hname => ?_⟩
    rw [hnil, List.nil_append, String.ofList_toList]
    exact components_of_not_mem hname.slash
  . refine ⟨components (String.ofList directory), fun name hname => ?_⟩
    rw [hslash, List.append_assoc]
    exact components_append_slash directory hname.slash

theorem exists_components_join (directory : String) :
    ∃ front, ∀ name, IsName name → components (join directory name) = front ++ [name] := by
  by_cases hdirectory : directory = ""
  . subst hdirectory
    obtain ⟨front, hfront⟩ := exists_components_lead false []
    refine ⟨front, fun name hname => ?_⟩
    have hrelative : isAbsolute name = false := by
      simpa [isAbsolute] using fun hhead => hname.slash (List.mem_of_mem_head? hhead)
    have hjoin : join "" name = clean name := by
      simp [join, hname.ne_empty]
    have hcomponents : components name = [] ++ [name] := components_of_not_mem hname.slash
    rw [hjoin, clean_concat hcomponents hname, hrelative]
    exact hfront name hname
  . obtain ⟨front, hfront⟩ := exists_components_lead (isAbsolute directory) (components directory)
    refine ⟨front, fun name hname => ?_⟩
    have hpath : directory ++ "/" ++ name
        = String.ofList (directory.toList ++ '/' :: name.toList) := by
      apply String.toList_injective
      simp
    have hjoin : join directory name
        = clean (String.ofList (directory.toList ++ '/' :: name.toList)) := by
      simp [join, hdirectory, hpath]
    have hrooted : isAbsolute (String.ofList (directory.toList ++ '/' :: name.toList))
        = isAbsolute directory := by
      obtain ⟨c, cs, hcs⟩ :=
        List.exists_cons_of_ne_nil (l := directory.toList) (by simpa using hdirectory)
      simp [isAbsolute, hcs]
    have hcomponents := components_append_slash directory.toList hname.slash
    rw [String.ofList_toList] at hcomponents
    rw [hjoin, clean_concat hcomponents hname, hrooted]
    exact hfront name hname

theorem slash_not_mem_base (h : Named path) : '/' ∉ (base path).toList := by
  obtain ⟨c, hc, hslash⟩ := h
  have hne : path ≠ "" := by
    rintro rfl
    simp at hc
  unfold base
  rw [if_neg (by simpa using hne)]
  split
  . next hnil =>
    rw [List.dropWhile_eq_nil_iff] at hnil
    exact absurd (by simpa using hnil c (by simpa using hc)) hslash
  . intro hmem
    rw [String.toList_ofList, List.mem_reverse] at hmem
    simpa using List.mem_takeWhile_imp hmem

theorem slash_not_mem_stem (h : Named path) : '/' ∉ (stem path).toList := by
  have hbase := slash_not_mem_base h
  unfold stem
  dsimp only
  rw [String.toList_ofList]
  split
  . exact fun hmem => hbase (List.mem_of_mem_take hmem)
  . exact hbase

theorem named_of_isYaml (h : isYaml path = true) : Named path := by
  unfold isYaml extension at h
  dsimp only at h
  split at h
  . next hdot =>
    rw [List.contains_iff_mem] at hdot
    have hmem := (List.takeWhile_sublist _).mem hdot
    exact ⟨'.', by simpa using hmem, by decide⟩
  . simp at h

end Path

theorem Platform.length_suffix (platform : Platform) : platform.suffix.toList.length = 4 := by
  cases platform <;> rfl

theorem Platform.suffix_injective : Function.Injective Platform.suffix := by
  intro a b h
  cases a <;> cases b <;> first | rfl | exact absurd h (by decide)

namespace Settings

def outputName (policyFile : String) (platform : Platform) : String :=
  Path.stem policyFile ++ platform.suffix

theorem outputPath_eq (s : Settings) (policyFile : String) (platform : Platform) :
    s.outputPath policyFile platform.suffix = Path.join s.output (outputName policyFile platform) :=
      rfl

theorem isName_outputName (h : Path.Named policyFile) (platform : Platform) :
    Path.IsName (outputName policyFile platform) where
  slash := by
    have hsuffix : '/' ∉ platform.suffix.toList := by cases platform <;> decide
    simp [outputName, Path.slash_not_mem_stem h, hsuffix]
  special := by
    have hlength : 4 ≤ (outputName policyFile platform).toList.length := by
      rw [outputName, String.toList_append, List.length_append, platform.length_suffix]
      exact Nat.le_add_left _ _
    have hshort : ∀ name ∈ ["", ".", ".."], ¬4 ≤ name.toList.length := by decide
    exact fun hmem => hshort _ hmem hlength

theorem outputName_inj : outputName p a = outputName q b ↔ a = b ∧ Path.stem p = Path.stem q := by
  constructor
  . intro h
    have hlists : (Path.stem p).toList ++ a.suffix.toList
        = (Path.stem q).toList ++ b.suffix.toList := by
      simpa [outputName] using congrArg String.toList h
    obtain ⟨hstem, hsuffix⟩ := List.append_inj' hlists (by rw [a.length_suffix, b.length_suffix])
    exact ⟨Platform.suffix_injective (String.toList_injective hsuffix),
      String.toList_injective hstem⟩
  . rintro ⟨rfl, hstem⟩
    rw [outputName, outputName, hstem]

/--
Two files meet if they are for the same platform and their policy files have the same stem, whatever
directories these are in.
-/
theorem outputPath_inj (s : Settings) {a b : Platform} (hp : Path.Named p) (hq : Path.Named q) :
    s.outputPath p a.suffix = s.outputPath q b.suffix ↔ a = b ∧ Path.stem p = Path.stem q := by
  rw [outputPath_eq, outputPath_eq, ← outputName_inj]
  constructor
  . intro h
    obtain ⟨front, hfront⟩ := Path.exists_components_join s.output
    have hcomponents := hfront _ (isName_outputName hp a)
    rw [h, hfront _ (isName_outputName hq b)] at hcomponents
    simpa [eq_comm] using hcomponents
  . intro h
    rw [h]

end Settings
end PacketPolicy
