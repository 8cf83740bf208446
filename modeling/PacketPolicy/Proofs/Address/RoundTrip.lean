import PacketPolicy.Proofs.Address.Written

namespace PacketPolicy

namespace Address

def ZeroRun (gs : List Nat) (start length : Nat) : Prop :=
  ∀ i < length, gs[start + i]? = some 0

/--
The recommended form of an IPv6 address. Every group is written in lower case without leading zeros,
and the first one of the longest runs of zero groups is left out, unless it is a single group.
-/
inductive Compressed (gs : List Nat) : List Char → Prop where
  | full : (∀ start length, ZeroRun gs start length → length ≤ 1) → Compressed gs (joined ':' 16 gs)
  | gap : 2 ≤ length → ZeroRun gs start length →
      (∀ start' length', ZeroRun gs start' length' →
        length' ≤ length ∧ (length' = length → start ≤ start')) →
      Compressed gs (joined ':' 16 (gs.take start) ++ [':', ':']
        ++ joined ':' 16 (gs.drop (start + length)))

inductive Form : Family → Nat → List Char → Prop where
  | quad : octets.length = 4 → (∀ o ∈ octets, o < 256) →
    octets.foldl (fun n o => n * 256 + o) 0 = n →
      Form .v4 n (joined '.' 10 octets)
  | groups : gs.length = 8 → (∀ g ∈ gs, g < 65536) → gs.foldl (fun n g => n * 65536 + g) 0 = n →
      Compressed gs text → Form .v6 n text

variable {gs : List Nat}

theorem le_length_takeWhile_iff :
    length ≤ (gs.takeWhile (· == 0)).length ↔ ∀ i < length, gs[i]? = some 0 := by
  induction gs generalizing length with
  | nil =>
    cases length with
    | zero => simp
    | succ length =>
      constructor
      . intro h
        exact absurd h (Nat.not_succ_le_zero length)
      . intro h
        cases h 0 (Nat.succ_pos length)
  | cons g gs ih =>
    cases length with
    | zero => simp
    | succ length =>
      rw [Nat.forall_lt_succ_left]
      by_cases hg : g = 0 <;> simp [hg, ih]

theorem zeroRun_iff : ZeroRun gs start length ↔ length ≤ zerosAt gs start := by
  rw [zerosAt, le_length_takeWhile_iff, ZeroRun]
  simp only [List.getElem?_drop]

/--
After the positions below `n`, the best run is not shorter than any run that starts at one of them,
and starts at the first position where there is none longer.
-/
theorem foldl_longestGap_first (gs : List Nat) (n : Nat) :
    let best := (List.range n).foldl
      (fun best i => if best.2 < zerosAt gs i then (i, zerosAt gs i) else best) (0, 0)
    best.1 ≤ n ∧ ∀ i < n, zerosAt gs i ≤ best.2 ∧ (zerosAt gs i = best.2 → best.1 ≤ i) := by
  induction n with
  | zero => simp
  | succ n ih =>
    rw [List.range_succ, List.foldl_append, List.foldl_cons, List.foldl_nil]
    generalize (List.range n).foldl _ _ = best at ih ⊢
    obtain ⟨hstart, hbest⟩ := ih
    dsimp only
    split
    . next hlonger =>
      refine ⟨Nat.le_succ n, fun i hi => ?_⟩
      obtain hi | rfl := Nat.lt_succ_iff_lt_or_eq.mp hi
      . have := hbest i hi
        dsimp only
        omega
      . simp
    . next hlonger =>
      refine ⟨Nat.le_succ_of_le hstart, fun i hi => ?_⟩
      obtain hi | rfl := Nat.lt_succ_iff_lt_or_eq.mp hi
      . exact hbest i hi
      . exact ⟨Nat.not_lt.mp hlonger, fun _ => hstart⟩

theorem longestGap_first (h : ZeroRun gs start length) (hpos : 0 < length) :
    length ≤ (longestGap gs).2 ∧ (length = (longestGap gs).2 → (longestGap gs).1 ≤ start) := by
  have hstart : start < gs.length := by
    obtain ⟨hlt, _⟩ := List.getElem?_eq_some_iff.mp (h 0 hpos)
    omega
  obtain ⟨hle, hfirst⟩ := (foldl_longestGap_first gs gs.length).2 start hstart
  rw [zeroRun_iff] at h
  refine ⟨Nat.le_trans h hle, fun heq => hfirst ?_⟩
  exact Nat.le_antisymm hle (heq ▸ h)

theorem zeroRun_longestGap (gs : List Nat) : ZeroRun gs (longestGap gs).1 (longestGap gs).2 :=
  zeroRun_iff.mpr (foldl_longestGap_le (List.range gs.length) (0, 0) (Nat.zero_le _))

theorem compressed_grouped (n : Nat) : Compressed (groups n) (grouped n).toList := by
  simp only [grouped]
  split
  . next hgap =>
    have hcolons : "::".toList = [':', ':'] := by simp
    rw [String.toList_append, String.toList_append, toList_joinGroups, toList_joinGroups, hcolons]
    refine .gap hgap (zeroRun_longestGap (groups n)) fun start length hrun => ?_
    rcases Nat.eq_zero_or_pos length with rfl | hpos
    . exact ⟨Nat.zero_le _, fun heq => by omega⟩
    . exact longestGap_first hrun hpos
  . next hgap =>
    rw [toList_joinGroups]
    refine .full fun start length hrun => ?_
    rcases Nat.eq_zero_or_pos length with rfl | hpos
    . exact Nat.zero_le 1
    . have := (longestGap_first hrun hpos).1
      omega

theorem form_quad (h : n < 2 ^ 32) : Form .v4 n (quad n).toList := by
  rw [toList_quad]
  refine .quad rfl ?_ ?_
  . simp only [List.forall_mem_cons, List.not_mem_nil, false_imp_iff, implies_true, and_true]
    omega
  . simp only [List.foldl_cons, List.foldl_nil]
    omega

theorem form_grouped (h : n < 2 ^ 128) : Form .v6 n (grouped n).toList :=
  .groups (length_groups n) (fun _ => lt_of_mem_groups) (ofGroups_groups h) (compressed_grouped n)

theorem readOctet_lt (h : readOctet cs = some n) : n < 256 := by
  unfold readOctet at h
  split at h
  . cases h
  . exact Nat.lt_succ_of_le (Text.readNatural_le (eq_ok_of_toOption h))

theorem readQuad_lt (h : readQuad cs = some n) : n < 2 ^ 32 := by
  unfold readQuad at h
  split at h
  . simp only [Option.bind_eq_bind, Option.bind_eq_some_iff, Option.pure_def,
      Option.some.injEq] at h
    obtain ⟨a, ha, b, hb, c, hc, d, hd, rfl⟩ := h
    have := readOctet_lt ha
    have := readOctet_lt hb
    have := readOctet_lt hc
    have := readOctet_lt hd
    omega
  . cases h

theorem readGroup_lt (h : readGroup cs = some g) : g < 65536 := by
  unfold readGroup at h
  split at h
  . exact Nat.lt_succ_of_le (Text.readNatural_le (eq_ok_of_toOption h))
  . cases h

theorem readGroups_lt (h : readGroups tail css = some gs) : ∀ g ∈ gs, g < 65536 := by
  fun_induction readGroups tail css generalizing gs with
  | case1 =>
    cases h
    simp
  | case2 last _ =>
    obtain ⟨n, hn, rfl⟩ := Option.map_eq_some_iff.mp h
    have := readQuad_lt hn
    simp only [List.forall_mem_cons, List.not_mem_nil, false_imp_iff, implies_true, and_true]
    omega
  | case3 last _ =>
    obtain ⟨g, hg, rfl⟩ := Option.map_eq_some_iff.mp h
    simpa using readGroup_lt hg
  | case4 first rest _ ih =>
    simp only [Option.bind_eq_bind, Option.bind_eq_some_iff, Option.pure_def,
      Option.some.injEq] at h
    obtain ⟨g, hg, gs, hgs, rfl⟩ := h
    exact List.forall_mem_cons.mpr ⟨readGroup_lt hg, ih hgs⟩

theorem readSide_lt (h : readSide tail cs = some gs) : ∀ g ∈ gs, g < 65536 := by
  unfold readSide at h
  split at h
  . cases h
    simp
  . exact readGroups_lt h

theorem foldl_lt (h : ∀ g ∈ gs, g < 65536) (n : Nat) :
    gs.foldl (fun n g => n * 65536 + g) n < (n + 1) * 65536 ^ gs.length := by
  induction gs generalizing n with
  | nil => simp
  | cons g gs ih =>
    rw [List.forall_mem_cons] at h
    rw [List.foldl_cons, List.length_cons, Nat.pow_succ']
    have hnext : n * 65536 + g + 1 ≤ (n + 1) * 65536 := by omega
    calc
      _ < (n * 65536 + g + 1) * 65536 ^ gs.length := ih h.2 _
      _ ≤ (n + 1) * 65536 * 65536 ^ gs.length := Nat.mul_le_mul_right _ hnext
      _ = (n + 1) * (65536 * 65536 ^ gs.length) := Nat.mul_assoc ..

theorem ofGroups_lt (hlength : gs.length = 8) (h : ∀ g ∈ gs, g < 65536) :
    ofGroups gs < 2 ^ 128 := by
  have := foldl_lt h 0
  rw [hlength] at this
  simpa [ofGroups] using this

theorem readGrouped_lt (h : readGrouped cs = some n) : n < 2 ^ 128 := by
  unfold readGrouped at h
  split at h
  . simp only [Option.bind_eq_bind, Option.bind_eq_some_iff, Option.ite_none_right_eq_some,
      Option.some.injEq] at h
    obtain ⟨gs, hgs, hlength, rfl⟩ := h
    exact ofGroups_lt hlength (readGroups_lt hgs)
  . simp only [Option.bind_eq_bind, Option.bind_eq_some_iff, Option.ite_none_right_eq_some,
      Option.some.injEq] at h
    obtain ⟨ls, hls, rs, hrs, hshort, rfl⟩ := h
    apply ofGroups_lt
    . simp only [List.length_append, List.length_replicate]
      omega
    . intro g hg
      simp only [List.mem_append, List.mem_replicate] at hg
      obtain (hg | ⟨_, rfl⟩) | hg := hg
      . exact readSide_lt hls g hg
      . decide
      . exact readSide_lt hrs g hg

end Address

namespace Prefix

theorem readAddress_lt (h : readAddress cs = some (f, n)) : n < 2 ^ f.width := by
  unfold readAddress at h
  split at h
  . obtain ⟨n, hn, heq⟩ := Option.map_eq_some_iff.mp h
    cases heq
    exact Address.readGrouped_lt hn
  . obtain ⟨n, hn, heq⟩ := Option.map_eq_some_iff.mp h
    cases heq
    exact Address.readQuad_lt hn

theorem masked_masked (p : Prefix) : p.masked.masked = p.masked :=
  masked_eq_self_iff.mpr (Nat.dvd_mul_left p.size (p.address / p.size))

theorem masked_of_length_eq {p : Prefix} (h : p.length = p.family.width) : p.masked = p := by
  rw [masked_eq_self_iff, size, hostBits, h, Nat.sub_self]
  exact Nat.one_dvd _

theorem length_ofAddress (f : Family) (n : Nat) :
    (ofAddress f n).length = (ofAddress f n).family.width := by
  unfold ofAddress
  dsimp only
  split
  . rfl
  . exact Nat.min_self _

theorem masked_of_readParts (h : readParts cs ds = some p) : p.masked = p := by
  simp only [readParts, Option.bind_eq_bind, Option.bind_eq_some_iff, Option.pure_def,
    Option.some.injEq] at h
  obtain ⟨_, _, _, _, rfl⟩ := h
  exact masked_masked _

theorem masked_of_read (h : read s = .ok p) :
    p.masked = p ∧ ('/' ∉ s.toList → p.length = p.family.width) := by
  unfold read at h
  dsimp only at h
  split at h
  . next hslash =>
    have hmem : '/' ∈ s.toList := Text.mem_of_mem_trimChars (by simpa using hslash)
    split at h
    . next hparts =>
      cases h
      exact ⟨masked_of_readParts hparts, fun hbare => absurd hmem hbare⟩
    . cases h
  . split at h
    . next f n _ =>
      cases h
      have hlength := length_ofAddress f n
      exact ⟨masked_of_length_eq hlength, fun _ => hlength⟩
    . cases h

theorem exists_form {p : Prefix} (hmapped : p.isMapped = false) :
    ∃ form, Address.Form p.family p.address form
      ∧ p.text.toList = form ++ '/' :: Nat.toDigits 10 p.length := by
  have hwritten := written_eq_self_iff.mpr hmapped
  refine ⟨p.addressText.toList, ?_, by rw [toList_text, hwritten]⟩
  have haddress : p.address < 2 ^ p.family.width := p.address_lt
  cases hfamily : p.family with
  | v4 =>
    rw [hfamily] at haddress
    simpa only [addressText, hfamily] using Address.form_quad haddress
  | v6 =>
    rw [hfamily] at haddress
    simpa [addressText, hfamily, hmapped] using Address.form_grouped haddress

/--
Reading is the inverse of writing. A prefix without host bits that does not stand for one of IPv4 is
written in the form of its family, with its length behind a slash, and read back as it is. Whatever
is read is a prefix without host bits, a bare address has full length, and no address that is read
is too large for its family.
-/
theorem read_inverts_text :
    (∀ p : Prefix, p.masked = p → p.isMapped = false →
        (∃ form, Address.Form p.family p.address form
          ∧ p.text.toList = form ++ '/' :: Nat.toDigits 10 p.length)
        ∧ read p.text = .ok p)
      ∧ (∀ s p, read s = .ok p → p.masked = p ∧ ('/' ∉ s.toList → p.length = p.family.width))
      ∧ ∀ cs f n, readAddress cs = some (f, n) → n < 2 ^ f.width := by
  refine ⟨fun p hclear hmapped => ⟨exists_form hmapped, ?_⟩, fun s p => masked_of_read,
    fun cs f n => readAddress_lt⟩
  rw [read_text hclear, written_eq_self_iff.mpr hmapped]

def tiedPrefix : Prefix := .ofNat .v6 0x20010000000000010000000000010000 112

theorem read_inverts_text_tiedPrefix :
    (tiedPrefix.masked = tiedPrefix ∧ tiedPrefix.isMapped = false
      ∧ tiedPrefix.text = "2001::1:0:0:1:0/112"
        ∧ (∃ form, Address.Form .v6 tiedPrefix.address form
          ∧ tiedPrefix.text.toList = form ++ '/' :: Nat.toDigits 10 112)
        ∧ read "2001::1:0:0:1:0/112" = .ok tiedPrefix)
      ∧ ∃ p, read " ::FFFF:10.9.8.7\t" = .ok p ∧ p.masked = p ∧ p.family = .v4 ∧ p.length = 32 := by
  have hclear : tiedPrefix.masked = tiedPrefix := by decide +kernel
  have hmapped : tiedPrefix.isMapped = false := by decide
  have htext : tiedPrefix.text = "2001::1:0:0:1:0/112" := by decide +kernel
  obtain ⟨hform, hread⟩ := read_inverts_text.1 tiedPrefix hclear hmapped
  rw [htext] at hread
  refine ⟨⟨hclear, hmapped, htext, hform, hread⟩, ?_⟩
  obtain ⟨p, hp, hfamily⟩ :=
    exists_ok_of_any (x := read " ::FFFF:10.9.8.7\t") (p := fun p => p.family == .v4)
    (by decide +kernel)
  have hfamily : p.family = .v4 := by simpa using hfamily
  obtain ⟨hclear', hfull⟩ := read_inverts_text.2.1 _ _ hp
  have hlength := hfull (by decide)
  rw [hfamily] at hlength
  exact ⟨p, hp, hclear', hfamily, hlength⟩

end Prefix
end PacketPolicy
