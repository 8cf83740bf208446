import PacketPolicy.Text.Bytes

namespace PacketPolicy
namespace Text

theorem toNat_lt (c : Char) : c.toNat < 0x110000 := by
  have := c.valid
  simp only [UInt32.isValidChar, Nat.isValidChar] at this
  show c.val.toNat < _
  omega

theorem bytesOfChar_ne_nil (c : Char) : bytesOfChar c ≠ [] := by
  unfold bytesOfChar
  dsimp only
  split
  . simp
  . split
    . simp
    . split <;> simp

/--
The first byte of a character tells how many bytes follow, so that no character is the start of
another.
-/
theorem bytesOfChar_append_inj {c d : Char} (h : bytesOfChar c ++ xs = bytesOfChar d ++ ys) :
    c = d ∧ xs = ys := by
  have hc := toNat_lt c
  have hd := toNat_lt d
  rw [← Char.toNat_inj]
  unfold bytesOfChar at h
  dsimp only at h
  -- One to four bytes on either side: the first bytes differ unless the numbers of bytes agree.
  grind

theorem flatMap_bytesOfChar_inj {cs ds : List Char}
    (h : cs.flatMap bytesOfChar = ds.flatMap bytesOfChar) :
    cs = ds := by
  induction cs generalizing ds with
  | nil =>
    cases ds with
    | nil => rfl
    | cons d ds => simp [bytesOfChar_ne_nil] at h
  | cons c cs ih =>
    cases ds with
    | nil => simp [bytesOfChar_ne_nil] at h
    | cons d ds =>
      rw [List.flatMap_cons, List.flatMap_cons] at h
      obtain ⟨rfl, hrest⟩ := bytesOfChar_append_inj h
      rw [ih hrest]

theorem bytesOfText_inj {s t : String} : bytesOfText s = bytesOfText t ↔ s = t := by
  constructor
  . intro h
    apply String.toList_injective
    exact flatMap_bytesOfChar_inj h
  . rintro rfl
    rfl

theorem length_bytesOfChar (c : Char) : (bytesOfChar c).length = c.utf8Size := by
  have hsize : c.utf8Size =
      if c.toNat < 0x80 then 1 else if c.toNat < 0x800 then 2
        else if c.toNat < 0x10000 then 3 else 4 := by
    unfold Char.utf8Size
    simp only [UInt32.le_iff_toNat_le, Nat.lt_succ_iff]
    rfl
  rw [hsize, bytesOfChar]
  grind

theorem byteSize_eq_length (cs : List Char) : byteSize cs = (cs.flatMap bytesOfChar).length := by
  induction cs with
  | nil => rfl
  | cons c cs ih => rw [byteSize, List.flatMap_cons, List.length_append, length_bytesOfChar, ih]

theorem byteSize_append (cs ds : List Char) : byteSize (cs ++ ds) = byteSize cs + byteSize ds := by
  simp only [byteSize_eq_length, List.flatMap_append, List.length_append]

theorem utf8ByteSize_ofList (cs : List Char) : (String.ofList cs).utf8ByteSize = byteSize cs := by
  induction cs with
  | nil => rfl
  | cons c cs ih =>
    rw [String.ofList_cons, String.utf8ByteSize_append, String.utf8ByteSize_singleton, ih, byteSize]

theorem utf8ByteSize_eq_byteSize (s : String) : s.utf8ByteSize = byteSize s.toList := by
  rw [← utf8ByteSize_ofList, String.ofList_toList]

theorem length_bytesOfText (s : String) : (bytesOfText s).length = s.utf8ByteSize := by
  rw [utf8ByteSize_eq_byteSize, byteSize_eq_length, bytesOfText]

theorem length_le_byteSize (cs : List Char) : cs.length ≤ byteSize cs := by
  induction cs with
  | nil => simp
  | cons c cs ih =>
    have := c.utf8Size_pos
    rw [byteSize, List.length_cons]
    omega

theorem takeBytes_prefix (n : Nat) (cs : List Char) : takeBytes n cs <+: cs := by
  induction cs generalizing n with
  | nil => simp [takeBytes]
  | cons c cs ih =>
    unfold takeBytes
    split
    . rw [List.prefix_cons_inj]
      apply ih
    . simp

theorem mem_of_mem_takeBytes (h : c ∈ takeBytes n cs) : c ∈ cs := by
  apply List.IsPrefix.subset _ h
  apply takeBytes_prefix

theorem takeBytes_eq_nil_iff (h : 4 ≤ n) : takeBytes n cs = [] ↔ cs = [] := by
  cases cs with
  | nil => simp [takeBytes]
  | cons c cs => simp [takeBytes, Nat.le_trans c.utf8Size_le_four h]

theorem byteSize_takeBytes_le (n : Nat) (cs : List Char) : byteSize (takeBytes n cs) ≤ n := by
  induction cs generalizing n with
  | nil => simp [takeBytes, byteSize]
  | cons c cs ih =>
    unfold takeBytes
    split
    . have := ih (n - c.utf8Size)
      rw [byteSize]
      omega
    . simp [byteSize]

theorem prefix_takeBytes (h : ds <+: cs) (hsize : byteSize ds ≤ n) : ds <+: takeBytes n cs := by
  induction cs generalizing ds n with
  | nil =>
    rw [List.prefix_nil.mp h]
    apply List.nil_prefix
  | cons c cs ih =>
    cases ds with
    | nil => apply List.nil_prefix
    | cons d ds =>
      obtain ⟨rfl, htail⟩ := List.cons_prefix_cons.mp h
      rw [byteSize] at hsize
      rw [takeBytes, if_pos (by omega), List.prefix_cons_inj]
      apply ih htail
      omega

theorem flatMap_bytesOfChar_prefix_iff {cs ds : List Char} :
    ds.flatMap bytesOfChar <+: cs.flatMap bytesOfChar ↔ ds <+: cs := by
  constructor
  . intro h
    induction ds generalizing cs with
    | nil => apply List.nil_prefix
    | cons d ds ih =>
      obtain ⟨rest, hrest⟩ := h
      cases cs with
      | nil => simp [bytesOfChar_ne_nil] at hrest
      | cons c cs =>
        rw [List.flatMap_cons, List.flatMap_cons, List.append_assoc] at hrest
        obtain ⟨rfl, htail⟩ := bytesOfChar_append_inj hrest
        rw [List.prefix_cons_inj]
        exact ih ⟨rest, htail⟩
  . rintro ⟨rest, rfl⟩
    rw [List.flatMap_append]
    apply List.prefix_append

structure LongestStart (n : Nat) (s t : String) : Prop where
  start : bytesOfText t <+: bytesOfText s
  fits : (bytesOfText t).length ≤ n
  longest : ∀ u, bytesOfText u <+: bytesOfText s → (bytesOfText u).length ≤ n →
    bytesOfText u <+: bytesOfText t

theorem longestStart_truncate (s : String) (n : Nat) : LongestStart n s (truncate s n) := by
  constructor <;>
    simp only [truncate, bytesOfText, String.toList_ofList, flatMap_bytesOfChar_prefix_iff,
      ← byteSize_eq_length]
  . apply takeBytes_prefix
  . apply byteSize_takeBytes_le
  . intro u hu hsize
    apply prefix_takeBytes hu hsize

/--
The start of a text up to the last boundary between its characters within `n` bytes. The bytes
before a boundary are a text by themselves.
-/
structure CutAt (n : Nat) (s t : String) (p : String.Pos.Raw) : Prop where
  boundary : p.IsValid s
  fits : p.byteIdx ≤ n
  last : ∀ q, String.Pos.Raw.IsValid s q → q.byteIdx ≤ n → q ≤ p
  bytes : t.toByteArray = s.toByteArray.extract 0 p.byteIdx

theorem extract_append_rawEndPos (s t : String) :
    (s ++ t).toByteArray.extract 0 s.rawEndPos.byteIdx = s.toByteArray := by
  rw [String.toByteArray_append]
  exact ByteArray.extract_append_eq_left rfl

theorem cutAt_truncate (s : String) (n : Nat) :
    CutAt n s (truncate s n) (truncate s n).rawEndPos := by
  obtain ⟨rest, hrest⟩ := takeBytes_prefix n s.toList
  have happend : s = truncate s n ++ String.ofList rest := by
    rw [truncate, ← String.ofList_append, hrest, String.ofList_toList]
  have hsize : (truncate s n).utf8ByteSize = byteSize (takeBytes n s.toList) :=
    utf8ByteSize_ofList _
  constructor
  . exact String.Pos.Raw.isValid_iff_exists_append.mpr ⟨_, _, happend, rfl⟩
  . rw [String.byteIdx_rawEndPos, hsize]
    apply byteSize_takeBytes_le
  . intro q hq hfits
    obtain ⟨start, more, rfl, rfl⟩ := String.Pos.Raw.isValid_iff_exists_append.mp hq
    rw [String.byteIdx_rawEndPos, utf8ByteSize_eq_byteSize] at hfits
    obtain ⟨between, hbetween⟩ :=
      prefix_takeBytes (List.prefix_append start.toList more.toList) hfits
    rw [String.Pos.Raw.le_iff, String.byteIdx_rawEndPos, String.byteIdx_rawEndPos, hsize,
      String.toList_append, ← hbetween, byteSize_append, utf8ByteSize_eq_byteSize]
    apply Nat.le_add_right
  . have hextract := extract_append_rawEndPos (truncate s n) (String.ofList rest)
    rw [← happend] at hextract
    exact hextract.symm

end Text
end PacketPolicy
