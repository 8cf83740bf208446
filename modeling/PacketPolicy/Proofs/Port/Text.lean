import PacketPolicy.Proofs.Address.Text
import PacketPolicy.Proofs.Port.Canonical

/-!
This module contains the reading of lists of ports as the packet filter does it, with colons in
ranges and commas between them, and the proof that written lists are read back.
-/

namespace PacketPolicy
namespace PortRange

open Address (joined splitOn_joined)
open Text (forall_mem_toDigits readNatural readNatural_toDigits)

def readEntry (cs : List Char) : Option PortRange :=
  match cs.splitOn ':' with
  | [port] => (readPort cs port).toOption.map single
  | [low, high] => do
    let low ← (readPort cs low).toOption
    let high ← (readPort cs high).toOption
    return ⟨low, high⟩
  | _ => none

def entries (list : String) : List (List Char) :=
  list.toList.splitOn ','

def readList (list : String) : Option (List PortRange) :=
  (entries list).mapM readEntry

theorem readPort_eq_ok : readPort range port = .ok n ↔ readNatural 10 maxPort port = .ok n.val := by
  unfold readPort
  split
  . next hread => simp [hread, Fin.ext_iff]
  . next hread => simp [hread]

theorem readPort_toDigits (range : List Char) (n : Fin 65536) :
    readPort range (Nat.toDigits 10 n.val) = .ok n := by
  rw [readPort_eq_ok]
  exact readNatural_toDigits (by decide) (by decide) (Nat.le_of_lt_succ n.isLt)

theorem toList_textWith (r : PortRange) :
    (r.textWith ":").toList = joined ':' 10
      (if r.isSingle then [r.low.val] else [r.low.val, r.high.val]) := by
  have htext (n : Fin 65536) : toString n = toString n.val := rfl
  unfold textWith
  split <;> simp [joined, htext]

theorem readEntry_textWith (r : PortRange) : readEntry (r.textWith ":").toList = some r := by
  unfold readEntry
  generalize htext : (r.textWith ":").toList = cs
  rw [← htext, toList_textWith,
    splitOn_joined (by decide) (by decide) (by decide) (by split <;> simp)]
  by_cases hsingle : r.isSingle = true
  . have hends : r.low = r.high := by simpa [isSingle] using hsingle
    rw [if_pos hsingle]
    simp only [List.map_cons, List.map_nil, readPort_toDigits, Except.toOption, Option.map_some,
      single, Option.some.injEq]
    exact congrArg (PortRange.mk r.low) hends
  . rw [if_neg hsingle]
    simp only [List.map_cons, List.map_nil, readPort_toDigits]
    rfl

theorem comma_not_mem_textWith (r : PortRange) : ',' ∉ (r.textWith ":").toList := by
  rw [toList_textWith, joined]
  intro hmem
  obtain hmem | ⟨cs, hcs, hmem⟩ := mem_intercalate hmem
  . simp at hmem
  . obtain ⟨n, -, rfl⟩ := List.mem_map.mp hcs
    exact forall_mem_toDigits (P := (· ≠ ',')) (by decide) (by decide) (by decide) n _ hmem rfl

theorem entries_joinText (hne : rs ≠ []) :
    entries (joinText ":" rs) = rs.map fun r => (r.textWith ":").toList := by
  unfold entries joinText
  rw [String.toList_intercalate, List.map_map]
  apply List.splitOn_intercalate
  . rw [List.forall_mem_map]
    exact fun r _ => comma_not_mem_textWith r
  . simpa using hne

theorem mapM_readEntry (rs : List PortRange) :
    (rs.map fun r => (r.textWith ":").toList).mapM readEntry = some rs := by
  induction rs with
  | nil => rfl
  | cons r rs ih =>
    rw [List.map_cons, List.mapM_cons, readEntry_textWith, ih]
    rfl

theorem readList_joinText (hne : rs ≠ []) : readList (joinText ":" rs) = some rs := by
  unfold readList
  rw [entries_joinText hne]
  exact mapM_readEntry rs

end PortRange
end PacketPolicy
