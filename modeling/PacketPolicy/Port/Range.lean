import PacketPolicy.Text.Blank
import PacketPolicy.Text.Number
import PacketPolicy.Text.Quoted

namespace PacketPolicy

/--
The ports from `low` to `high`, both included. There are none if the ends are in the wrong order.
-/
structure PortRange where
  low : Fin 65536
  high : Fin 65536
  deriving DecidableEq, Repr, Inhabited

namespace PortRange

def maxPort : Nat := 65535

/--
The range between two numbers, of which the last sixteen bits count.
-/
def ofNat (low high : Nat) : PortRange where
  low := ⟨low % 65536, Nat.mod_lt _ (by decide)⟩
  high := ⟨high % 65536, Nat.mod_lt _ (by decide)⟩

def single (port : Fin 65536) : PortRange :=
  ⟨port, port⟩

def isSingle (r : PortRange) : Bool :=
  r.low == r.high

def contains (r : PortRange) (port : Nat) : Bool :=
  r.low ≤ port && port ≤ r.high

def textWith (mark : String) (r : PortRange) : String :=
  if r.isSingle then toString r.low else toString r.low ++ mark ++ toString r.high

def text (r : PortRange) : String :=
  r.textWith "-"

inductive ReadError where
  | badPort (range port : String) (cause : Text.NumberError)
  | reversed (range : String)
  deriving DecidableEq, Repr

def ReadError.message : ReadError → String
  | .badPort range port cause =>
    "invalid port " ++ Text.quote range ++ ": strconv.ParseUint: parsing "
      ++ Text.quote port ++ ": "
      ++ cause.message
  | .reversed range => "invalid port range " ++ Text.quote range ++ ": low port above high port"

def readPort (range port : List Char) : Except ReadError (Fin 65536) :=
  match h : Text.readNatural 10 maxPort port with
  | .ok n => .ok ⟨n, Nat.lt_succ_of_le (Text.readNatural_le h)⟩
  | .error e => .error (.badPort (String.ofList range) (String.ofList port) e)

def splitEnds (cs : List Char) : List Char × List Char :=
  if cs.contains '-' then (cs.takeWhile (· != '-'), (cs.dropWhile (· != '-')).drop 1) else (cs, cs)

def read (s : String) : Except ReadError PortRange := do
  let cs := Text.trimChars s.toList
  let (lo, hi) := splitEnds cs
  let low ← readPort cs lo
  let high ← readPort cs hi
  if high < low then .error (.reversed (String.ofList cs)) else .ok ⟨low, high⟩

def before (a b : PortRange) : Bool :=
  a.low < b.low || (a.low == b.low && a.high ≤ b.high)

def mergeFrom : PortRange → List PortRange → List PortRange
  | last, [] => [last]
  | last, r :: rs =>
    if r.low.val ≤ last.high.val + 1 then
      mergeFrom ⟨last.low, if last.high < r.high then r.high else last.high⟩ rs
    else last :: mergeFrom r rs

def collapse (rs : List PortRange) : List PortRange :=
  match rs.mergeSort before with
  | [] => []
  | r :: rs => mergeFrom r rs

/--
The number of entries of a clause with several ports. The packet filter takes fifteen.
-/
def maxEntries : Nat := 14

def groups (size : Nat) (rs : List α) : List (List α) :=
  if _h : 0 < size ∧ rs ≠ [] then rs.take size :: groups size (rs.drop size) else []
termination_by rs.length
decreasing_by
  have := List.length_pos_iff.mpr _h.2
  simp only [List.length_drop]
  omega

/--
As `groups`, where a size that is not positive stands for `maxEntries`.
-/
def chunk (size : Int) (rs : List PortRange) : List (List PortRange) :=
  groups (if size ≤ 0 then maxEntries else size.toNat) rs

def joinText (mark : String) (rs : List PortRange) : String :=
  String.intercalate "," (rs.map (textWith mark))

end PortRange
end PacketPolicy
