import PacketPolicy.Address.Family
import PacketPolicy.Address.Text
import PacketPolicy.Text.Blank
import PacketPolicy.Text.Quoted

namespace PacketPolicy

structure Prefix where
  family : Family
  address : Nat
  length : Nat
  address_lt : address < Nat.pow 2 family.width
  length_le : length ≤ family.width
  deriving DecidableEq, Repr

namespace Prefix

/--
The prefix for an address and a length, both cut down to what the family has room for.
-/
def ofNat (f : Family) (address length : Nat) : Prefix where
  family := f
  address := address % Nat.pow 2 f.width
  length := min length f.width
  address_lt := Nat.mod_lt _ (Nat.two_pow_pos _)
  length_le := Nat.min_le_right _ _

def all (f : Family) : Prefix :=
  ⟨f, 0, 0, Nat.two_pow_pos _, Nat.zero_le _⟩

def isAll (p : Prefix) : Bool :=
  p.length == 0

def hostBits (p : Prefix) : Nat :=
  p.family.width - p.length

def size (p : Prefix) : Nat :=
  Nat.pow 2 p.hostBits

def masked (p : Prefix) : Prefix :=
  { p with
    address := p.address / p.size * p.size
    address_lt := Nat.lt_of_le_of_lt (Nat.div_mul_le_self _ _) p.address_lt }

/--
Whether the address lies in the block of IPv6 that stands for IPv4, which is written as a dotted
quad.
-/
def isMapped (p : Prefix) : Bool :=
  p.family == .v6 && p.address / Nat.pow 2 32 == 0xFFFF

def addressText (p : Prefix) : String :=
  match p.family with
  | .v4 => Address.quad p.address
  | .v6 => if p.isMapped then Address.quad (p.address % Nat.pow 2 32) else Address.grouped p.address

def text (p : Prefix) : String :=
  let length := if p.isMapped then p.length - 96 else p.length
  p.addressText ++ "/" ++ toString length

inductive ReadError where
  | badAddress (text : String)
  | badPrefix (text : String)
  deriving DecidableEq, Repr

def ReadError.message : ReadError → String
  | .badAddress text => "invalid address " ++ Text.quote text
  | .badPrefix text => "invalid prefix " ++ Text.quote text ++ ": invalid CIDR address: " ++ text

def readAddress (cs : List Char) : Option (Family × Nat) :=
  if cs.contains ':' then (Address.readGrouped cs).map fun n => (.v6, n)
  else (Address.readQuad cs).map fun n => (.v4, n)

def ofAddress (f : Family) (n : Nat) : Prefix :=
  let p := ofNat f n f.width
  if p.isMapped then ofNat .v4 (n % Nat.pow 2 32) 32 else p

def readParts (address length : List Char) : Option Prefix := do
  let (f, n) ← readAddress address
  let l ← (Text.readNatural 10 f.width length).toOption
  return masked (ofNat f n l)

def read (s : String) : Except ReadError Prefix :=
  let cs := Text.trimChars s.toList
  if cs.contains '/' then
    match readParts (cs.takeWhile (· != '/')) ((cs.dropWhile (· != '/')).drop 1) with
    | some p => .ok p
    | none => .error (.badPrefix (String.ofList cs))
  else
    match readAddress cs with
    | some (f, n) => .ok (ofAddress f n)
    | none => .error (.badAddress (String.ofList cs))

end Prefix
end PacketPolicy
