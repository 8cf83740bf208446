import PacketPolicy.Decimal.Binary

namespace PacketPolicy
namespace Binary

structure Digits where
  digits : Nat
  power : Int
  deriving DecidableEq, Repr

def decimalLength (n : Nat) : Nat :=
  (Nat.toDigits 10 n).length

def leadingPower (num den : Nat) : Int :=
  if den ≤ num then (decimalLength (num / den) : Int) - 1
  else -(decimalLength ((den + num - 1) / num - 1) : Int)

def tenScaled (num den : Nat) (e : Int) : Nat × Nat :=
  if e < 0 then (num * Nat.pow 10 (-e).toNat, den) else (num, den * Nat.pow 10 e.toNat)

def hits (closed : Bool) (low high : Nat) (num den candidate : Nat) : Bool :=
  let c := candidate * den
  if closed then low * num ≤ c && c ≤ high * num else low * num < c && c < high * num

def candidates (value num den : Nat) : List Nat :=
  let below := value * num / den
  let rest := value * num % den
  if 2 * rest < den || (2 * rest == den && below % 2 == 0) then [below, below + 1]
  else [below + 1, below]

def shortest (mantissa : Nat) (exponent : Int) : Digits :=
  let value := 4 * mantissa
  let low := if mantissa == Nat.pow 2 52 && leastExponent < exponent then value - 1 else value - 2
  let (num, den) := scaled 1 1 (2 - exponent)
  let power := leadingPower (value * num) den
  go value low (value + 2) num den power 17 1
where
  go (value low high num den : Nat) (power : Int) : Nat → Nat → Digits
    | 0, count => ⟨value * num / den, power - count + 1⟩
    | fuel + 1, count =>
      let (n, d) := tenScaled num den (power - count + 1)
      match (candidates value n d).find? (hits (mantissa % 2 == 0) low high n d) with
      | some c => if c == Nat.pow 10 count then ⟨1, power + 1⟩ else ⟨c, power⟩
      | none => go value low high num den power fuel (count + 1)

def exponentText (power : Int) : String :=
  let digits := String.ofList (Nat.toDigits 10 power.natAbs)
  (if power < 0 then "e-" else "e+") ++ (if digits.length < 2 then "0" ++ digits else digits)

def zeros (n : Nat) : List Char :=
  List.replicate n '0'

def Digits.text (x : Digits) : String :=
  let ds := Nat.toDigits 10 x.digits
  if x.power < -4 || 6 ≤ x.power then
    String.ofList (ds.take 1 ++ (if ds.length ≤ 1 then [] else '.' :: ds.drop 1))
      ++ exponentText x.power
  else if x.power < 0 then String.ofList ('0' :: '.' :: zeros (-x.power - 1).toNat ++ ds)
  else
    let whole := x.power.toNat + 1
    if ds.length ≤ whole then String.ofList (ds ++ zeros (whole - ds.length))
    else String.ofList (ds.take whole ++ '.' :: ds.drop whole)

def text : Binary → String
  | .finite negative mantissa exponent =>
    (if negative then "-" else "")
      ++ (if mantissa == 0 then "0" else (shortest mantissa exponent).text)
  | .infinite negative => if negative then "-Inf" else "+Inf"
  | .undefined => "NaN"

end Binary
end PacketPolicy
