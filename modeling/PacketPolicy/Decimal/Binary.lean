namespace PacketPolicy

inductive Binary where
  | finite (negative : Bool) (mantissa : Nat) (exponent : Int)
  | infinite (negative : Bool)
  | undefined
  deriving DecidableEq, Repr

namespace Binary

def leastExponent : Int := -1074

def greatestExponent : Int := 971

def roundDiv (num den : Nat) : Nat :=
  let quotient := num / den
  let twice := 2 * (num % den)
  if den < twice || (twice == den && quotient % 2 == 1) then quotient + 1 else quotient

def scaled (num den : Nat) (e : Int) : Nat × Nat :=
  if e < 0 then (num * Nat.pow 2 (-e).toNat, den) else (num, den * Nat.pow 2 e.toNat)

def ofQuotient (negative : Bool) (num den : Nat) : Binary :=
  let guess := max ((num.log2 : Int) - den.log2 - 53) leastExponent
  let (n, d) := scaled num den guess
  let exponent := if d * Nat.pow 2 53 ≤ n then guess + 1 else guess
  let (n, d) := scaled num den exponent
  let mantissa := roundDiv n d
  let (mantissa, exponent) :=
    if mantissa == Nat.pow 2 53 then (Nat.pow 2 52, exponent + 1) else (mantissa, exponent)
  if greatestExponent < exponent then .infinite negative else .finite negative mantissa exponent

def ofDecimal (negative : Bool) (digits : Nat) (e : Int) : Binary :=
  let places : Int := (Nat.toDigits 10 digits).length + e
  if digits == 0 || places < -330 then .finite negative 0 leastExponent
  else if 310 < places then .infinite negative
  else if e < 0 then ofQuotient negative digits (Nat.pow 10 (-e).toNat)
  else ofQuotient negative (digits * Nat.pow 10 e.toNat) 1

def truncate? : Binary → Option Int
  | .finite negative mantissa exponent =>
    let n := if exponent < 0 then mantissa / Nat.pow 2 (-exponent).toNat
      else mantissa * Nat.pow 2 exponent.toNat
    some (if negative then -n else n)
  | _ => none

def notAbove : Binary → Binary → Bool
  | .undefined, _ => true
  | _, .undefined => false
  | .infinite true, _ => true
  | _, .infinite false => true
  | .infinite false, _ => false
  | _, .infinite true => false
  | .finite s m e, .finite t n f =>
    let least := min e f
    signed s (m * Nat.pow 2 (e - least).toNat) ≤ signed t (n * Nat.pow 2 (f - least).toNat)
where
  signed (negative : Bool) (n : Nat) : Int :=
    if negative then -(n : Int) else n

end Binary
end PacketPolicy
