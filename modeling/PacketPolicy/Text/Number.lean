/-!
This module contains the reading of whole numbers. Characters are taken from left to right and the
first offence decides the error: a character that is no digit, or a value beyond the limit.
-/

namespace PacketPolicy
namespace Text

def maxNatural : Nat := 18446744073709551615

def maxInteger : Int := 9223372036854775807

def minInteger : Int := -9223372036854775808

inductive NumberError where
  | malformed
  | outOfRange
  deriving DecidableEq, Repr

def NumberError.message : NumberError → String
  | .malformed => "invalid syntax"
  | .outOfRange => "value out of range"

def digitValue (c : Char) : Option Nat :=
  if '0' ≤ c ∧ c ≤ '9' then some (c.toNat - '0'.toNat)
  else if 'a' ≤ c ∧ c ≤ 'z' then some (c.toNat - 'a'.toNat + 10)
  else if 'A' ≤ c ∧ c ≤ 'Z' then some (c.toNat - 'A'.toNat + 10)
  else none

def readDigits (base limit : Nat) : Nat → List Char → Except NumberError Nat
  | n, [] => .ok n
  | n, c :: cs =>
    match digitValue c with
    | none => .error .malformed
    | some d =>
      if base ≤ d then .error .malformed
      else if limit < n * base + d then .error .outOfRange
      else readDigits base limit (n * base + d) cs

def readNatural (base limit : Nat) : List Char → Except NumberError Nat
  | [] => .error .malformed
  | cs => readDigits base limit 0 cs

theorem readDigits_le (hm : m ≤ limit) (h : readDigits base limit m cs = .ok n) : n ≤ limit := by
  fun_induction readDigits base limit m cs with
  | case1 m =>
    cases h
    exact hm
  | case2 | case3 | case4 => cases h
  | case5 m c cs d _ _ hle ih => exact ih (Nat.not_lt.mp hle) h

theorem readNatural_le (h : readNatural base limit cs = .ok n) : n ≤ limit := by
  unfold readNatural at h
  split at h
  . cases h
  . exact readDigits_le (Nat.zero_le limit) h

/--
Splits the mark of the base off a number: `0x`, `0o` and `0b` stand before sixteen, eight and two, a
leading zero alone stands before eight.
-/
def splitBase : List Char → Nat × List Char
  | '0' :: m :: d :: cs =>
    if m == 'x' || m == 'X' then (16, d :: cs)
    else if m == 'o' || m == 'O' then (8, d :: cs)
    else if m == 'b' || m == 'B' then (2, d :: cs)
    else (8, m :: d :: cs)
  | '0' :: cs => (8, cs)
  | cs => (10, cs)

def readMarked (limit : Nat) (cs : List Char) : Except NumberError Nat :=
  match cs with
  | [] => .error .malformed
  | cs =>
    let (base, digits) := splitBase cs
    readDigits base limit 0 digits

/--
A number with an optional sign, within 64 bits. What follows the sign is read as a number without
sign first, so a character that is no digit counts before the range of the signed number.
-/
def readSigned (read : List Char → Except NumberError Nat) (cs : List Char) :
    Except NumberError Int :=
  match cs with
  | '-' :: cs =>
    read cs >>= fun n => if minInteger ≤ -(n : Int) then .ok (-(n : Int)) else .error .outOfRange
  | '+' :: cs => read cs >>= nonnegative
  | cs => read cs >>= nonnegative
where
  nonnegative (n : Nat) : Except NumberError Int :=
    if (n : Int) ≤ maxInteger then .ok n else .error .outOfRange

def readInteger (cs : List Char) : Except NumberError Int :=
  readSigned (readMarked maxNatural) cs

inductive Mark where
  | start
  | digit
  | separator
  | other
  deriving DecidableEq

def separatorsAllowed (cs : List Char) : Bool :=
  let cs := match cs with
    | '-' :: cs => cs
    | '+' :: cs => cs
    | cs => cs
  match cs with
  | '0' :: m :: rest =>
    if m == 'x' || m == 'X' then go true .digit rest
    else if m == 'o' || m == 'O' || m == 'b' || m == 'B' then go false .digit rest
    else go false .start cs
  | cs => go false .start cs
where
  go (hex : Bool) : Mark → List Char → Bool
    | last, [] => last != .separator
    | last, c :: cs =>
      if c.isDigit || (hex && (digitValue c).any (· < 16)) then go hex .digit cs
      else if c == '_' then last == .digit && go hex .separator cs
      else last != .separator && go hex .other cs

def readSeparated (cs : List Char) : Except NumberError Int :=
  readSigned natural cs
where
  natural (cs : List Char) : Except NumberError Nat := do
    let n ← readMarked maxNatural (cs.filter (· != '_'))
    if cs.contains '_' && !separatorsAllowed cs then .error .malformed else .ok n

end Text
end PacketPolicy
