import PacketPolicy.Calendar.Date

/-!
This module contains the classes of expiration dates. They are decided by calendar days, so that
what expires today is still in force.
-/

namespace PacketPolicy

inductive Expiry where
  | notExpiring
  | expiring
  | expired
  deriving DecidableEq, Repr

def Expiry.secondCounts : Nat := 18446744073709551616

/--
The second at which the last day of a window of `weeks` weeks starts. Seconds are counted in 64
bits, so that the count of a window that is too long for them goes round.
-/
def Expiry.windowEnd (now : Moment) (weeks : Int) : Int :=
  Int.bmod ((now.day + 7 * weeks) * 86400) secondCounts

def Expiry.classify (expiration : Option Moment) (now : Moment) (weeks : Int) : Expiry :=
  match expiration with
  | none => .notExpiring
  | some e =>
    if e.day < now.day then .expired
    else if e.day * 86400 ≤ windowEnd now weeks then .expiring
    else .notExpiring

end PacketPolicy
