import PacketPolicy.Calendar.Date
import PacketPolicy.Text.Bytes

namespace PacketPolicy
namespace Date

inductive ReadError where
  | unexpected (text rest expected : String)
  | monthOutOfRange (text : String)
  | dayOutOfRange (text : String)
  | extra (text rest : String)
  deriving DecidableEq, Repr

/--
The text between quotes, with every byte beyond ASCII and every control character as two hexadecimal
digits.
-/
def quoteBytes (s : String) : String :=
  String.ofList ('"' :: s.toList.flatMap quoted ++ ['"'])
where
  quoted (c : Char) : List Char :=
    if c.toNat < 0x20 || 0x80 ≤ c.toNat then
      (Text.bytesOfChar c).flatMap fun b => '\\' :: 'x' :: Text.hexDigits 2 b
    else if c == '"' || c == '\\' then ['\\', c]
    else [c]

def layout : String := "2006-1-2"

def ReadError.message : ReadError → String
  | .unexpected text rest expected =>
    "parsing time " ++ quoteBytes text ++ " as " ++ quoteBytes layout ++ ": cannot parse "
      ++ quoteBytes rest
      ++ " as " ++ quoteBytes expected
  | .monthOutOfRange text => "parsing time " ++ quoteBytes text ++ ": month out of range"
  | .dayOutOfRange text => "parsing time " ++ quoteBytes text ++ ": day out of range"
  | .extra text rest => "parsing time " ++ quoteBytes text ++ ": extra text: " ++ quoteBytes rest

def digit (c : Char) : Nat :=
  c.toNat - '0'.toNat

def takeYear : List Char → Option (Nat × List Char)
  | a :: b :: c :: d :: cs =>
    if a.isDigit && b.isDigit && c.isDigit && d.isDigit then
      some (digit a * 1000 + digit b * 100 + digit c * 10 + digit d, cs)
    else none
  | _ => none

def takeNumber : List Char → Option (Nat × List Char)
  | a :: b :: cs =>
    if !a.isDigit then none
    else if b.isDigit then some (digit a * 10 + digit b, cs)
    else some (digit a, b :: cs)
  | [a] => if a.isDigit then some (digit a, []) else none
  | [] => none

def takeTwo : List Char → Option (Nat × List Char)
  | a :: b :: cs => if a.isDigit && b.isDigit then some (digit a * 10 + digit b, cs) else none
  | _ => none

def takeMark (mark : Char) : List Char → Option (List Char)
  | c :: cs => if c == mark then some cs else none
  | [] => none

def expect (text : String) (rest : List Char) (expected : String) (found : Option α) :
    Except ReadError α :=
  match found with
  | some a => .ok a
  | none => .error (.unexpected text (String.ofList rest) expected)

def read (s : String) : Except ReadError Date := do
  let cs := s.toList
  let (year, cs) ← expect s cs "2006" (takeYear cs)
  let cs ← expect s cs "-" (takeMark '-' cs)
  let (month, cs) ← expect s cs "1" (takeNumber cs)
  if month < 1 || 12 < month then .error (.monthOutOfRange s)
  else
    let cs ← expect s cs "-" (takeMark '-' cs)
    let (day, cs) ← expect s cs "2" (takeNumber cs)
    if !cs.isEmpty then .error (.extra s (String.ofList cs))
    else if h : isValid year month day then .ok ⟨year, month, day, h⟩
    else .error (.dayOutOfRange s)

end Date

namespace Moment

/--
The digits of a fraction of a second as nanoseconds; digits beyond the ninth are dropped.
-/
def takeFraction : List Char → Nat × List Char
  | mark :: d :: cs =>
    if (mark == '.' || mark == ',') && d.isDigit then
      let digits := (d :: cs).takeWhile Char.isDigit
      let nine := (digits ++ List.replicate 9 '0').take 9
      (nine.foldl (fun n c => n * 10 + Date.digit c) 0, (d :: cs).dropWhile Char.isDigit)
    else (0, mark :: d :: cs)
  | cs => (0, cs)

def readOffset : List Char → Option Int
  | ['Z'] => some 0
  | sign :: a :: b :: ':' :: c :: d :: [] => do
    let (hours, _) ← Date.takeTwo [a, b]
    let (minutes, _) ← Date.takeTwo [c, d]
    if 24 < hours || 60 < minutes then none
    else
      let seconds : Int := hours * 3600 + minutes * 60
      if sign == '+' then some seconds
      else if sign == '-' then some (-seconds)
      else none
  | _ => none

def read? (s : String) : Option Moment := do
  let (year, cs) ← Date.takeYear s.toList
  let (month, cs) ← Date.takeTwo (← Date.takeMark '-' cs)
  let (day, cs) ← Date.takeTwo (← Date.takeMark '-' cs)
  let (hour, cs) ← Date.takeNumber (← Date.takeMark 'T' cs)
  let (minute, cs) ← Date.takeTwo (← Date.takeMark ':' cs)
  let (second, cs) ← Date.takeTwo (← Date.takeMark ':' cs)
  let (nanoseconds, cs) := takeFraction cs
  let offset ← readOffset cs
  if h : Date.isValid year month day then
    if 23 < hour || 59 < minute || 59 < second then none
    else
      let days := Date.toDays ⟨year, month, day, h⟩
      return ⟨days * 86400 + hour * 3600 + minute * 60 + second - offset, nanoseconds, offset⟩
  else none

def readDay? (s : String) : Option Moment := do
  let (year, cs) ← Date.takeYear s.toList
  let (month, cs) ← Date.takeTwo (← Date.takeMark '-' cs)
  let (day, cs) ← Date.takeTwo (← Date.takeMark '-' cs)
  if h : Date.isValid year month day then
    if cs.isEmpty then return ofDate ⟨year, month, day, h⟩ else none
  else none

end Moment
end PacketPolicy
