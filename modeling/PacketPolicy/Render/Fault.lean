namespace PacketPolicy

inductive FaultKind where
  | unsupportedFilter
  | termNameTooLong
  | established
  | badPorts
  | notImplemented
  | duplicateTerm
  | unsupportedTargetOption
  | unnamed (code : Int)
  deriving DecidableEq, Repr

namespace FaultKind

def named : List FaultKind :=
  [.unsupportedFilter, .termNameTooLong, .established, .badPorts, .notImplemented, .duplicateTerm,
    .unsupportedTargetOption]

def word : FaultKind → String
  | .unsupportedFilter => "unsupported filter"
  | .termNameTooLong => "term name too long"
  | .established => "established"
  | .badPorts => "bad ports"
  | .notImplemented => "not implemented"
  | .duplicateTerm => "duplicate term"
  | .unsupportedTargetOption => "unsupported target option"
  | .unnamed code => "Kind(" ++ toString code ++ ")"

def ofCode (code : Int) : FaultKind :=
  match code with
  | 1 => .unsupportedFilter
  | 2 => .termNameTooLong
  | 3 => .established
  | 4 => .badPorts
  | 5 => .notImplemented
  | 6 => .duplicateTerm
  | 7 => .unsupportedTargetOption
  | code => .unnamed code

end FaultKind

/--
A fault names the place where it arose as far as it is known, the feature that caused it, and
details. Unknown parts are empty.
-/
structure Fault where
  kind : FaultKind
  platform : String := ""
  filter : String := ""
  term : String := ""
  feature : String := ""
  detail : String := ""
  deriving DecidableEq, Repr

namespace Fault

def part (lead value : String) : String :=
  if value == "" then "" else lead ++ value

def message (e : Fault) : String :=
  e.kind.word ++ part ": " e.platform ++ part " filter " e.filter ++ part " term " e.term
    ++ part ": " e.feature ++ part ": " e.detail

def annotate (platform filter : String) (e : Fault) : Fault :=
  { e with
    platform := if e.platform == "" then platform else e.platform
    filter := if e.filter == "" then filter else e.filter }

end Fault
end PacketPolicy
