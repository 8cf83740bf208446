import PacketPolicy.Script.Engine

namespace PacketPolicy
namespace Script

inductive ConnectError where
  | invalidFamily
  | noProgram (name : String)
  deriving DecidableEq, Repr

def ConnectError.message : ConnectError → String
  | .invalidFamily => "invalid family: IPv4"
  | .noProgram name => "exec: " ++ Text.quote name ++ ": executable file not found in $PATH"

def program : Family → String
  | .v4 => "iptables"
  | .v6 => "ip6tables"

def ConnectError.ofFamily : Option Family → ConnectError
  | none => .invalidFamily
  | some f => .noProgram (program f)

def bareHost : Host Unit where
  connect f s := (.error (ConnectError.ofFamily (some f)).message, s)
  call _ _ s := (.error "", s)

structure Tables where
  chains : List (String × List (List String))
  policies : List (String × String)
  deriving DecidableEq, Repr

namespace Tables

def rules? (t : Tables) (chain : String) : Option (List (List String)) :=
  t.chains.lookup chain

def put (key : String) (value : α) : List (String × α) → List (String × α)
  | [] => [(key, value)]
  | (k, v) :: rest => if k == key then (key, value) :: rest else (k, v) :: put key value rest

def setRules (t : Tables) (chain : String) (rules : List (List String)) : Tables :=
  { t with chains := put chain rules t.chains }

/--
The answer to a call. Rules are appended once, and only to chains that exist.
-/
def call (c : Call) (t : Tables) : Except String Bool × Tables :=
  match c with
  | .changePolicy chain target => (.ok true, { t with policies := put chain target t.policies })
  | .clearChain chain => (.ok true, t.setRules chain [])
  | .deleteChain chain => (.ok true, { t with chains := t.chains.filter (·.1 != chain) })
  | .chainExists chain => (.ok (t.rules? chain).isSome, t)
  | .appendUnique chain rule =>
    match t.rules? chain with
    | none => (.error "no such chain", t)
    | some rules =>
      (.ok true, if rules.contains rule then t else t.setRules chain (rules ++ [rule]))
  | .deleteIfExists chain rule =>
    match t.rules? chain with
    | none => (.ok true, t)
    | some rules =>
      (.ok true, if rules.contains rule then t.setRules chain (rules.erase rule) else t)

end Tables

structure HostTables where
  v4 : Tables
  v6 : Tables
  deriving DecidableEq, Repr

namespace HostTables

def tables (s : HostTables) : Family → Tables
  | .v4 => s.v4
  | .v6 => s.v6

def set (s : HostTables) (f : Family) (t : Tables) : HostTables :=
  match f with
  | .v4 => { s with v4 := t }
  | .v6 => { s with v6 := t }

def host : Host HostTables where
  connect _ s := (.ok (), s)
  call f c s :=
    let (answer, t) := (s.tables f).call c
    (answer, s.set f t)

end HostTables
end Script
end PacketPolicy
