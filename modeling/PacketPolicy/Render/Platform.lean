import PacketPolicy.Iptables.Document
import PacketPolicy.Ipsec.Document

namespace PacketPolicy

inductive Platform where
  | iptables
  | ipsec
  deriving DecidableEq, Repr

namespace Platform

def all : List Platform :=
  [.iptables, .ipsec]

def name : Platform → String
  | .iptables => Iptables.platform
  | .ipsec => Ipsec.platform

def suffix : Platform → String
  | .iptables => Iptables.suffix
  | .ipsec => Ipsec.suffix

def ofName? (name : String) : Option Platform :=
  all.find? (·.name == name)

/--
Every name stands for one platform, so a second registration of a name is refused.
-/
inductive RegisterError where
  | twice (name : String)
  deriving DecidableEq, Repr

def RegisterError.message : RegisterError → String
  | .twice name => "platform " ++ name ++ " registered twice"

def register (name : String) : Except RegisterError Unit :=
  if (ofName? name).isSome then .error (.twice name) else .ok ()

end Platform

inductive Document where
  | iptables (d : Iptables.Document)
  | ipsec (d : Ipsec.Document)
  deriving Repr

namespace Document

def ofPolicy (platform : Platform) (clock : Clock) (p : Policy) : Traced Fault Document :=
  match platform with
  | .iptables => do return .iptables (← Iptables.Document.ofPolicy clock p)
  | .ipsec => do return .ipsec (← Ipsec.Document.ofPolicy clock p)

def platform : Document → Platform
  | .iptables _ => .iptables
  | .ipsec _ => .ipsec

def setTarget (target action : String) : Document → Document
  | .iptables d => .iptables (d.setTarget target action)
  | .ipsec d => .ipsec (d.setTarget target)

def setTargetLog (target : String) : Document → List Log.Entry
  | .iptables d => d.setTargetLog target
  | .ipsec _ => []

def render : Document → Except Fault String
  | .iptables d => d.render
  | .ipsec d => d.render

def summary : Document → String
  | .iptables d => d.summary
  | .ipsec d => d.summary

end Document
end PacketPolicy
