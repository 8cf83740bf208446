namespace PacketPolicy
namespace Log

inductive Level where
  | debug
  | info
  | warning
  deriving DecidableEq, Repr

def Level.word : Level → String
  | .debug => "debug"
  | .info => "info"
  | .warning => "warning"

inductive Value where
  | text (s : String)
  | number (n : Nat)
  deriving DecidableEq, Repr

structure Entry where
  level : Level
  message : String
  fields : List (String × Value)
  deriving DecidableEq, Repr

def Entry.within (name value : String) (e : Entry) : Entry :=
  { e with fields := (name, .text value) :: e.fields }

end Log
end PacketPolicy
