import PacketPolicy.Text.Csv
import PacketPolicy.Text.Number
import PacketPolicy.Text.Quoted

namespace PacketPolicy

inductive Command where
  | apply
  | completion
  | help
  | inspect
  | render
  | revert
  deriving DecidableEq, Repr

inductive Flag where
  | debug
  | logLevel
  | help
  | config
  | definitions
  | policy
  | output
  | expInfo
  | platform
  | dryRun
  | chain
  | defaultAction
  | file
  | noDescriptions
  deriving DecidableEq, Repr

inductive Shell where
  | bash
  | fish
  | powershell
  | zsh
  deriving DecidableEq, Repr

namespace Flag

def name : Flag → String
  | .debug => "debug"
  | .logLevel => "log-level"
  | .help => "help"
  | .config => "config"
  | .definitions => "definitions"
  | .policy => "policy"
  | .output => "output"
  | .expInfo => "exp-info"
  | .platform => "platform"
  | .dryRun => "dry-run"
  | .chain => "chain"
  | .defaultAction => "default-action"
  | .file => "file"
  | .noDescriptions => "no-descriptions"

def letter? : Flag → Option Char
  | .debug => some 'd'
  | .help => some 'h'
  | .config => some 'c'
  | .policy => some 'p'
  | .output => some 'o'
  | .dryRun => some 'n'
  | .file => some 'f'
  | _ => none

/--
The value of a flag that is given without one. All other flags need a value.
-/
def implied? : Flag → Option String
  | .debug => some "+1"
  | .help => some "true"
  | .dryRun => some "true"
  | .noDescriptions => some "true"
  | _ => none

def valueWord? : Flag → Option String
  | .debug => some "count"
  | .logLevel | .config | .definitions | .output | .chain | .defaultAction => some "string"
  | .expInfo => some "int"
  | .policy | .platform | .file => some "strings"
  | .help | .dryRun | .noDescriptions => none

def title (f : Flag) : String :=
  match f.letter? with
  | some c => "-" ++ String.singleton c ++ ", --" ++ f.name
  | none => "--" ++ f.name

def shared : List Flag :=
  [.debug, .logLevel]

end Flag

namespace Shell

def all : List Shell :=
  [.bash, .fish, .powershell, .zsh]

def name : Shell → String
  | .bash => "bash"
  | .fish => "fish"
  | .powershell => "powershell"
  | .zsh => "zsh"

def ofName? (name : String) : Option Shell :=
  all.find? (·.name == name)

end Shell

namespace Command

def all : List Command :=
  [.apply, .completion, .help, .inspect, .render, .revert]

def name : Command → String
  | .apply => "apply"
  | .revert => "revert"
  | .inspect => "inspect"
  | .render => "render"
  | .help => "help"
  | .completion => "completion"

def ofName? (name : String) : Option Command :=
  all.find? (·.name == name)

def policyFlags : List Flag :=
  [.config, .definitions, .policy, .output, .expInfo, .platform]

def engineFlags : List Flag :=
  [.dryRun, .chain, .defaultAction, .file]

def ownFlags : Command → List Flag
  | .apply | .revert => policyFlags ++ engineFlags
  | .inspect | .render => policyFlags
  | .help | .completion => []

end Command

inductive Topic where
  | program
  | command (c : Command)
  | completion (s : Shell)
  deriving DecidableEq, Repr

namespace Topic

def programName : String := "aclgen"

def name : Topic → String
  | .program => programName
  | .command c => c.name
  | .completion s => s.name

def path : Topic → String
  | .program => programName
  | .command c => programName ++ " " ++ c.name
  | .completion s => programName ++ " " ++ Command.name .completion ++ " " ++ s.name

def ownFlags : Topic → List Flag
  | .program => [.help]
  | .command c => .help :: c.ownFlags
  | .completion _ => [.help, .noDescriptions]

def flags (t : Topic) : List Flag :=
  t.ownFlags ++ Flag.shared

def runs : Topic → Bool
  | .program | .command .completion => false
  | _ => true

end Topic

/--
The values of flags, and the words that are none. Values that replace a setting are absent unless
they were given.
-/
structure Arguments where
  debug : Int := 0
  logLevel : String := "info"
  help : Bool := false
  config : String := ""
  definitions : Option String := none
  policies : Option (List String) := none
  output : Option String := none
  weeks : Option Int := none
  platforms : Option (List String) := none
  dryRun : Bool := false
  chain : String := ""
  defaultAction : String := ""
  files : List String := []
  noDescriptions : Bool := false
  words : List String := []
  deriving DecidableEq, Repr

namespace Arguments

inductive ValueError where
  | notInteger (text : String) (cause : Text.NumberError)
  | notBoolean (text : String)
  | notList (cause : Csv.Error)
  deriving DecidableEq, Repr

def ValueError.message : ValueError → String
  | .notInteger text cause =>
    "strconv.ParseInt: parsing " ++ Text.quote text ++ ": " ++ cause.message
  | .notBoolean text =>
    "strconv.ParseBool: parsing " ++ Text.quote text ++ ": " ++ Text.NumberError.malformed.message
  | .notList cause => cause.message

def readInteger (s : String) : Except ValueError Int :=
  (Text.readSeparated s.toList).mapError (.notInteger s)

def readBoolean (s : String) : Except ValueError Bool :=
  if ["1", "t", "T", "TRUE", "true", "True"].contains s then .ok true
  else if ["0", "f", "F", "FALSE", "false", "False"].contains s then .ok false
  else .error (.notBoolean s)

def readList (s : String) : Except ValueError (List String) :=
  if s == "" then .ok [] else (Csv.record s).mapError .notList

def set (a : Arguments) (f : Flag) (value : String) : Except ValueError Arguments := do
  match f with
  | .debug =>
    if value == "+1" then return { a with debug := a.debug + 1 }
    else return { a with debug := ← readInteger value }
  | .logLevel => return { a with logLevel := value }
  | .help => return { a with help := ← readBoolean value }
  | .config => return { a with config := value }
  | .definitions => return { a with definitions := some value }
  | .policy => return { a with policies := some (a.policies.getD [] ++ (← readList value)) }
  | .output => return { a with output := some value }
  | .expInfo => return { a with weeks := some (← readInteger value) }
  | .platform => return { a with platforms := some (a.platforms.getD [] ++ (← readList value)) }
  | .dryRun => return { a with dryRun := ← readBoolean value }
  | .chain => return { a with chain := value }
  | .defaultAction => return { a with defaultAction := value }
  | .file => return { a with files := a.files ++ (← readList value) }
  | .noDescriptions => return { a with noDescriptions := ← readBoolean value }

end Arguments
end PacketPolicy
