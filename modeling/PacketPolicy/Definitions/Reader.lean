import PacketPolicy.Definitions.Basic
import PacketPolicy.Yaml.Value

namespace PacketPolicy
namespace Definitions

inductive ReadError where
  | malformed (cause : Yaml.Error)
  | twice (kind : NameKind) (name : String)
  deriving DecidableEq, Repr

def ReadError.message : ReadError → String
  | .malformed _ => "failed to unmarshal definitions"
  | .twice kind name => kind.word ++ " " ++ name ++ " defined more than once"

def addTo (kind : NameKind) (table : Table) : Table → Table × Option ReadError
  | [] => (table, none)
  | (name, values) :: rest =>
    if (table.lookup name).isSome then (table, some (.twice kind name))
    else addTo kind (table ++ [(name, values)]) rest

/--
Adds the definitions of a document, networks before services. What was added before an error stays.
-/
def merge (d document : Definitions) : Definitions × Option ReadError :=
  match addTo .network d.networks document.networks with
  | (networks, some e) => ({ d with networks }, some e)
  | (networks, none) =>
    let (services, e) := addTo .service d.services document.services
    (⟨networks, services⟩, e)

def tableOfNode (n : Yaml.Node) : Except Yaml.Error Table := do
  let entries ← n.asEntries
  if Yaml.Node.distinctKeys entries then
    entries.mapM fun (name, values) => do return (name, ← values.asTexts)
  else .error .mismatch

def fieldNames : List String :=
  ["networks", "services"]

def ofNode (n : Yaml.Node) : Except Yaml.Error Definitions := do
  let entries ← n.asEntries
  if !Yaml.Node.distinctKeys entries || !entries.all (fun e => fieldNames.contains e.1) then
    .error .mismatch
  else
    let table (name : String) : Except Yaml.Error Table :=
      match entries.lookup name with
      | none => .ok []
      | some n => tableOfNode n
    return ⟨← table "networks", ← table "services"⟩

def ofText (s : String) : Except Yaml.Error Definitions := do
  match ← Yaml.Node.ofText s with
  | none => return {}
  | some n => ofNode n

def read (d : Definitions) (s : String) : Definitions × Option ReadError :=
  match ofText s with
  | .error e => (d, some (.malformed e))
  | .ok document => d.merge document

end Definitions
end PacketPolicy
