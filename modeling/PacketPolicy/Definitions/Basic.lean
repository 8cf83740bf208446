import PacketPolicy.Address.Prefix
import PacketPolicy.Port.Range

/-!
This module contains definitions of networks and services. A value of a definition is written out or
names another definition, and a name stands for all that can be reached from it.
-/

namespace PacketPolicy

inductive NameKind where
  | network
  | service
  deriving DecidableEq, Repr

def NameKind.word : NameKind → String
  | .network => "network"
  | .service => "service"

structure Definitions where
  networks : List (String × List String) := []
  services : List (String × List String) := []
  deriving Repr, Inhabited

namespace Definitions

inductive Error where
  | undefined (kind : NameKind) (name : String)
  | cyclic (kind : NameKind) (name : String)
  | badPrefix (owner : String) (cause : Prefix.ReadError)
  | noProtocol (owner value : String)
  | badRange (owner : String) (cause : PortRange.ReadError)
  deriving DecidableEq, Repr

def Error.message : Error → String
  | .undefined kind name => "undefined " ++ kind.word ++ " " ++ Text.quote name
  | .cyclic kind name => kind.word ++ " " ++ name ++ " references itself"
  | .badPrefix owner cause => "network " ++ owner ++ ": " ++ cause.message
  | .noProtocol owner value =>
    "service " ++ owner ++ ": " ++ Text.quote value ++ " lacks a /protocol suffix"
  | .badRange owner cause => "service " ++ owner ++ ": " ++ cause.message

abbrev Table := List (String × List String)

def unvisited (table : Table) (path : List String) : List String :=
  (table.map (·.1)).filter fun name => !path.contains name

theorem mem_of_lookup {table : Table} {name : String} {values : List String}
    (h : table.lookup name = some values) : name ∈ table.map (·.1) := by
  obtain ⟨entry, hentry, hname⟩ := List.lookup_isSome_iff.mp (Option.isSome_of_eq_some h)
  exact List.mem_map.mpr ⟨entry, hentry, (eq_of_beq hname).symm⟩

theorem length_unvisited_cons_lt {table : Table} {path : List String} {name : String}
    (hmem : name ∈ table.map (·.1)) (hnew : ¬ path.contains name) :
    (unvisited table (name :: path)).length < (unvisited table path).length := by
  have hsub : unvisited table (name :: path) = (unvisited table path).filter (· != name) := by
    simp only [unvisited, List.filter_filter]
    congr 1
    funext a
    by_cases ha : a = name <;> simp [ha]
  rw [hsub]
  apply List.length_filter_lt_length_iff_exists.mpr
  exact ⟨name, by simp_all [unvisited], by simp⟩

def strip (value : String) : String :=
  Text.trim (String.ofList (value.toList.takeWhile (· != '#')))

mutual

/--
All that can be reached from a name, in the order of the values. `path` holds the names that lead to
it, and `read` reads a value of a definition that is written out.
-/
def flatten (kind : NameKind) (table : Table) (read : String → String → Except Error (List α))
    (path : List String) (name : String) : Except Error (List α) :=
  match h : table.lookup name with
  | none => .error (.undefined kind name)
  | some values =>
    if hp : path.contains name then .error (.cyclic kind name)
    else
      have := length_unvisited_cons_lt (mem_of_lookup h) hp
      flattenValues kind table read (name :: path) name values
termination_by ((unvisited table path).length, 0)

def flattenValues (kind : NameKind) (table : Table) (read : String → String → Except Error (List α))
    (path : List String) (owner : String) (values : List String) : Except Error (List α) :=
  match values with
  | [] => .ok []
  | value :: values => do
    let first ←
      if strip value == "" then .ok []
      else if (table.lookup (strip value)).isSome then flatten kind table read path (strip value)
      else read owner (strip value)
    let rest ← flattenValues kind table read path owner values
    return first ++ rest
termination_by ((unvisited table path).length, values.length + 1)

end

def readPrefix (owner value : String) : Except Error (List Prefix) :=
  match Prefix.read value with
  | .ok p => .ok [p]
  | .error e => .error (.badPrefix owner e)

def readPorts (protocol owner value : String) : Except Error (List PortRange) :=
  let reversed := value.toList.reverse
  if !reversed.contains '/' then .error (.noProtocol owner value)
  else
    let suffix := String.ofList (reversed.takeWhile (· != '/')).reverse
    if suffix != protocol then .ok []
    else
      match PortRange.read (String.ofList ((reversed.dropWhile (· != '/')).drop 1).reverse) with
      | .ok r => .ok [r]
      | .error e => .error (.badRange owner e)

def addresses (d : Definitions) (name : String) : Except Error (List Prefix) :=
  flatten .network d.networks readPrefix [] name

def ports (d : Definitions) (name protocol : String) : Except Error (List PortRange) :=
  flatten .service d.services (readPorts protocol) [] name

end Definitions
end PacketPolicy
