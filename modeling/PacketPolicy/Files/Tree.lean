import PacketPolicy.Files.Path
import PacketPolicy.Files.System

/-!
This module contains files in memory. Paths lead from the top of a tree, which is the current
directory, and nothing exists outside of it.
-/

namespace PacketPolicy

structure Tree where
  entries : List (List String × Option String)
  deriving DecidableEq, Repr

namespace Tree

inductive Found where
  | file (text : String)
  | directory
  deriving DecidableEq, Repr

def lookup (t : Tree) (place : List String) : Option Found :=
  if place.isEmpty then some .directory
  else
    match t.entries.find? (·.1 == place) with
    | none => none
    | some (_, some text) => some (.file text)
    | some (_, none) => some .directory

def maxNameBytes : Nat := 255

def maxPathBytes : Nat := 4095

def follow (t : Tree) (place : List String) : List String → Except FileCause (List String)
  | [] => .ok place
  | c :: cs =>
    match t.lookup place with
    | none => .error .notFound
    | some (.file _) => .error .notDirectory
    | some .directory =>
      if c == "" || c == "." then t.follow place cs
      else if c == ".." then
        (if place.isEmpty then .error .notFound else t.follow place.dropLast cs)
      else if maxNameBytes < c.utf8ByteSize then .error .nameTooLong
      else t.follow (place ++ [c]) cs

def place (t : Tree) (path : String) : Except FileCause (List String) :=
  if path.toList.contains '\x00' then .error .invalidArgument
  else if path == "" || Path.isAbsolute path then .error .notFound
  else if maxPathBytes < path.utf8ByteSize then .error .nameTooLong
  else t.follow [] (Path.components path)

def find (t : Tree) (path : String) : Except FileCause (List String × Found) := do
  let place ← t.place path
  match t.lookup place with
  | none => .error .notFound
  | some found => .ok (place, found)

def readFile (t : Tree) (path : String) : Except FileError String :=
  match t.find path with
  | .error cause => .error ⟨.opening, path, cause⟩
  | .ok (_, .directory) => .error ⟨.reading, path, .isDirectory⟩
  | .ok (_, .file text) => .ok text

def isDirectory (t : Tree) (path : String) : Except FileError Bool :=
  match t.find path with
  | .error cause => .error ⟨.status, path, cause⟩
  | .ok (_, found) => .ok (found == .directory)

def children (t : Tree) (place : List String) : List DirectoryEntry :=
  (t.entries.filterMap fun (path, content) =>
    match path.getLast? with
    | none => none
    | some name => if path.dropLast == place then some ⟨name, content.isNone⟩ else none).mergeSort
      fun a b => a.name ≤ b.name

def listDirectory (t : Tree) (path : String) : Except FileError (List DirectoryEntry) :=
  match t.find path with
  | .error cause => .error ⟨.opening, path, cause⟩
  | .ok (_, .file _) => .error ⟨.opening, path, .notDirectory⟩
  | .ok (place, .directory) => .ok (t.children place)

def set (t : Tree) (place : List String) (content : Option String) : Tree :=
  ⟨t.entries.filter (·.1 != place) ++ [(place, content)]⟩

/--
Makes the directory that a path leads to, unless there is one. All but the last directory have to
exist. Slashes at the end of the path do not count.
-/
def makeDirectory (t : Tree) (path : String) : Except FileError Tree :=
  let name := String.ofList (path.toList.reverse.dropWhile (· == '/')).reverse
  match t.place name with
  | .error cause => .error ⟨.makingDirectory, path, cause⟩
  | .ok place =>
    match t.lookup place with
    | some .directory => .ok t
    | some (.file _) => .error ⟨.makingDirectory, path, .alreadyThere⟩
    | none =>
      match t.lookup place.dropLast with
      | some .directory => .ok (t.set place none)
      | some (.file _) => .error ⟨.makingDirectory, path, .notDirectory⟩
      | none => .error ⟨.makingDirectory, path, .notFound⟩

def above? (path : List Char) : Option (List Char) :=
  match ((path.reverse.dropWhile (· == '/')).dropWhile (· != '/')) with
  | [] => none
  | rest => some rest.reverse

def makeDirectories (t : Tree) (path : String) : Except FileError Tree :=
  go t path.toList.length path.toList
where
  go (t : Tree) : Nat → List Char → Except FileError Tree
    | 0, path => t.makeDirectory (String.ofList path)
    | fuel + 1, path =>
      match t.isDirectory (String.ofList path) with
      | .ok true => .ok t
      | .ok false => .error ⟨.makingDirectory, String.ofList path, .notDirectory⟩
      | .error _ =>
        match above? path with
        | none => t.makeDirectory (String.ofList path)
        | some above => do
          let t ← go t fuel above
          t.makeDirectory (String.ofList path)

def writeFile (t : Tree) (path text : String) : Except FileError Tree :=
  match t.place path with
  | .error cause => .error ⟨.opening, path, cause⟩
  | .ok place =>
    match t.lookup place, t.lookup place.dropLast with
    | some .directory, _ => .error ⟨.opening, path, .isDirectory⟩
    | _, some .directory => .ok (t.set place (some text))
    | _, some (.file _) => .error ⟨.opening, path, .notDirectory⟩
    | _, none => .error ⟨.opening, path, .notFound⟩

def plant (t : Tree) (path text : String) : Tree :=
  let names := (Path.components path).filter (· != "")
  let above := (List.range names.length).map fun n => names.take n
  let t := above.foldl (fun t place => if (t.lookup place).isSome then t else t.set place none) t
  if path.toList.getLast? == some '/' then (if (t.lookup names).isSome then t else t.set names none)
  else t.set names (some text)

def changes (t later : Tree) : List (String × String) :=
  later.entries.filterMap fun (place, content) =>
    match content with
    | none => none
    | some text =>
      if t.lookup place == some (.file text) then none
      else some (String.intercalate "/" place, text)

def update (change : Tree → Except FileError Tree) : StateM Tree (Except FileError Unit) := do
  match change (← get) with
  | .ok t =>
    MonadState.set t
    return .ok ()
  | .error e => return .error e

def system : FileSystem (StateM Tree) where
  readFile path := do return (← get).readFile path
  listDirectory path := do return (← get).listDirectory path
  isDirectory path := do return (← get).isDirectory path
  makeDirectories path := update (·.makeDirectories path)
  writeFile path text := update (·.writeFile path text)

end Tree
end PacketPolicy
