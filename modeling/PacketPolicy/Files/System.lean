namespace PacketPolicy

inductive FileOperation where
  | opening
  | reading
  | status
  | makingDirectory
  deriving DecidableEq, Repr

def FileOperation.word : FileOperation → String
  | .opening => "open"
  | .reading => "read"
  | .status => "stat"
  | .makingDirectory => "mkdir"

inductive FileCause where
  | notFound
  | notDirectory
  | isDirectory
  | alreadyThere
  | nameTooLong
  | invalidArgument
  | other (text : String)
  deriving DecidableEq, Repr

def FileCause.message : FileCause → String
  | .notFound => "no such file or directory"
  | .notDirectory => "not a directory"
  | .isDirectory => "is a directory"
  | .alreadyThere => "file exists"
  | .nameTooLong => "file name too long"
  | .invalidArgument => "invalid argument"
  | .other text => text

structure FileError where
  operation : FileOperation
  path : String
  cause : FileCause
  deriving DecidableEq, Repr

def FileError.message (e : FileError) : String :=
  e.operation.word ++ " " ++ e.path ++ ": " ++ e.cause.message

structure DirectoryEntry where
  name : String
  isDirectory : Bool
  deriving DecidableEq, Repr

/--
The operations on files in a monad. Entries of a directory come in the order of their names.
-/
structure FileSystem (m : Type → Type) where
  readFile : String → m (Except FileError String)
  listDirectory : String → m (Except FileError (List DirectoryEntry))
  isDirectory : String → m (Except FileError Bool)
  makeDirectories : String → m (Except FileError Unit)
  writeFile : String → String → m (Except FileError Unit)

end PacketPolicy
