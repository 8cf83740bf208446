namespace PacketPolicy
namespace Path

def components (path : String) : List String :=
  (path.toList.splitOn '/').map String.ofList

def isAbsolute (path : String) : Bool :=
  path.toList.head? == some '/'

/--
The last component without slashes behind it. The path of slashes alone is its own last component,
and that of the empty path is the current directory.
-/
def base (path : String) : String :=
  if path == "" then "."
  else
    match path.toList.reverse.dropWhile (· == '/') with
    | [] => "/"
    | cs => String.ofList (cs.takeWhile (· != '/')).reverse

def extension (path : String) : String :=
  let last := path.toList.reverse.takeWhile (· != '/')
  if last.contains '.' then String.ofList ('.' :: (last.takeWhile (· != '.')).reverse) else ""

def push (rooted : Bool) (path : List String) (component : String) : List String :=
  if component == "" || component == "." then path
  else if component == ".." then
    match path with
    | [] => if rooted then [] else [".."]
    | last :: rest => if last == ".." then ".." :: path else rest
  else component :: path

def clean (path : String) : String :=
  let rooted := isAbsolute path
  let short := String.intercalate "/" ((components path).foldl (push rooted) []).reverse
  if rooted then "/" ++ short else if short == "" then "." else short

def join (first second : String) : String :=
  if first != "" then clean (first ++ "/" ++ second)
  else if second != "" then clean second
  else ""

def isYaml (path : String) : Bool :=
  extension path == ".yaml" || extension path == ".yml"

end Path
end PacketPolicy
