namespace PacketPolicy
namespace Text

/--
The characters with the Unicode property `White_Space`.
-/
def isBlank (c : Char) : Bool :=
  let n := c.toNat
  (9 ≤ n && n ≤ 13) || n == 32 || n == 0x85 || n == 0xA0 || n == 0x1680
    || (0x2000 ≤ n && n ≤ 0x200A) || n == 0x2028 || n == 0x2029 || n == 0x202F || n == 0x205F
    || n == 0x3000

def trimChars (cs : List Char) : List Char :=
  ((cs.dropWhile isBlank).reverse.dropWhile isBlank).reverse

def wordsOfChars (cs : List Char) : List (List Char) :=
  go cs []
where
  go : List Char → List Char → List (List Char)
    | [], [] => []
    | [], word => [word.reverse]
    | c :: cs, word =>
      if isBlank c then
        match word with
        | [] => go cs []
        | word => word.reverse :: go cs []
      else
        go cs (c :: word)

def trim (s : String) : String :=
  String.ofList (trimChars s.toList)

def words (s : String) : List String :=
  (wordsOfChars s.toList).map String.ofList

def squeeze (s : String) : String :=
  String.intercalate " " (words s)

end Text
end PacketPolicy
