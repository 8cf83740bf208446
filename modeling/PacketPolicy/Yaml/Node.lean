import PacketPolicy.Yaml.Token

namespace PacketPolicy
namespace Yaml

inductive Node where
  | scalar (isPlain : Bool) (text : String)
  | sequence (items : List Node)
  | mapping (entries : List (Node × Node))
  deriving Repr, Inhabited

namespace Node

def absent : Node :=
  .scalar true ""

abbrev Parsed := Except Error (Node × List Token)

def peek (tokens : List Token) (ends : List Token) : Except Error Bool :=
  match tokens with
  | [] => .error .malformed
  | t :: _ => .ok (ends.contains t)

mutual

/--
Reads a node. Blocks are only allowed outside of brackets, and a sequence without indentation only
as the key or value of a mapping.
-/
def node (block indentless : Bool) : Nat → List Token → Parsed
  | 0, _ => .error .malformed
  | fuel + 1, tokens =>
    match tokens with
    | .scalar isPlain text :: ts => .ok (.scalar isPlain text, ts)
    | .flowSequenceStart :: ts => flowItems true [] fuel ts
    | .flowMappingStart :: ts => flowEntries true [] fuel ts
    | .blockSequenceStart :: ts => if block then blockItems [] fuel ts else .error .malformed
    | .blockMappingStart :: ts => if block then blockEntries [] fuel ts else .error .malformed
    | .blockEntry :: ts =>
      if indentless then indentlessItems [] fuel (.blockEntry :: ts) else .error .malformed
    | _ => .error .malformed

def optional (block indentless : Bool) (ends : List Token) : Nat → List Token → Parsed
  | 0, _ => .error .malformed
  | fuel + 1, tokens => do
    if ← peek tokens ends then return (absent, tokens)
    else node block indentless fuel tokens

def blockItems (items : List Node) : Nat → List Token → Parsed
  | 0, _ => .error .malformed
  | fuel + 1, tokens =>
    match tokens with
    | .blockEntry :: ts => do
      let (item, ts) ← optional true false [.blockEntry, .blockEnd] fuel ts
      blockItems (item :: items) fuel ts
    | .blockEnd :: ts => .ok (.sequence items.reverse, ts)
    | _ => .error .malformed

def indentlessItems (items : List Node) : Nat → List Token → Parsed
  | 0, _ => .error .malformed
  | fuel + 1, tokens =>
    match tokens with
    | .blockEntry :: ts => do
      let (item, ts) ← optional true false [.blockEntry, .key, .value, .blockEnd] fuel ts
      indentlessItems (item :: items) fuel ts
    | [] => .error .malformed
    | ts => .ok (.sequence items.reverse, ts)

def blockEntries (entries : List (Node × Node)) : Nat → List Token → Parsed
  | 0, _ => .error .malformed
  | fuel + 1, tokens =>
    match tokens with
    | .key :: ts => do
      let (k, ts) ← optional true true [.key, .value, .blockEnd] fuel ts
      let (v, ts) ← blockValue fuel ts
      blockEntries ((k, v) :: entries) fuel ts
    | .blockEnd :: ts => .ok (.mapping entries.reverse, ts)
    | _ => .error .malformed

def blockValue : Nat → List Token → Parsed
  | 0, _ => .error .malformed
  | fuel + 1, tokens =>
    match tokens with
    | .value :: ts => optional true true [.key, .value, .blockEnd] fuel ts
    | [] => .error .malformed
    | ts => .ok (absent, ts)

def flowItems (first : Bool) (items : List Node) : Nat → List Token → Parsed
  | 0, _ => .error .malformed
  | fuel + 1, tokens =>
    match first, tokens with
    | _, .flowSequenceEnd :: ts => .ok (.sequence items.reverse, ts)
    | true, ts => flowItem items fuel ts
    | false, .flowEntry :: ts => flowItem items fuel ts
    | false, _ => .error .malformed

def flowItem (items : List Node) : Nat → List Token → Parsed
  | 0, _ => .error .malformed
  | fuel + 1, tokens =>
    match tokens with
    | .flowSequenceEnd :: ts => .ok (.sequence items.reverse, ts)
    | .key :: ts => do
      let (k, ts) ← flowItemKey fuel ts
      let (v, ts) ← flowValue [.flowEntry, .flowSequenceEnd] fuel ts
      flowItems false (.mapping [(k, v)] :: items) fuel ts
    | ts => do
      let (item, ts) ← node false false fuel ts
      flowItems false (item :: items) fuel ts

/--
The key of an item. The token in front of which it is left out is read over.
-/
def flowItemKey : Nat → List Token → Parsed
  | 0, _ => .error .malformed
  | fuel + 1, tokens => do
    if ← peek tokens [.value, .flowEntry, .flowSequenceEnd] then return (absent, tokens.drop 1)
    else node false false fuel tokens

def flowValue (ends : List Token) : Nat → List Token → Parsed
  | 0, _ => .error .malformed
  | fuel + 1, tokens =>
    match tokens with
    | .value :: ts => optional false false ends fuel ts
    | [] => .error .malformed
    | ts => .ok (absent, ts)

def flowEntries (first : Bool) (entries : List (Node × Node)) : Nat → List Token → Parsed
  | 0, _ => .error .malformed
  | fuel + 1, tokens =>
    match first, tokens with
    | _, .flowMappingEnd :: ts => .ok (.mapping entries.reverse, ts)
    | true, ts => flowPair entries fuel ts
    | false, .flowEntry :: ts => flowPair entries fuel ts
    | false, _ => .error .malformed

def flowPair (entries : List (Node × Node)) : Nat → List Token → Parsed
  | 0, _ => .error .malformed
  | fuel + 1, tokens =>
    match tokens with
    | .flowMappingEnd :: ts => .ok (.mapping entries.reverse, ts)
    | .key :: ts => do
      let (k, ts) ← optional false false [.value, .flowEntry, .flowMappingEnd] fuel ts
      let (v, ts) ← flowValue [.flowEntry, .flowMappingEnd] fuel ts
      flowEntries false ((k, v) :: entries) fuel ts
    | ts => do
      let (k, ts) ← node false false fuel ts
      flowEntries false ((k, absent) :: entries) fuel ts

end

/--
The first document of a token list. A list without a document has none. What follows a document is
not looked at, but its first token has to be there.
-/
def ofTokens (tokens : List Token) : Except Error (Option Node) :=
  let fuel := 4 * tokens.length + 8
  match tokens with
  | .streamEnd :: _ => .ok none
  | .documentStart :: ts => do
    let (n, ts) ← optional true false [.documentStart, .documentEnd, .streamEnd] fuel ts
    if ts.isEmpty then .error .malformed else return some n
  | ts => do
    let (n, ts) ← node true false fuel ts
    if ts.isEmpty then .error .malformed else return some n

def ofText (s : String) : Except Error (Option Node) := do
  ofTokens (← Token.ofText s)

end Node
end Yaml
end PacketPolicy
