import PacketPolicy.Render.Selection
import PacketPolicy.Render.Fault
import PacketPolicy.Render.TermName
import PacketPolicy.Render.Traced
import PacketPolicy.Text.Blank
import PacketPolicy.Text.Bytes

/-!
This module contains what the renderers of all platforms share: the options in the target of a
filter, the check of keywords, the comments of terms, and the way from the terms of a filter to the
blocks that are rendered for them.
-/

namespace PacketPolicy

structure FilterOptions where
  family : Family := .v4
  families : Nat := 0
  shortening : TermName.Shortening := {}
  deriving DecidableEq, Repr

namespace FilterOptions

def add? (o : FilterOptions) (word : String) : Option FilterOptions :=
  if word == "abbreviateterms" then
    some { o with shortening := { o.shortening with abbreviate := true } }
  else if word == "truncateterms" then
    some { o with shortening := { o.shortening with truncate := true } }
  else (Family.ofKeyword? word).map fun f => { o with family := f, families := o.families + 1 }

def unknown (platform filter word : String) : Fault where
  kind := .unsupportedTargetOption
  platform := platform
  filter := filter
  feature := word

def severalFamilies (platform filter : String) : Fault where
  kind := .unsupportedFilter
  platform := platform
  filter := filter
  feature := "address family"
  detail := "only one of inet and inet6 may be given"

end FilterOptions

def Term.unsupportedKeyword? (supported : List String) (t : Term) : Option Fault :=
  (t.optionalKeywords.find? fun k => !supported.contains k).map fun k => {
    kind := .unsupportedFilter
    term := t.name
    feature := k
    detail := "keyword not supported" }

namespace Comment

def maxBytes : Nat := 255

def sanitize (s : String) : String :=
  let line := (Text.squeeze s).toList.map fun c => if c == '"' then '\'' else c
  String.ofList (Text.takeBytes maxBytes line)

def lines (comments : List String) (owner : String) : List String :=
  (comments.map sanitize).filter (· != "")
    ++ (if owner == "" then [] else [sanitize ("Owner: " ++ owner)])

end Comment

/--
How a platform renders the terms of a filter: `check` looks at a term alone, `finish` makes the
block of a term that is to be rendered, and `emptySide` names a side of a term without addresses.
-/
structure Renderer (α β : Type) where
  platform : String
  filter : String
  family : Family
  check : Term → Except Fault α
  finish : Term → α → Except Fault β
  label : β → String
  emptySide : Term → Option Side

namespace Renderer

def place (r : Renderer α β) (t : Term) : Place :=
  ⟨r.platform, r.filter, t.name⟩

def duplicate (r : Renderer α β) (label : String) : Fault where
  kind := .duplicateTerm
  platform := r.platform
  filter := r.filter
  term := label

inductive Verdict (β : Type) where
  | invalid (e : Fault)
  | foreign
  | expired
  | unfinished (expiry : Expiry) (e : Fault)
  | kept (expiry : Expiry) (block : β)

def verdict (r : Renderer α β) (clock : Clock) (t : Term) : Verdict β :=
  match r.check t with
  | .error e => .invalid (e.annotate r.platform r.filter)
  | .ok checked =>
    if (Icmp.foreign? r.family t.protocol).isSome then .foreign
    else
      match clock.expiry t.expiration with
      | .expired => .expired
      | expiry =>
        match r.finish t checked with
        | .error e => .unfinished expiry (e.annotate r.platform r.filter)
        | .ok block => .kept expiry block

def emptyLog (r : Renderer α β) (t : Term) : List Log.Entry :=
  if t.isVerbatim then []
  else
    match r.emptySide t with
    | none => []
    | some side => [(r.place t).noAddresses r.family side]

/--
The block of a term, if it is kept. `seen` holds the labels of the blocks before it.
-/
def block (r : Renderer α β) (clock : Clock) (seen : List String) (t : Term) :
    Traced Fault (Option β) :=
  match r.verdict clock t with
  | .invalid e => .fail e
  | .foreign => ⟨[(r.place t).foreignProtocol r.family t.protocol], .ok none⟩
  | .expired => ⟨(r.place t).expiration clock .expired, .ok none⟩
  | .unfinished expiry e => ⟨(r.place t).expiration clock expiry, .error e⟩
  | .kept expiry b =>
    if seen.contains (r.label b) then
      ⟨(r.place t).expiration clock expiry, .error (r.duplicate (r.label b))⟩
    else
      ⟨(r.place t).expiration clock expiry ++ r.emptyLog t, .ok (some b)⟩

def blocksFrom (r : Renderer α β) (clock : Clock) (seen : List String) :
    List Term → Traced Fault (List β)
  | [] => pure []
  | t :: ts =>
    if t.appliesTo r.platform then do
      match ← r.block clock seen t with
      | none => r.blocksFrom clock seen ts
      | some b =>
        let bs ← r.blocksFrom clock (r.label b :: seen) ts
        return b :: bs
    else
      r.blocksFrom clock seen ts

def blocks (r : Renderer α β) (clock : Clock) (ts : List Term) : Traced Fault (List β) :=
  r.blocksFrom clock [] ts

end Renderer

structure Assembler (ω α β γ : Type) where
  platform : String
  nameless : String
  readOptions : String → List String → Except Fault ω
  notices : String → List Log.Entry
  renderer : String → ω → Renderer α β
  assemble : String → ω → Filter → List β → γ

def Assembler.part (a : Assembler ω α β γ) (clock : Clock) (f : Filter) : Traced Fault γ := do
  let name := f.name a.platform
  if name == "" then
    Traced.fail { kind := .unsupportedTargetOption, platform := a.platform, detail := a.nameless }
  else
    let o ← Traced.ofExcept (a.readOptions name (f.options a.platform))
    Traced.tell (a.notices name)
    let blocks ← (a.renderer name o).blocks clock f.terms
    return a.assemble name o f blocks

def Policy.build (platform : String) (part : Filter → Traced Fault γ) :
    List Filter → Traced Fault (List γ)
  | [] => pure []
  | f :: fs =>
    match f.target? platform with
    | none => Policy.build platform part fs
    | some _ => do
      let p ← part f
      let ps ← Policy.build platform part fs
      return p :: ps

def Filter.commentLine (comment : String) : String :=
  Text.squeeze comment

end PacketPolicy
