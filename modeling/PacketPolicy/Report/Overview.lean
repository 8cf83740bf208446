import PacketPolicy.Calendar.Expiration
import PacketPolicy.Policy.Term
import PacketPolicy.Render.Selection
import PacketPolicy.Report.Table

namespace PacketPolicy
namespace Overview

def header : List String :=
  ["#", "Policy", "Targets", "Term", "Action", "Protocols", "Sources", "Destinations", "Expiry"]

def side (included excluded : Option (List Prefix)) : String :=
  let excluded := (excluded.getD []).length
  (match included with
    | none => "any"
    | some ps => toString ps.length)
    ++ (if excluded == 0 then "" else " (-" ++ toString excluded ++ ")")

def expiry (clock : Clock) (t : Term) : String :=
  match t.expiration with
  | none => ""
  | some e =>
    e.date.text ++ match Expiry.classify (some e) clock.now clock.weeks with
      | .expired => " (expired)"
      | .expiring => " (expiring)"
      | .notExpiring => ""

def targets (f : Filter) : String :=
  String.intercalate ", "
    (f.targets.map fun t => Text.trim (t.platform ++ " " ++ String.intercalate " " t.options))

def row (clock : Clock) (file : String) (f : Filter) (t : Term) : List String :=
  let protocols := String.intercalate " " t.protocol
  [ file,
    targets f,
    t.name,
    if t.isVerbatim then "verbatim" else t.action.word,
    if protocols == "" then "any" else protocols,
    side t.sourceAddress t.sourceExclude,
    side t.destinationAddress t.destinationExclude,
    expiry clock t ]

def rows (clock : Clock) (file : String) (p : Policy) : List (List String) :=
  p.filters.flatMap fun f => f.terms.map (row clock file f)

def table (rows : List (List String)) : Table where
  header := header
  rows := (rows.zipIdx 1).map fun (row, n) => toString n :: row
  merged := [1]

end Overview
end PacketPolicy
