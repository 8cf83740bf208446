import PacketPolicy.Proofs.Script.Reversal

namespace PacketPolicy
namespace Script
namespace Engine

section Simulation

variable {h : Host σ} {h' : Host τ} {R : Engine σ → Engine τ → Prop}

structure Task where
  backward : Bool
  dryRun : Bool
  script : String

def Task.run (h : Host σ) (e : Engine σ) (t : Task) : Outcome σ :=
  if t.backward then revert h t.dryRun e t.script else apply h t.dryRun e t.script

end Simulation

end Engine

inductive Request where
  | connect (family : Family)
  | call (family : Family) (call : Call)
  deriving DecidableEq, Repr

structure Event where
  request : Request
  failure : Option String
  deriving DecidableEq, Repr

namespace Event

def call? (ev : Event) : Option (Family × Call) :=
  match ev.request with
  | .connect _ => none
  | .call f c => some (f, c)

end Event

namespace Engine

def record (e : Engine (σ × List Event)) : List Event :=
  e.host.2

variable {e : Engine (σ × List Event)}

structure Granted (ss : List Statement) (events : List Event) : Prop where
  granted : ∀ ev ∈ events, ev.failure = none
  calls : events.filterMap Event.call? = ss.map fun s => (s.family, applyCall s)

/--
The record of a run: all statements were carried out, or those before one whose tables could not be
opened or whose call failed. The error of the run says which.
-/
inductive CarriedOut : List Statement → List Event → Option Error → Prop where
  | finished (hdone : Granted ss events) : CarriedOut ss events none
  | notOpened (hdone : Granted done events) :
    CarriedOut (done ++ s :: rest) (events ++ [⟨.connect s.family, some cause⟩])
      (some (.notOpened s.family cause))
  | notApplied (hdone : Granted done events) :
    CarriedOut (done ++ s :: rest) (events ++ [⟨.call s.family (applyCall s), some cause⟩])
      (some (.notApplied s.line cause))

theorem Granted.append (h : Granted ss events) (h' : Granted ss' events') :
    Granted (ss ++ ss') (events ++ events') where
  granted := List.forall_mem_append.mpr ⟨h.granted, h'.granted⟩
  calls := by rw [List.filterMap_append, List.map_append, h.calls, h'.calls]

namespace CarriedOut

theorem append (h : Granted ss events) (h' : CarriedOut ss' events' error) :
    CarriedOut (ss ++ ss') (events ++ events') error := by
  cases h' with
  | finished hdone => exact .finished (h.append hdone)
  | notOpened hdone =>
    rw [← List.append_assoc, ← List.append_assoc]
    exact .notOpened (h.append hdone)
  | notApplied hdone =>
    rw [← List.append_assoc, ← List.append_assoc]
    exact .notApplied (h.append hdone)

end CarriedOut

end Engine
end Script
end PacketPolicy
