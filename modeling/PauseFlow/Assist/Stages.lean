import PauseFlow.Assist.Freshness
import PauseFlow.Assist.Host
import PauseFlow.Assist.LiveVariables
import PauseFlow.Assist.Seeding
import PauseFlow.Settings.Basic
import PauseFlow.Flow.Exploration
import PauseFlow.Flow.Verdict
import PauseFlow.Snapshot.Batch

/-! The stages of the assist at one pause: resolve live values under read access, take
snapshots without it, seed a memory and explore under read access again. A stage consumes
the result of the one before, and nothing comes out once the sources have changed. -/
namespace PauseFlow

/-- The flow at the pause and the live values of its variables. -/
structure ResolvedPause where
  graph : FlowGraph
  registry : Variables
  start : BlockId
  guard : FreshnessGuard
  aliases : Aliases
  frame : FrameRef
deriving DecidableEq

/-- All that was read from the debuggee. -/
structure ObservedPause where
  resolved : ResolvedPause
  snapshots : Snapshots
deriving DecidableEq

/-- An exploration that can be repeated. -/
structure SeededPause where
  graph : FlowGraph
  registry : Variables
  start : BlockId
  memory : Memory
  guard : FreshnessGuard
  budget : Nat
deriving DecidableEq

namespace ResolvedPause

/-- Resolve the variables of a flow that contains the anchor. The edits seen now are those
the later stages compare with. -/
def ofFlow (frame : FrameRef) (anchor : Anchor) (graph : FlowGraph) (registry : Variables) :
    Assist (Option ResolvedPause) := do
  let guard := FreshnessGuard.capture (← get).edits
  let some start := graph.start? anchor | return none
  let aliases ← liftM (Aliases.resolve frame registry)
  if aliases.isEmpty then return none
  return some ⟨graph, registry, start, guard, aliases, frame⟩

/-- Resolve the pause at an element. None whenever the assist does not apply: no valid
element, indexing, an unknown language, another location, no code to analyse, or no live
value at all. -/
def resolve (host : Host) (frame : FrameRef) (element : Option SourceElement) :
    Assist (Option ResolvedPause) := do
  let some element := element | return none
  if !element.valid || host.isIndexing || element.language ∉ host.languages then return none
  let location ← liftM (Query.location frame)
  if !(← liftExcept (element.matchesLocation location)) then return none
  let some anchor := element.anchor | return none
  let some codeBlock := element.codeBlock | return none
  let some (graph, registry) := host.buildFlow codeBlock (.ofTable (host.classTable codeBlock))
    | return none
  ofFlow frame anchor graph registry

/-- Take the snapshots. Refused while read access is held. -/
def observe (resolved : ResolvedPause) : Assist ObservedPause := do
  Assist.refuseReadAccess
  return ⟨resolved, ← Snapshots.fetch resolved.frame resolved.aliases⟩

end ResolvedPause

/-- Seed the exploration with what was observed; none if the sources have changed. -/
def ObservedPause.seed (observed : ObservedPause) (settings : Settings) (edits : UInt64) :
    Option SeededPause :=
  let resolved := observed.resolved
  match resolved.guard.check edits with
  | (.stale, _) => none
  | (.fresh, guard) =>
    let seed := Memory.ofObservations resolved.registry resolved.aliases observed.snapshots
      settings.maxDistinctPairs
    some ⟨resolved.graph, seed.registry, resolved.start, seed.memory, guard, settings.maxSteps⟩

/-- Explore from the seeded memory. There are verdicts only if the sources are unchanged
and every path was explored. -/
def SeededPause.explore (seeded : SeededPause) (edits : UInt64) (cancelled : Bool) :
    Option Verdicts × SeededPause :=
  match seeded.guard.check edits with
  | (.stale, guard) => (none, { seeded with guard := guard })
  | (.fresh, guard) =>
    let report := seeded.graph.explore seeded.registry seeded.start seeded.memory seeded.budget
      fun _ => cancelled
    (if report.outcome = .completed then some (.ofEvents report.events) else none,
      { seeded with guard := guard })

namespace Assist

/-- Seed and explore in one go. -/
def conclude (observed : ObservedPause) (settings : Settings) : Assist (Option Verdicts) := do
  let session ← get
  match observed.seed settings session.edits with
  | none => return none
  | some seeded =>
    if session.cancelled then return none
    return (seeded.explore session.edits session.cancelled).1

/-- All stages for one pause. No verdicts come out when the assist is switched off or does
not apply, when the sources changed, or when the user cancelled. -/
def atPause (host : Host) (frame : FrameRef) (element : Option SourceElement)
    (settings : Settings) : Assist (Option Verdicts) := do
  if !settings.enabled then return none
  let some resolved ← withReadAccess (ResolvedPause.resolve host frame element) | return none
  let observed ← tryCatch (some <$> resolved.observe) fun
    | .cancelled => pure none
    | failure => throw failure
  match observed with
  | none => return none
  | some observed => withReadAccess (conclude observed settings)

end Assist

end PauseFlow
