/-! Whether the sources are still those that were analysed. A guard remembers the number
of edits; once it saw another number it stays stale, also if the count comes round. -/
namespace PauseFlow

inductive Freshness where
  | fresh
  | stale
deriving DecidableEq

structure FreshnessGuard where
  /-- Number of edits at the time of capture. -/
  stamp : UInt64
  /-- Whether another number was seen. -/
  isStale : Bool
deriving DecidableEq

namespace FreshnessGuard

def capture (edits : UInt64) : FreshnessGuard := ⟨edits, false⟩

/-- Compare with the number of edits now; the guard remembers that it is stale. -/
def check (guard : FreshnessGuard) (edits : UInt64) : Freshness × FreshnessGuard :=
  if guard.isStale then (.stale, guard)
  else if edits = guard.stamp then (.fresh, guard)
  else (.stale, { guard with isStale := true })

end FreshnessGuard

end PauseFlow
