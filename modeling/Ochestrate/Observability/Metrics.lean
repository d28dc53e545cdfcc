import Ochestrate.Framework.Dict

/-!
# Counters and audit events

`app/observability/metrics.py` and the record that `app/observability/audit.py`
writes. How the logger draws an event id and how a write may fail is part of
the state that it runs over (`Ochestrate.Tools.Hub`).
-/

namespace Ochestrate

/-- `MetricsRegistry`: a counter that was never incremented is zero. -/
structure MetricsRegistry where
  counter : Dict String Nat := .empty
  deriving DecidableEq

namespace MetricsRegistry

/-- `_counter[metric_name]`. -/
def count (m : MetricsRegistry) (metricName : String) : Nat := (m.counter.get? metricName).getD 0

def inc (m : MetricsRegistry) (metricName : String) (value : Nat := 1) : MetricsRegistry :=
  { m with counter := m.counter.set metricName (m.count metricName + value) }

theorem count_inc (m : MetricsRegistry) (metricName name : String) (value : Nat) :
    (m.inc metricName value).count name = m.count name + if name = metricName then value else 0 := by
  simp only [count, inc, Dict.get?_set]
  split
  · next h => subst h; rfl
  · rfl

end MetricsRegistry

/-- A line of the audit log; the payload's shape is the caller's. -/
structure AuditEvent (π : Type) where
  eventId : String
  eventType : String
  payload : π
  deriving DecidableEq

end Ochestrate
