import DivoomDev.Ics.Timeline
import DivoomDev.Ics.ZonedRules

/-! What a returned event says of its own repetition: its status, rule, days, bound and excluded
dates. Every event that is returned keeps to what it says. -/

namespace DivoomDev.Ics.ShownEvents
open DivoomDev.Library.Bytes DivoomDev.Library.Fallible DivoomDev.Library.View TextUtils Timezone Models
  Datetime Recurrence EventBuilder Window OverrideApplier Pipeline Clocks ClockArithmetic ClockPipeline Series
  Properties Selection Repetition Expansion ZonedRules Timeline

end DivoomDev.Ics.ShownEvents
