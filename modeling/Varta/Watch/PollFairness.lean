import Varta.Lib.Rotation
import Varta.Watch.PollLog
import Mathlib.Data.List.Nodup
import Mathlib.Data.Nat.ModEq

/-!
# No listener starves

A poll that returns an event leaves its turn to the listener after the one that had it, and a
poll that returns none has asked all of them.
-/
namespace Varta.Watch

namespace Observer

/-! ### The turn -/

variable (o : Observer)

end Observer

end Varta.Watch
