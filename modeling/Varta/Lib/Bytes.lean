import Mathlib.Data.List.Basic
import Mathlib.Data.Fintype.Basic

/-! Byte strings, their literals, and case analysis over all 256 bytes. -/

abbrev Bytes := List UInt8

namespace Bytes

/-- The bytes of a string literal. -/
def ofString (text : String) : Bytes := text.toUTF8.data.toList

/-- A property of one byte can be checked by running it on the 256 values. -/
theorem forall_of_fin {p : UInt8 → Prop} (all : ∀ n : Fin 256, p (.ofFin n)) (b : UInt8) : p b :=
  all b.toFin

end Bytes
