import Mathlib
import PocketSql.Number.Integer

/-!
# Words

The integers that have a word are those of a range, and an operation on words gives the exact
result or none.
-/

namespace PocketSql.Integer

/-- The integer is the value of a word. -/
def HasWord (z : Int) : Prop :=
  -9223372036854775808 ≤ z ∧ z ≤ 9223372036854775807

instance (z : Int) : Decidable (HasWord z) :=
  inferInstanceAs (Decidable (_ ∧ _))

theorem hasWord_toInt (a : Int64) : HasWord a.toInt :=
  ⟨a.le_toInt, a.toInt_le⟩

theorem ofInt?_of_hasWord {z : Int} (hz : HasWord z) :
    ∃ a : Int64, ofInt? z = some a ∧ a.toInt = z := by
  obtain ⟨hlow, hhigh⟩ := hz
  exact ⟨Int64.ofInt z, if_pos ⟨hlow, hhigh⟩, Int64.toInt_ofInt_of_le hlow (by omega)⟩

theorem ofInt?_of_not_hasWord {z : Int} (hz : ¬HasWord z) : ofInt? z = none :=
  if_neg hz

end PocketSql.Integer
