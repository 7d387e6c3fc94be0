/-
  TokenTrust.Time — instants as milliseconds since the epoch, in 64 bits.
-/

import TokenTrust.Bounds

namespace TokenTrust

abbrev Millis := Int64

/-- The instant `span` after `t`, or the last one there is (the first, for a negative span). -/
def Millis.after (t span : Millis) : Millis :=
  Int64.ofInt (max (-(maxInt64 + 1)) (min (t.toInt + span.toInt) maxInt64))

theorem Millis.toInt_after (t span : Millis) :
    (after t span).toInt = max (-((maxInt64 : Int) + 1)) (min (t.toInt + span.toInt) maxInt64) := by
  unfold after maxInt64
  exact Int64.toInt_ofInt_of_le (by omega) (by omega)

end TokenTrust
