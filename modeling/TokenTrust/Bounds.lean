/-
  TokenTrust.Bounds — the greatest integers of fixed widths. A signed width also has the negative
  numbers down to one below the opposite of its greatest.
-/

namespace TokenTrust

def maxInt32 : Nat := 2147483647
def maxInt64 : Nat := 9223372036854775807
def maxUInt64 : Nat := 18446744073709551615

theorem toInt_maxValue : Int64.maxValue.toInt = maxInt64 := by decide

theorem size_eq : UInt64.size = maxUInt64 + 1 := by decide

end TokenTrust
