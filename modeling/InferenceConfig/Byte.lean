/-!
# Bytes

Writers build bytes from natural numbers. A number below 256 is not changed by that.
-/

namespace InferenceConfig

/-- A number below 256 is the value of its byte. -/
theorem toNat_toUInt8 {n : Nat} (h : n < 256) : n.toUInt8.toNat = n := by
  simp [Nat.mod_eq_of_lt h]

end InferenceConfig
