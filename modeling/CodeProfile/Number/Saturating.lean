/-!
# Saturating words

Addition and multiplication of machine words that stop at the largest word instead of wrapping.
-/

namespace CodeProfile

/-- The largest 32-bit word. -/
def maxWord32 : Nat := 0xFFFFFFFF

/-- The largest 64-bit word. -/
def maxWord64 : Nat := 0xFFFFFFFFFFFFFFFF

/-- The sum, or the largest word where the sum is larger. -/
def addSaturating32 (a b : UInt32) : UInt32 := UInt32.ofNat (min (a.toNat + b.toNat) maxWord32)

/-- The product, or the largest word where the product is larger. -/
def mulSaturating64 (a b : UInt64) : UInt64 := UInt64.ofNat (min (a.toNat * b.toNat) maxWord64)

theorem toNat_addSaturating32 (a b : UInt32) :
    (addSaturating32 a b).toNat = min (a.toNat + b.toNat) maxWord32 := by
  rw [addSaturating32, UInt32.toNat_ofNat']
  exact Nat.mod_eq_of_lt (by simp only [maxWord32]; omega)

theorem toNat_mulSaturating64 (a b : UInt64) :
    (mulSaturating64 a b).toNat = min (a.toNat * b.toNat) maxWord64 := by
  rw [mulSaturating64, UInt64.toNat_ofNat']
  exact Nat.mod_eq_of_lt (by simp only [maxWord64]; omega)

end CodeProfile
