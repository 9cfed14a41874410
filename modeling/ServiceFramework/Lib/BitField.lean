import Mathlib.Data.Nat.Bitwise
import Mathlib.Tactic.Common

/-!
# Fields of a machine word

A word assembled by shifts and bitwise or from fields that do not overlap is the sum of the
fields times their weights (`shiftLeft_or_eq_add`), so each field is read back by a shift and a
mask. `pair` is the common case of two 32-bit halves in a 64-bit word.
-/

namespace BitField

theorem shiftLeft_or_eq_add {a b i : ℕ} (hb : b < 2 ^ i) : a <<< i ||| b = a * 2 ^ i + b := by
  rw [← Nat.shiftLeft_add_eq_or_of_lt hb, Nat.shiftLeft_eq]

/-! ## Two halves of a 64-bit word -/

/-- `hi << 32 | lo`. -/
def pair (hi : UInt64) (lo : UInt32) : UInt64 := hi <<< 32 ||| lo.toUInt64

/-- The low half, `id & 0xffffffff`. -/
def low (id : UInt64) : UInt32 := (id &&& 0xffffffff).toUInt32

/-- The high half, `id >> 32`. -/
def high (id : UInt64) : UInt64 := id >>> 32

theorem low_toNat (id : UInt64) : (low id).toNat = id.toNat % 2 ^ 32 := by
  have hmask : id.toNat &&& 0xffffffff = id.toNat % 2 ^ 32 :=
    Nat.and_two_pow_sub_one_eq_mod id.toNat 32
  rw [low, UInt64.toNat_toUInt32, UInt64.toNat_and]
  change (id.toNat &&& 0xffffffff) % 2 ^ 32 = _
  rw [hmask, Nat.mod_mod]

theorem high_toNat (id : UInt64) : (high id).toNat = id.toNat / 2 ^ 32 := by
  simp [high, Nat.shiftRight_eq_div_pow]

/-- The upper 32 bits of the high half are shifted out of the word. -/
theorem pair_toNat (hi : UInt64) (lo : UInt32) :
    (pair hi lo).toNat = hi.toNat % 2 ^ 32 * 2 ^ 32 + lo.toNat := by
  have hlo : lo.toNat < 2 ^ 32 := lo.toNat_lt
  have hshift : hi.toNat <<< 32 % 2 ^ 64 = (hi.toNat % 2 ^ 32) <<< 32 := by
    simp only [Nat.shiftLeft_eq]
    omega
  simp only [pair, UInt64.toNat_or, UInt64.toNat_shiftLeft, UInt32.toNat_toUInt64]
  rw [← shiftLeft_or_eq_add hlo, ← hshift]
  rfl

@[simp] theorem low_pair (hi : UInt64) (lo : UInt32) : low (pair hi lo) = lo := by
  have hlo : lo.toNat < 2 ^ 32 := lo.toNat_lt
  apply UInt32.toNat_inj.1
  rw [low_toNat, pair_toNat]
  omega

theorem high_pair_toNat (hi : UInt64) (lo : UInt32) :
    (high (pair hi lo)).toNat = hi.toNat % 2 ^ 32 := by
  have hlo : lo.toNat < 2 ^ 32 := lo.toNat_lt
  rw [high_toNat, pair_toNat]
  omega

/-- Of an index only its low 32 bits fit above. -/
theorem high_pair_ofNat (i : ℕ) (lo : UInt32) :
    (high (pair (UInt64.ofNat i) lo)).toNat = i % 2 ^ 32 := by
  rw [high_pair_toNat, UInt64.toNat_ofNat']
  omega

theorem high_pair_ofNat_of_lt {i : ℕ} (h : i < 2 ^ 32) (lo : UInt32) :
    (high (pair (UInt64.ofNat i) lo)).toNat = i := by
  rw [high_pair_ofNat, Nat.mod_eq_of_lt h]

/-- A high half below `2^32` is read back whole. -/
theorem high_pair {hi : UInt64} (h : hi.toNat < 2 ^ 32) (lo : UInt32) :
    high (pair hi lo) = hi := by
  apply UInt64.toNat_inj.1
  rw [high_pair_toNat, Nat.mod_eq_of_lt h]

/-- An id is the pair of its halves. -/
theorem pair_high_low (id : UInt64) : pair (high id) (low id) = id := by
  have hlt : id.toNat < 2 ^ 64 := id.toNat_lt
  apply UInt64.toNat_inj.1
  rw [pair_toNat, high_toNat, low_toNat]
  omega

theorem pair_inj {hi hi' : UInt64} {lo lo' : UInt32} (h : hi.toNat < 2 ^ 32)
    (h' : hi'.toNat < 2 ^ 32) : pair hi lo = pair hi' lo' ↔ hi = hi' ∧ lo = lo' := by
  constructor
  · intro e
    refine ⟨?_, ?_⟩
    · rw [← high_pair h lo, e, high_pair h' lo']
    · rw [← low_pair hi lo, e, low_pair]
  · rintro ⟨rfl, rfl⟩
    rfl

end BitField
