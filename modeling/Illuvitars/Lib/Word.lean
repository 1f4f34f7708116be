import Mathlib.Data.Nat.ModEq
import Illuvitars.Lib.Exec

/-!
# Machine words with checked arithmetic

Unsigned integers of width `w` are `BitVec w`. The operations are those of a compiler with overflow checks: they
revert instead of wrapping, so each is characterised by an equation between natural numbers (`checkedAdd_ok_iff`,
`checkedMul_ok_iff`, `checkedSub_ok_iff`), which holds in ℕ without a modulus.
-/

namespace Evm

abbrev Uint8 := BitVec 8
abbrev Uint16 := BitVec 16
abbrev Uint64 := BitVec 64
abbrev Uint256 := BitVec 256
abbrev Bytes32 := BitVec 256
abbrev Address := BitVec 160

variable {w v : Nat} {a b c : BitVec w}

/-! ## Checked operations -/

/-- `a + b`, reverting on overflow. -/
def checkedAdd (a b : BitVec w) : Exec (BitVec w) :=
  if a.toNat + b.toNat < 2 ^ w then .ok (a + b) else .error (.panic 0x11)

/-- `a - b`, reverting on underflow. -/
def checkedSub (a b : BitVec w) : Exec (BitVec w) :=
  if b.toNat ≤ a.toNat then .ok (a - b) else .error (.panic 0x11)

/-- `a * b`, reverting on overflow. -/
def checkedMul (a b : BitVec w) : Exec (BitVec w) :=
  if a.toNat * b.toNat < 2 ^ w then .ok (a * b) else .error (.panic 0x11)

/-- The sum returns iff it is the sum of the numbers. -/
theorem checkedAdd_ok_iff : checkedAdd a b = .ok c ↔ c.toNat = a.toNat + b.toNat := by
  unfold checkedAdd
  split
  · rw [Except.ok.injEq, BitVec.toNat_eq, BitVec.toNat_add, Nat.mod_eq_of_lt ‹_›]
    exact eq_comm
  · have := c.isLt
    constructor
    · intro h; cases h
    · omega

/-- The difference returns iff it is the difference of the numbers. -/
theorem checkedSub_ok_iff : checkedSub a b = .ok c ↔ c.toNat + b.toNat = a.toNat := by
  unfold checkedSub
  split
  · rw [Except.ok.injEq, BitVec.toNat_eq, BitVec.toNat_sub_of_le (by simpa [BitVec.le_def])]
    omega
  · constructor
    · intro h; cases h
    · omega

/-- The product returns iff it is the product of the numbers. -/
theorem checkedMul_ok_iff : checkedMul a b = .ok c ↔ c.toNat = a.toNat * b.toNat := by
  unfold checkedMul
  split
  · rw [Except.ok.injEq, BitVec.toNat_eq, BitVec.toNat_mul, Nat.mod_eq_of_lt ‹_›]
    exact eq_comm
  · have := c.isLt
    constructor
    · intro h; cases h
    · omega

/-- A sum that fits returns. -/
theorem checkedAdd_of_lt (h : a.toNat + b.toNat < 2 ^ w) : ∃ c, checkedAdd a b = .ok c ∧ c.toNat = a.toNat + b.toNat :=
  ⟨a + b, if_pos h, by rw [BitVec.toNat_add, Nat.mod_eq_of_lt h]⟩

/-- The operations revert with the code for overflow only. -/
theorem Avoids.checkedAdd {e : Revert} (he : e ≠ .panic 0x11) : Avoids e (checkedAdd a b) := by
  intro h
  unfold Evm.checkedAdd at h
  split at h
  · cases h
  · cases h
    exact he rfl

theorem Avoids.checkedSub {e : Revert} (he : e ≠ .panic 0x11) : Avoids e (checkedSub a b) := by
  intro h
  unfold Evm.checkedSub at h
  split at h
  · cases h
  · cases h
    exact he rfl

theorem Avoids.checkedMul {e : Revert} (he : e ≠ .panic 0x11) : Avoids e (checkedMul a b) := by
  intro h
  unfold Evm.checkedMul at h
  split at h
  · cases h
  · cases h
    exact he rfl

/-- A natural number is the value of a word iff it is below `2 ^ w`. -/
theorem exists_toNat_eq {n : Nat} : (∃ a : BitVec w, a.toNat = n) ↔ n < 2 ^ w := by
  constructor
  · rintro ⟨a, rfl⟩; exact a.isLt
  · intro h; exact ⟨BitVec.ofNat w n, by rw [BitVec.toNat_ofNat, Nat.mod_eq_of_lt h]⟩

/-- A word is known by its value. -/
theorem toNat_eq_iff {n : Nat} : a.toNat = n ↔ n < 2 ^ w ∧ a = BitVec.ofNat w n := by
  constructor
  · rintro rfl; exact ⟨a.isLt, by simp⟩
  · rintro ⟨h, rfl⟩; rw [BitVec.toNat_ofNat, Nat.mod_eq_of_lt h]

/-- `a ** n`, reverting on overflow. -/
def checkedPow (a : BitVec w) (n : Nat) : Exec (BitVec w) :=
  if a.toNat ^ n < 2 ^ w then .ok (BitVec.ofNat w (a.toNat ^ n)) else .error (.panic 0x11)

/-- The power returns iff it is the power of the numbers. -/
theorem checkedPow_ok_iff {n : Nat} : checkedPow a n = .ok c ↔ c.toNat = a.toNat ^ n := by
  unfold checkedPow
  split
  · rename_i h
    rw [Except.ok.injEq, toNat_eq_iff, and_iff_right h]
    exact eq_comm
  · have := c.isLt
    constructor
    · intro h; cases h
    · omega

/-- `a / b`, reverting on a zero divisor. -/
def checkedDiv (a b : BitVec w) : Exec (BitVec w) := if b = 0 then .error (.panic 0x12) else .ok (a / b)

/-- The quotient returns iff the divisor is not zero, and then it is that of the numbers. -/
theorem checkedDiv_ok_iff : checkedDiv a b = .ok c ↔ 0 < b.toNat ∧ c.toNat = a.toNat / b.toNat := by
  have hb : b = 0 ↔ ¬0 < b.toNat := by
    simp [BitVec.toNat_eq]
  unfold checkedDiv
  split
  · rename_i h
    simp [hb.1 h]
  · rename_i h
    rw [Except.ok.injEq, BitVec.toNat_eq, BitVec.toNat_udiv, and_iff_right (not_not.1 (mt hb.2 h))]
    exact eq_comm

/-! ## Conversions between widths -/

/-- Widening keeps the value. -/
theorem toNat_widen (h : w ≤ v) (a : BitVec w) : (a.setWidth v).toNat = a.toNat := by
  rw [BitVec.toNat_setWidth, Nat.mod_eq_of_lt (lt_of_lt_of_le a.isLt (Nat.pow_le_pow_right (by omega) h))]

/-- Narrowing keeps a value that fits. -/
theorem toNat_narrow (h : a.toNat < 2 ^ v) : (a.setWidth v).toNat = a.toNat := by
  rw [BitVec.toNat_setWidth, Nat.mod_eq_of_lt h]

/-! ## Quotient and remainder -/

/-- `(a / b, a % b)` with the remainder narrowed to the width of `b`; a zero divisor reverts. -/
def checkedDivMod (a : BitVec w) (b : BitVec v) : Exec (BitVec w × BitVec v) :=
  if b = 0 then .error (.panic 0x12) else .ok (a / b.setWidth w, (a % b.setWidth w).setWidth v)

/-- With a nonzero divisor of smaller width the quotient and the remainder are those of the numbers. -/
theorem checkedDivMod_spec (h : v ≤ w) (a : BitVec w) {b : BitVec v} (hb : b ≠ 0) :
    ∃ q r, checkedDivMod a b = .ok (q, r) ∧ q.toNat = a.toNat / b.toNat ∧ r.toNat = a.toNat % b.toNat := by
  have hpos : 0 < b.toNat := Nat.pos_of_ne_zero (fun h0 => hb (by simpa [BitVec.toNat_eq] using h0))
  have hr : (a % b.setWidth w).toNat = a.toNat % b.toNat := by rw [BitVec.toNat_umod, toNat_widen h]
  refine ⟨_, _, if_neg hb, ?_, ?_⟩
  · rw [BitVec.toNat_udiv, toNat_widen h]
  · rw [toNat_narrow, hr]
    rw [hr]
    exact lt_trans (Nat.mod_lt _ hpos) b.isLt

/-- Quotient and remainder return iff the divisor is not zero, and then they are those of the numbers. -/
theorem checkedDivMod_ok_iff (h : v ≤ w) {a q : BitVec w} {b r : BitVec v} :
    checkedDivMod a b = .ok (q, r) ↔ 0 < b.toNat ∧ q.toNat = a.toNat / b.toNat ∧ r.toNat = a.toNat % b.toNat := by
  by_cases hb : b = 0
  · subst hb
    simp [checkedDivMod]
  · have hpos : 0 < b.toNat := Nat.pos_of_ne_zero fun h0 => hb (by simpa [BitVec.toNat_eq] using h0)
    obtain ⟨q', r', hok, hq, hr⟩ := checkedDivMod_spec h a hb
    rw [hok, Except.ok.injEq, Prod.mk.injEq, BitVec.toNat_eq, BitVec.toNat_eq, hq, hr, and_iff_right hpos]
    exact and_congr eq_comm eq_comm

/-- The remainder is below the divisor. -/
theorem checkedDivMod_lt (h : v ≤ w) {a q : BitVec w} {b r : BitVec v} (hok : checkedDivMod a b = .ok (q, r)) :
    r.toNat < b.toNat := by
  obtain ⟨hpos, -, hr⟩ := (checkedDivMod_ok_iff h).1 hok
  rw [hr]
  exact Nat.mod_lt _ hpos

example : checkedAdd (200#8) (55#8) = .ok 255#8 ∧ checkedAdd (200#8) (56#8) = .error (.panic 0x11) := by decide

end Evm
