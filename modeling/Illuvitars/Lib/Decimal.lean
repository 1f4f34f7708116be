import Mathlib.Data.Nat.Digits.Defs
import Illuvitars.Lib.Word

/-!
# Decimal numerals in ASCII

Byte strings that hold numerals in base ten.

* `decimal n` is the numeral of `n`, without leading zeros;
* `value n cs` is the number written by the digits of `n` followed by the digits `cs`; `value_decimal` says that the
  two are inverse;
* `le_value`: a prefix of a numeral is no larger than the numeral, so reading from the left overflows only if the whole
  numeral does;
* `length_decimal_value`: no numeral of a number is shorter than the one without leading zeros.
-/

namespace Decimal

/-- The byte of an ASCII character. -/
def code (c : Char) : BitVec 8 := BitVec.ofNat 8 c.toNat

def IsDigit (c : BitVec 8) : Prop := 0x30 ≤ c.toNat ∧ c.toNat < 0x3A

instance (c : BitVec 8) : Decidable (IsDigit c) := instDecidableAnd

def decimal (n : ℕ) : List (BitVec 8) := (Nat.toDigits 10 n).map code

/-- The digit that a byte stands for. -/
def digit (c : BitVec 8) : ℕ := c.toNat - 0x30

def value (n : ℕ) (cs : List (BitVec 8)) : ℕ := cs.foldl (fun n c => 10 * n + digit c) n

@[simp] theorem value_nil (n : ℕ) : value n [] = n := rfl

@[simp] theorem value_cons (n : ℕ) (c : BitVec 8) (cs : List (BitVec 8)) :
    value n (c :: cs) = value (10 * n + digit c) cs := by
  rw [value, List.foldl_cons, value]

/-- A digit's code is its ASCII code. -/
theorem toNat_code {c : Char} (h : c.isDigit) : (code c).toNat = c.toNat ∧ IsDigit (code c) := by
  simp only [Char.isDigit, Bool.and_eq_true, decide_eq_true_eq] at h
  obtain ⟨h0, h9⟩ := h
  have hlo : 48 ≤ c.toNat := h0
  have hhi : c.toNat ≤ 57 := h9
  have hc : (code c).toNat = c.toNat := by
    rw [code, BitVec.toNat_ofNat]
    omega
  refine ⟨hc, ?_⟩
  rw [IsDigit, hc]
  omega

theorem isDigit_of_mem_decimal {n : ℕ} {c : BitVec 8} (h : c ∈ decimal n) : IsDigit c := by
  obtain ⟨d, hd, rfl⟩ := List.mem_map.1 h
  exact (toNat_code (Nat.isDigit_of_mem_toDigits (by decide) (by decide) hd)).2

/-- The value of coded characters is that of the characters. -/
theorem value_map_code (cs : List Char) (n : ℕ) (h : ∀ c ∈ cs, c.isDigit) :
    value n (cs.map code) = Nat.ofDigitChars 10 cs n := by
  induction cs generalizing n with
  | nil => rfl
  | cons c cs ih =>
    obtain ⟨hc, -⟩ := toNat_code (h c List.mem_cons_self)
    have ih := ih (10 * n + (c.toNat - 0x30)) fun d hd => h d (List.mem_cons_of_mem c hd)
    rw [List.map_cons, value_cons, digit, hc, ih]
    rfl

/-- **The numeral of `n` has the value `n`.** -/
theorem value_decimal (n : ℕ) : value 0 (decimal n) = n := by
  rw [decimal, value_map_code _ _ fun c hc => Nat.isDigit_of_mem_toDigits (by decide) (by decide) hc]
  exact Nat.ofDigitChars_ten_toDigits

/-- More digits do not make a number smaller. -/
theorem le_value (cs : List (BitVec 8)) (n : ℕ) : n ≤ value n cs := by
  induction cs generalizing n with
  | nil => exact le_refl n
  | cons c cs ih =>
    have hle := ih (10 * n + digit c)
    rw [value_cons]
    omega

/-- A number below ten is one digit. -/
theorem decimal_of_lt {n : ℕ} (h : n < 10) : decimal n = [code n.digitChar] := by
  rw [decimal, Nat.toDigits_of_lt_base h]
  rfl

theorem decimal_ne_nil (n : ℕ) : decimal n ≠ [] := by
  rw [decimal, Ne, List.map_eq_nil_iff]
  exact Nat.toDigits_ne_nil

/-- Digits after `n` write less than `n + 1` with as many zeros. -/
theorem value_lt {cs : List (BitVec 8)} (h : ∀ c ∈ cs, IsDigit c) (n : ℕ) :
    value n cs < (n + 1) * 10 ^ cs.length := by
  induction cs generalizing n with
  | nil => simp
  | cons c cs ih =>
    have hc : digit c < 10 := by
      have := (h c List.mem_cons_self).2
      rw [digit]
      omega
    have ih := ih (fun d hd => h d (List.mem_cons_of_mem c hd)) (10 * n + digit c)
    rw [value_cons, List.length_cons, Nat.pow_succ]
    calc value (10 * n + digit c) cs < (10 * n + digit c + 1) * 10 ^ cs.length := ih
      _ ≤ (10 * (n + 1)) * 10 ^ cs.length := Nat.mul_le_mul_right _ (by omega)
      _ = (n + 1) * (10 ^ cs.length * 10) := by rw [Nat.mul_comm 10, Nat.mul_assoc, Nat.mul_comm 10]

/-- **The numeral without leading zeros is the shortest one.** -/
theorem length_decimal_value {cs : List (BitVec 8)} (h : ∀ c ∈ cs, IsDigit c) (hne : cs ≠ []) :
    (decimal (value 0 cs)).length ≤ cs.length := by
  have hlt := value_lt h 0
  rw [decimal, List.length_map]
  exact Nat.toDigits_length 10 _ _ (List.length_pos_iff.2 hne) (by simpa using hlt)

example : decimal 205 = [0x32#8, 0x30#8, 0x35#8] := by decide

end Decimal
