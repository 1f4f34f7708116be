import Illuvitars.Lib.Decimal

/-!
# Minting blobs

The library functions of the bridge that take a minting blob `{tokenId}:{blueprint}` apart. `split_mintingBlob` is the
round trip: `Minting.split` gives back the id and the blueprint that the blob was made of, whatever the blueprint is.
-/

namespace Illuvitars

open Evm Decimal

namespace Bytes

/-- The position of the first byte `value`, `none` for the `-1` of the source. -/
def indexOf (base : List Uint8) (value : Uint8) : Option ℕ := base.findIdx? (· = value)

def toUintFrom (result : Uint256) : List Uint8 → Exec Uint256
  | [] => .ok result
  | c :: cs => do
    let val := c.setWidth 256
    if 48 ≤ val.toNat ∧ val.toNat ≤ 57 then
      let tens ← checkedMul result 10
      let digit ← checkedSub val 48
      let result ← checkedAdd tens digit
      toUintFrom result cs
    else .error (.error "invalid input, only numbers allowed")

def toUint (b : List Uint8) : Exec Uint256 := toUintFrom 0 b

/-- The loop returns iff all bytes are digits and the number fits. -/
theorem toUintFrom_ok_iff {cs : List Uint8} {r v : Uint256} :
    toUintFrom r cs = .ok v ↔ (∀ c ∈ cs, IsDigit c) ∧ v.toNat = value r.toNat cs := by
  induction cs generalizing r with
  | nil => simp [toUintFrom, BitVec.toNat_eq, eq_comm]
  | cons c cs ih =>
    have hval : (c.setWidth 256).toNat = c.toNat := toNat_widen (by decide) c
    have hten : (10 : Uint256).toNat = 10 := rfl
    have hzero : (48 : Uint256).toNat = 48 := rfl
    simp only [toUintFrom, List.forall_mem_cons, value_cons, hval]
    by_cases hc : IsDigit c
    · have hdigit : 48 ≤ c.toNat ∧ c.toNat ≤ 57 := ⟨hc.1, by have := hc.2; omega⟩
      rw [if_pos hdigit]
      simp only [bind_ok_iff, checkedMul_ok_iff, checkedSub_ok_iff, checkedAdd_ok_iff, ih, hval, hten, hzero]
      constructor
      · rintro ⟨tens, ht, d, hd, result, hr, hcs, hv⟩
        have hpush : result.toNat = 10 * r.toNat + digit c := by rw [digit]; omega
        exact ⟨⟨hc, hcs⟩, hpush ▸ hv⟩
      · rintro ⟨⟨-, hcs⟩, hv⟩
        -- the prefix read so far is no larger than the whole number, so it fits
        have hle := le_value cs (10 * r.toNat + digit c)
        have hlt := v.isLt
        have hd : digit c + 48 = c.toNat := by rw [digit]; omega
        obtain ⟨tens, ht⟩ := exists_toNat_eq.2 (show r.toNat * 10 < 2 ^ 256 by omega)
        obtain ⟨d, hd'⟩ := exists_toNat_eq.2 (show digit c < 2 ^ 256 by omega)
        obtain ⟨result, hr⟩ := exists_toNat_eq.2 (show 10 * r.toNat + digit c < 2 ^ 256 by omega)
        exact ⟨tens, ht, d, by omega, result, by omega, hcs, hr.symm ▸ hv⟩
    · have hno : ¬(48 ≤ c.toNat ∧ c.toNat ≤ 57) := fun h => hc ⟨h.1, by omega⟩
      rw [if_neg hno]
      simp [hc]

/-- The numeral of a word is read back. -/
theorem toUint_decimal (v : Uint256) : toUint (decimal v.toNat) = .ok v :=
  toUintFrom_ok_iff.2 ⟨fun _ hc => isDigit_of_mem_decimal hc, (value_decimal v.toNat).symm⟩

end Bytes

namespace Minting

def split (blob : List Uint8) : Exec (Uint256 × List Uint8) :=
  match Bytes.indexOf blob 0x3A with
  | none => .error (.error "Separator must exist")
  | some index => do
    let close ← subLength index 1
    let id ← slice blob 1 close
    let tokenID ← Bytes.toUint id
    let rest ← subLength blob.length index
    let blueprintLength ← subLength rest 3
    if blueprintLength = 0 then .ok (tokenID, [])
    else
      let last ← subLength blob.length 1
      let blueprint ← slice blob (index + 2) last
      .ok (tokenID, blueprint)

/-- The blob `{tokenId}:{blueprint}`. -/
def mintingBlob (tokenId : Uint256) (blueprint : List Uint8) : List Uint8 :=
  [0x7B] ++ decimal tokenId.toNat ++ [0x7D] ++ [0x3A] ++ [0x7B] ++ blueprint ++ [0x7D]

variable {tokenId : Uint256} {blueprint : List Uint8}

/-- The separator is the first colon: there is none in the braces around the id. -/
theorem indexOf_mintingBlob :
    Bytes.indexOf (mintingBlob tokenId blueprint) 0x3A = some ((decimal tokenId.toNat).length + 2) := by
  have hdigits : (decimal tokenId.toNat).findIdx? (· = 0x3A#8) = none := by
    rw [List.findIdx?_eq_none_iff]
    intro c hc
    have hlt : c.toNat < 0x3A := (isDigit_of_mem_decimal hc).2
    have hne : c ≠ 0x3A#8 := fun h => absurd hlt (by rw [h]; decide)
    simpa using hne
  simp [Bytes.indexOf, mintingBlob, List.findIdx?_append, hdigits, List.findIdx?_cons]
  omega

/-- **Splitting a blob gives back what it was made of.** -/
theorem split_mintingBlob : split (mintingBlob tokenId blueprint) = .ok (tokenId, blueprint) := by
  have hlen : (mintingBlob tokenId blueprint).length = (decimal tokenId.toNat).length + blueprint.length + 5 := by
    simp [mintingBlob]
    omega
  have hid : slice (mintingBlob tokenId blueprint) 1 ((decimal tokenId.toNat).length + 2 - 1) =
      .ok (decimal tokenId.toNat) := by
    have h := slice_middle [0x7B] (decimal tokenId.toNat) ([0x7D] ++ [0x3A] ++ [0x7B] ++ blueprint ++ [0x7D])
    simp only [List.length_singleton, ← List.append_assoc] at h
    rw [show (decimal tokenId.toNat).length + 2 - 1 = 1 + (decimal tokenId.toNat).length by omega]
    exact h
  have hbp : slice (mintingBlob tokenId blueprint) ((decimal tokenId.toNat).length + 2 + 2)
      ((mintingBlob tokenId blueprint).length - 1) = .ok blueprint := by
    have h := slice_middle ([0x7B] ++ decimal tokenId.toNat ++ [0x7D] ++ [0x3A] ++ [0x7B]) blueprint [0x7D]
    rw [hlen, show (decimal tokenId.toNat).length + 2 + 2 =
      ([0x7B] ++ decimal tokenId.toNat ++ [0x7D] ++ [0x3A] ++ [0x7B] : List Uint8).length by simp]
    rw [show (decimal tokenId.toNat).length + blueprint.length + 5 - 1 =
      ([0x7B] ++ decimal tokenId.toNat ++ [0x7D] ++ [0x3A] ++ [0x7B] : List Uint8).length + blueprint.length by
        simp; omega]
    exact h
  simp only [split, indexOf_mintingBlob]
  rw [subLength_of_le (by omega), ok_bind, hid, ok_bind, Bytes.toUint_decimal, ok_bind, subLength_of_le (by omega),
    ok_bind, subLength_of_le (by omega), ok_bind]
  split
  · -- an empty blueprint
    rename_i h0
    have hnil : blueprint = [] := List.length_eq_zero_iff.1 (by omega)
    rw [hnil]
  · rw [subLength_of_le (by omega), ok_bind, hbp, ok_bind]

end Minting
end Illuvitars
