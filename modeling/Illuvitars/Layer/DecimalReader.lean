import Illuvitars.Layer.PortraitFormat

/-!
# The decimal reader

What `_atoi` does on every buffer and from every offset, also behind the end of the buffer.

* `Reads`: the outcome for a value and a cursor, which is a revert as soon as one of them does not fit its word;
* `atoi_of_firstRun`, `atoi_of_forall`: the first run of digits behind the offset, and no digit at all;
* `atoi_exact`: the two cases, which are all.
-/

namespace Illuvitars
namespace PortraitLayer

open Evm Decimal BaseIlluvitar MaximalRuns

variable {a before run behind : List Uint8} {offset p : Uint8} {v : Uint256} {n m : ℕ}

/-! ## Outcomes -/

/-- The reader returns the value `n` and the cursor `m` if both fit, and reverts otherwise. -/
structure Reads (x : Exec (Uint256 × Uint8)) (n m : ℕ) : Prop where
  returned : n < 2 ^ 256 → m < 2 ^ 8 → ∃ v p, x = .ok (v, p) ∧ v.toNat = n ∧ p.toNat = m
  reverted : (∃ e, x = .error e) ↔ 2 ^ 256 ≤ n ∨ 2 ^ 8 ≤ m

/-- The outcome, from the values that are returned. -/
theorem reads_of_ok_iff {x : Exec (Uint256 × Uint8)} (h : ∀ v p, x = .ok (v, p) ↔ v.toNat = n ∧ p.toNat = m) :
    Reads x n m := by
  have hreturned : n < 2 ^ 256 → m < 2 ^ 8 → ∃ v p, x = .ok (v, p) ∧ v.toNat = n ∧ p.toNat = m := by
    intro hn hm
    obtain ⟨v, hv⟩ := exists_toNat_eq.2 hn
    obtain ⟨p, hp⟩ := exists_toNat_eq.2 hm
    exact ⟨v, p, (h v p).2 ⟨hv, hp⟩, hv, hp⟩
  refine ⟨hreturned, ?_⟩
  constructor
  · rintro ⟨e, he⟩
    by_contra hfit
    obtain ⟨v, p, hok, -⟩ := hreturned (by omega) (by omega)
    rw [he] at hok
    cases hok
  · intro hlarge
    cases hx : x with
    | error e => exact ⟨e, rfl⟩
    | ok r =>
      obtain ⟨v, p⟩ := r
      obtain ⟨hv, hp⟩ := (h v p).1 hx
      have := v.isLt
      have := p.isLt
      omega

/-! ## The reader -/

/-- The cursor inside the buffer, or at its end. -/
theorem at_offset (h : offset.toNat ≤ a.length) : At a offset (a.drop offset.toNat) := by
  refine ⟨rfl, ?_⟩
  rw [List.length_drop]
  omega

/-- Behind the end of the buffer nothing is read. -/
theorem atoi_of_lt (h : a.length < offset.toNat) : atoi a offset = .ok (0, offset) := by
  have hnil : a.drop offset.toNat = [] := List.drop_eq_nil_of_le h.le
  rw [atoi, skipNonDecimal, hnil, skipNonDecimalFrom, ok_bind, hnil, atoiFrom]

/-- The first run of digits behind the offset is read, and the cursor stops behind it. -/
theorem atoi_of_firstRun (h : FirstRun isDecimal (a.drop offset.toNat) before run behind) :
    Reads (atoi a offset) (value 0 run) (offset.toNat + (before ++ run).length) := by
  have hle : offset.toNat ≤ a.length := by
    by_contra hlt
    have hsplit := h.split
    rw [List.drop_eq_nil_of_le (by omega), eq_comm, List.append_eq_nil_iff, List.append_eq_nil_iff] at hsplit
    exact h.run_ne_nil hsplit.1.2
  have hat := at_offset hle
  obtain ⟨hfirst, hrest⟩ := h.first_rest
  refine reads_of_ok_iff fun v p => ?_
  rw [atoi_ok_iff hat, hfirst, hrest, at_append (h.split ▸ hat)]

/-- Without a digit behind the offset the value is 0, and the cursor stops at the end of the buffer. -/
theorem atoi_of_forall (h : ∀ c ∈ a.drop offset.toNat, isDecimal c = false) :
    Reads (atoi a offset) 0 (max offset.toNat a.length) := by
  refine reads_of_ok_iff fun v p => ?_
  rcases Nat.lt_or_ge a.length offset.toNat with hlt | hle
  · rw [atoi_of_lt hlt, max_eq_left hlt.le, Except.ok.injEq, Prod.mk.injEq, BitVec.toNat_eq, BitVec.toNat_eq]
    exact and_congr eq_comm eq_comm
  · have hat := at_offset hle
    have hlen := hat.2
    have hend : At a offset (a.drop offset.toNat ++ []) := by rwa [List.append_nil]
    obtain ⟨hfirst, hrest⟩ := first_rest_of_forall h
    rw [atoi_ok_iff hat, hfirst, hrest, at_append hend, hlen, max_eq_right hle, value_nil]

/-- **The decimal reader is exact up to its limits**: on every buffer and from every offset it reads the first run of
digits behind the offset, or finds the end of the buffer, and reverts iff the value or the cursor does not fit. -/
theorem atoi_exact (a : List Uint8) (offset : Uint8) :
    (∀ before run behind, FirstRun isDecimal (a.drop offset.toNat) before run behind →
      Reads (atoi a offset) (value 0 run) (offset.toNat + (before ++ run).length)) ∧
    ((∀ c ∈ a.drop offset.toNat, isDecimal c = false) → Reads (atoi a offset) 0 (max offset.toNat a.length)) ∧
    ((∀ c ∈ a.drop offset.toNat, isDecimal c = false) ∨
      ∃ before run behind, FirstRun isDecimal (a.drop offset.toNat) before run behind) :=
  ⟨fun _ _ _ h => atoi_of_firstRun h, atoi_of_forall, exists_firstRun isDecimal (a.drop offset.toNat)⟩

/-- The number 12 in `{12}`, from the opening brace on: the cursor stops at the closing brace. -/
theorem atoi_exact_twelve : Reads (atoi [0x7b, 0x31, 0x32, 0x7d] 0) 12 3 :=
  (atoi_exact [0x7b, 0x31, 0x32, 0x7d] 0).1 [0x7b] [0x31, 0x32] [0x7d]
    ⟨rfl, by decide, by decide, by decide, by decide⟩

end PortraitLayer
end Illuvitars
