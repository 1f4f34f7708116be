import Illuvitars.Minter.Storage

/-!
# Recording a request

`_storePortraitRequest`, `_storeAccessoryRequest`, `paidMint`, `freeMint` and `fulfillRandomness`. The three loops over
parameter lists are one definition, `storeParams`; `storeParams_ok_iff` says exactly when such a loop returns and what,
and the lemmas after it say the same of the functions that run it. Sums and products are those of ℕ: a checked
operation that would wrap reverts.
-/

namespace Illuvitars
namespace Minter

open Evm

/-! ## The loops over parameter lists -/

section StoreParams

variable {P : Type} [MintParams P] (price : BoxType → Uint256) (isFree : Bool)

/-- The `if (!isFree)` of a loop: the price of the parameter's units is added. -/
def addPrice (param : P) (etherPrice : Uint256) : Exec Uint256 :=
  if isFree then .ok etherPrice else do
    let paid ← checkedMul ((MintParams.amount param).setWidth 256) (price (MintParams.boxType param))
    checkedAdd etherPrice paid

/-- One loop of the store helpers: `etherPrice` and `amount` are its accumulators, `stored` the storage array it pushes
to. -/
def storeParams : List P → (etherPrice amount : Uint256) → (stored : List P) → Exec (Uint256 × Uint256 × List P)
  | [], etherPrice, amount, stored => .ok (etherPrice, amount, stored)
  | param :: params, etherPrice, amount, stored => do
    require (MintParams.amount param ≠ 0) "Invalid amount"
    require (isFree = decide (MintParams.boxType param = .virtual)) "Invalid box type"
    let etherPrice ← addPrice price isFree param etherPrice
    let amount ← checkedAdd amount ((MintParams.amount param).setWidth 256)
    storeParams params etherPrice amount (stored ++ [param])

/-- The checks on every parameter: a positive amount, and a box that is virtual exactly in free requests. -/
def ParamsOk (isFree : Bool) (ps : List P) : Prop :=
  ∀ p ∈ ps, MintParams.amount p ≠ 0 ∧ (isFree = true ↔ MintParams.boxType p = .virtual)

instance (ps : List P) : Decidable (ParamsOk isFree ps) := inferInstanceAs (Decidable (∀ p ∈ ps, _ ∧ _))

/-- What a list adds to the price: nothing for free requests. -/
def priceOf (ps : List P) : ℕ := if isFree then 0 else cost price ps

variable {price isFree}

theorem paramsOk_cons {p : P} {ps : List P} :
    ParamsOk isFree (p :: ps) ↔
      (MintParams.amount p ≠ 0 ∧ (isFree = true ↔ MintParams.boxType p = .virtual)) ∧ ParamsOk isFree ps :=
  List.forall_mem_cons

/-- One round adds the price of the parameter's units, unless the request is free. -/
theorem addPrice_ok_iff {p : P} {e e' : Uint256} :
    addPrice price isFree p e = .ok e' ↔ e'.toNat = e.toNat + priceOf price isFree [p] := by
  cases isFree with
  | true => simp [addPrice, priceOf, BitVec.toNat_eq, eq_comm]
  | false =>
    simp only [addPrice, Bool.false_eq_true, if_false, bind_ok_iff, checkedMul_ok_iff, checkedAdd_ok_iff, priceOf,
      cost_cons, cost_nil, Nat.add_zero, toNat_widen (show 64 ≤ 256 by decide)]
    constructor
    · rintro ⟨c, hc, h⟩; rw [h, hc]
    · intro h
      -- the product is part of a sum that fits, so it fits
      obtain ⟨c, hc⟩ := exists_toNat_eq.2 (show (MintParams.amount p).toNat * (price (MintParams.boxType p)).toNat <
        2 ^ 256 by have := e'.isLt; omega)
      exact ⟨c, hc, by rw [h, hc]⟩

/-- **The loop returns iff every parameter passes its checks and the sums fit**, and then the sums are those of ℕ and
the list has been appended to the storage array. -/
theorem storeParams_ok_iff {ps : List P} {e a e' a' : Uint256} {st st' : List P} :
    storeParams price isFree ps e a st = .ok (e', a', st') ↔
      ParamsOk isFree ps ∧ e'.toNat = e.toNat + priceOf price isFree ps ∧ a'.toNat = a.toNat + total ps ∧
        st' = st ++ ps := by
  induction ps generalizing e a st with
  | nil =>
    simp only [storeParams, Except.ok.injEq, Prod.mk.injEq, priceOf, total_nil, cost_nil, ite_self, Nat.add_zero,
      List.append_nil, ← BitVec.toNat_eq]
    constructor
    · rintro ⟨rfl, rfl, rfl⟩; exact ⟨fun _ h => (by cases h), rfl, rfl, rfl⟩
    · rintro ⟨-, rfl, rfl, rfl⟩; exact ⟨rfl, rfl, rfl⟩
  | cons p ps ih =>
    have hprice : priceOf price isFree (p :: ps) = priceOf price isFree [p] + priceOf price isFree ps := by
      unfold priceOf; split <;> simp
    have hbox : (isFree = decide (MintParams.boxType p = .virtual)) ↔
        (isFree = true ↔ MintParams.boxType p = .virtual) := by
      cases isFree <;> simp
    rw [storeParams]
    simp only [bind_ok_iff, require_ok_iff, exists_const, addPrice_ok_iff, checkedAdd_ok_iff, ih, paramsOk_cons,
      hbox, hprice, total_cons, toNat_widen (show 64 ≤ 256 by decide)]
    constructor
    · rintro ⟨ha, hb, e₁, he₁, a₁, ha₁, hok, he, hsum, rfl⟩
      exact ⟨⟨⟨ha, hb⟩, hok⟩, by omega, by omega, by simp⟩
    · rintro ⟨⟨⟨ha, hb⟩, hok⟩, he, hsum, rfl⟩
      obtain ⟨e₁, he₁⟩ := exists_toNat_eq.2 (show e.toNat + priceOf price isFree [p] < 2 ^ 256 by
        have := e'.isLt; omega)
      obtain ⟨a₁, ha₁⟩ := exists_toNat_eq.2 (show a.toNat + (MintParams.amount p).toNat < 2 ^ 256 by
        have := a'.isLt; omega)
      exact ⟨ha, hb, e₁, he₁, a₁, ha₁, hok, by omega, by omega, by simp⟩

end StoreParams

/-! ## Storing the lists of a request -/

/-- The sale window is open. -/
def InSaleWindow (s : Storage) (timestamp : Uint256) : Prop :=
  s.portraitSaleWindow.start.toNat ≤ timestamp.toNat ∧ timestamp.toNat ≤ s.portraitSaleWindow.endTime.toNat

instance (s : Storage) (t : Uint256) : Decidable (InSaleWindow s t) := inferInstanceAs (Decidable (_ ∧ _))

def portraitPrice (s : Storage) (boxType : BoxType) : Uint256 := (s.portraitMintInfo boxType).price
def semiRandomPrice (s : Storage) (boxType : BoxType) : Uint256 := (s.accessoryMintInfo boxType).semiRandomPrice
def randomPrice (s : Storage) (boxType : BoxType) : Uint256 := (s.accessoryMintInfo boxType).randomPrice

/-- `_storePortraitRequest`: the storage, the record and the price. -/
def storePortraitRequest (s : Storage) (timestamp : Uint256) (mintRequest : MintRequest)
    (portraitMintParams : List PortraitMintParams) (isFree : Bool) : Exec (Storage × MintRequest × Uint256) := do
  require (portraitMintParams.length > 0 → InSaleWindow s timestamp) "Sale not started or ended"
  let (etherPrice, portraitAmount, stored) ←
    storeParams (portraitPrice s) isFree portraitMintParams 0 0 mintRequest.portraitMintParams
  require (isFree = false ∨ portraitAmount.toNat ≤ s.freePortraitLimitPerTx.toNat) "Exceed limit"
  let reserved ← checkedMul (PORTRAIT_MASK.setWidth 256) portraitAmount
  let nextPortraitTokenId ← checkedAdd s.nextPortraitTokenId reserved
  pure ({ s with nextPortraitTokenId },
    { mintRequest with
      portraitMintParams := stored, portraitAmount, portraitStartTokenId := s.nextPortraitTokenId },
    etherPrice)

/-- `_storeAccessoryRequest`. -/
def storeAccessoryRequest (s : Storage) (mintRequest : MintRequest)
    (accessorySemiRandomMintParams : List AccessorySemiRandomMintParams)
    (accessoryFullRandomMintParams : List AccessoryFullRandomMintParams) (isFree : Bool) :
    Exec (Storage × MintRequest × Uint256) := do
  let (etherPrice, accessoryAmount, semi) ← storeParams (semiRandomPrice s) isFree accessorySemiRandomMintParams 0 0
    mintRequest.accessorySemiRandomMintParams
  let (etherPrice, accessoryAmount, full) ← storeParams (randomPrice s) isFree accessoryFullRandomMintParams etherPrice
    accessoryAmount mintRequest.accessoryFullRandomMintParams
  require (isFree = false ∨ accessoryAmount.toNat ≤ s.freeAccessoryLimitPerTx.toNat) "Exceed limit"
  let nextAccessoryTokenId ← checkedAdd s.nextAccessoryTokenId accessoryAmount
  pure ({ s with nextAccessoryTokenId },
    { mintRequest with
      accessorySemiRandomMintParams := semi, accessoryFullRandomMintParams := full, accessoryAmount,
      accessoryStartTokenId := s.nextAccessoryTokenId },
    etherPrice)

/-! ### What storing does -/

section Stored

variable {s s' : Storage} {t : Uint256} {r r' : MintRequest} {ps : List PortraitMintParams}
  {ss : List AccessorySemiRandomMintParams} {fs : List AccessoryFullRandomMintParams} {isFree : Bool} {e : Uint256}

/-- The record after the portrait list is stored. -/
def MintRequest.withPortraits (r : MintRequest) (s : Storage) (ps : List PortraitMintParams) : MintRequest :=
  { r with
    portraitMintParams := r.portraitMintParams ++ ps
    portraitAmount := BitVec.ofNat 256 (total ps)
    portraitStartTokenId := s.nextPortraitTokenId }

/-- The record after the accessory lists are stored. -/
def MintRequest.withAccessories (r : MintRequest) (s : Storage) (ss : List AccessorySemiRandomMintParams)
    (fs : List AccessoryFullRandomMintParams) : MintRequest :=
  { r with
    accessorySemiRandomMintParams := r.accessorySemiRandomMintParams ++ ss
    accessoryFullRandomMintParams := r.accessoryFullRandomMintParams ++ fs
    accessoryAmount := BitVec.ofNat 256 (total ss + total fs)
    accessoryStartTokenId := s.nextAccessoryTokenId }

/-- The checks of `_storePortraitRequest`, on its inputs. -/
structure PortraitChecks (s : Storage) (t : Uint256) (isFree : Bool) (ps : List PortraitMintParams) : Prop where
  window : ps ≠ [] → InSaleWindow s t
  params : ParamsOk isFree ps
  limit : isFree = true → total ps ≤ s.freePortraitLimitPerTx.toNat
  ids : s.nextPortraitTokenId.toNat + 6 * total ps < 2 ^ 256

/-- The checks of `_storeAccessoryRequest`, on its inputs. -/
structure AccessoryChecks (s : Storage) (isFree : Bool) (ss : List AccessorySemiRandomMintParams)
    (fs : List AccessoryFullRandomMintParams) : Prop where
  semi : ParamsOk isFree ss
  full : ParamsOk isFree fs
  limit : isFree = true → total ss + total fs ≤ s.freeAccessoryLimitPerTx.toNat
  ids : s.nextAccessoryTokenId.toNat + (total ss + total fs) < 2 ^ 256

/-- The price of both accessory lists. -/
def accessoryPrice (s : Storage) (isFree : Bool) (ss : List AccessorySemiRandomMintParams)
    (fs : List AccessoryFullRandomMintParams) : ℕ :=
  priceOf (semiRandomPrice s) isFree ss + priceOf (randomPrice s) isFree fs

theorem storePortraitRequest_ok_iff :
    storePortraitRequest s t r ps isFree = .ok (s', r', e) ↔
      PortraitChecks s t isFree ps ∧ e.toNat = priceOf (portraitPrice s) isFree ps ∧
      s' = { s with nextPortraitTokenId := BitVec.ofNat 256 (s.nextPortraitTokenId.toNat + 6 * total ps) } ∧
      r' = r.withPortraits s ps := by
  have hmask : (PORTRAIT_MASK.setWidth 256 : Uint256).toNat = 6 := rfl
  have h0 : (0 : Uint256).toNat = 0 := rfl
  have hlen : (ps.length > 0 → InSaleWindow s t) ↔ (ps ≠ [] → InSaleWindow s t) := by
    rw [gt_iff_lt, List.length_pos_iff]
  simp only [storePortraitRequest, bind_ok_iff, require_ok_iff, exists_const, Prod.exists, storeParams_ok_iff,
    checkedMul_ok_iff, checkedAdd_ok_iff, hmask, h0, Nat.zero_add, hlen, pure_eq_ok, Except.ok.injEq, Prod.mk.injEq]
  constructor
  · rintro ⟨hw, e₁, a, st, ⟨hok, he, ha, rfl⟩, hl, m, hm, n, hn, rfl, rfl, rfl⟩
    have hn' : n.toNat = s.nextPortraitTokenId.toNat + 6 * total ps := by omega
    refine ⟨⟨hw, hok, fun hf => ?_, hn' ▸ n.isLt⟩, he, ?_, ?_⟩
    · rcases hl with h | h
      · exact absurd (hf.symm.trans h) (by decide)
      · omega
    · rw [(toNat_eq_iff.1 hn').2]
    · rw [MintRequest.withPortraits, (toNat_eq_iff.1 ha).2]
  · rintro ⟨⟨hw, hok, hl, hid⟩, he, rfl, rfl⟩
    refine ⟨hw, e, BitVec.ofNat 256 (total ps), _, ⟨hok, he, ?_, rfl⟩, ?_,
      BitVec.ofNat 256 (6 * total ps), ?_, _, ?_, rfl, rfl, rfl⟩
    · rw [BitVec.toNat_ofNat, Nat.mod_eq_of_lt (by omega)]
    · cases isFree with
      | false => exact .inl rfl
      | true => exact .inr (by rw [BitVec.toNat_ofNat, Nat.mod_eq_of_lt (by omega)]; exact hl rfl)
    · rw [BitVec.toNat_ofNat, BitVec.toNat_ofNat, Nat.mod_eq_of_lt (by omega), Nat.mod_eq_of_lt (by omega)]
    · rw [BitVec.toNat_ofNat, BitVec.toNat_ofNat, Nat.mod_eq_of_lt hid, Nat.mod_eq_of_lt (by omega)]

theorem storeAccessoryRequest_ok_iff :
    storeAccessoryRequest s r ss fs isFree = .ok (s', r', e) ↔
      AccessoryChecks s isFree ss fs ∧ e.toNat = accessoryPrice s isFree ss fs ∧
      s' = { s with nextAccessoryTokenId := BitVec.ofNat 256 (s.nextAccessoryTokenId.toNat + (total ss + total fs)) } ∧
      r' = r.withAccessories s ss fs := by
  have h0 : (0 : Uint256).toNat = 0 := rfl
  simp only [storeAccessoryRequest, bind_ok_iff, require_ok_iff, exists_const, Prod.exists, storeParams_ok_iff,
    checkedAdd_ok_iff, h0, Nat.zero_add, pure_eq_ok, Except.ok.injEq, Prod.mk.injEq, accessoryPrice]
  constructor
  · rintro ⟨e₁, a₁, st₁, ⟨hss, he₁, ha₁, rfl⟩, e₂, a₂, st₂, ⟨hfs, he₂, ha₂, rfl⟩, hl, n, hn, rfl, rfl, rfl⟩
    have ha : a₂.toNat = total ss + total fs := by omega
    have hn' : n.toNat = s.nextAccessoryTokenId.toNat + (total ss + total fs) := by omega
    refine ⟨⟨hss, hfs, fun hf => ?_, hn' ▸ n.isLt⟩, by omega, ?_, ?_⟩
    · rcases hl with h | h
      · exact absurd (hf.symm.trans h) (by decide)
      · omega
    · rw [(toNat_eq_iff.1 hn').2]
    · rw [MintRequest.withAccessories, (toNat_eq_iff.1 ha).2]
  · rintro ⟨⟨hss, hfs, hl, hid⟩, he, rfl, rfl⟩
    obtain ⟨e₁, he₁⟩ := exists_toNat_eq.2 (show priceOf (semiRandomPrice s) isFree ss < 2 ^ 256 by
      have := e.isLt; omega)
    refine ⟨e₁, BitVec.ofNat 256 (total ss), _, ⟨hss, he₁, ?_, rfl⟩, e,
      BitVec.ofNat 256 (total ss + total fs), _, ⟨hfs, by omega, ?_, rfl⟩, ?_, _, ?_, rfl, rfl, rfl⟩
    · rw [BitVec.toNat_ofNat, Nat.mod_eq_of_lt (by omega)]
    · rw [BitVec.toNat_ofNat, BitVec.toNat_ofNat, Nat.mod_eq_of_lt (by omega), Nat.mod_eq_of_lt (by omega)]
    · cases isFree with
      | false => exact .inl rfl
      | true => exact .inr (by rw [BitVec.toNat_ofNat, Nat.mod_eq_of_lt (by omega)]; exact hl rfl)
    · rw [BitVec.toNat_ofNat, BitVec.toNat_ofNat, Nat.mod_eq_of_lt hid, Nat.mod_eq_of_lt (by omega)]

end Stored

end Minter
end Illuvitars
