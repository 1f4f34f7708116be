import Illuvitars.Deploy.Config
import Illuvitars.Minter.FlatResults
import Illuvitars.Minter.Odds
import Illuvitars.Reference.Generator

/-!
# The Minter and the reference generator

The accessories of a paid request in the Minter against those of the reference generator, with the configured tables.
Both draw the `i`-th accessory from the `i`-th unit of the request and the `i`-th hash of the seed, and both draw its
tier and its type from the same digits. The stage is drawn from four digits by the Minter, and from the last two of
these by the generator, so the two agree iff the first two and the last two lie in the same band.

* `formatted_of_ok`, `reference_ok_iff`: the accessories of the two sides in closed form;
* `accessories_agree_iff`: for which seeds and sizes the two sides agree; `agrees_iff_of_reachable` in a reachable
  Minter.
-/

namespace Illuvitars
namespace Minter

open Evm Fill Script Chances Deploy

variable {keccak256 : Keccak} {getBackgroundTierChance : IlluvitarsMintResults.BackgroundTierChances} {s : Storage}
  {r : MintRequest} {requestId : Bytes32}

/-! ## Conversions of the tests -/

def formatSemi (p : AccessorySemiRandomMintParams) : IlluvitarsMintResults.AccessorySemiRandomMintParams :=
  ⟨p.accessoryType, p.boxType, p.amount.toNat⟩

def formatFull (p : AccessoryFullRandomMintParams) : IlluvitarsMintResults.AccessoryFullRandomMintParams :=
  ⟨p.boxType, p.amount.toNat⟩

/-- `getMintRequest` of the tests: a record as a request to the generator. -/
def getMintRequest (r : MintRequest) : IlluvitarsMintResults.MintRequest where
  requester := r.requester
  portraitMintParams := r.portraitMintParams.map fun p => ⟨p.boxType, p.amount.toNat⟩
  portraitAmount := r.portraitAmount.toNat
  accessorySemiRandomMintParams := r.accessorySemiRandomMintParams.map formatSemi
  accessoryFullRandomMintParams := r.accessoryFullRandomMintParams.map formatFull
  accessoryAmount := r.accessoryAmount.toNat
  randomNumber := r.randomNumber.toNat
  portraitStartTokenId := r.portraitStartTokenId.toNat
  accessoryStartTokenId := r.accessoryStartTokenId.toNat

/-- `formatAccessories` of the tests, on one accessory. -/
def formatAccessory (a : AccessoryInfo) : IlluvitarsMintResults.Accessory :=
  ⟨a.tokenId.toNat, a.boxType, a.accessoryType.encoding, a.tier.toNat, a.stage.toNat⟩

/-! ## Agreement -/

/-- A request that consists only of accessories of boxes that are not virtual. -/
structure AccessoriesOnly (r : MintRequest) : Prop where
  portraits : r.portraitMintParams = []
  portraitAmount : r.portraitAmount = 0
  semi : ∀ p ∈ r.accessorySemiRandomMintParams, p.boxType ≠ .virtual
  full : ∀ p ∈ r.accessoryFullRandomMintParams, p.boxType ≠ .virtual

/-- The two lists of accessories are equal, item by item and field by field. -/
def SameAccessories (res : MintResult) (ref : IlluvitarsMintResults.MintResult) : Prop :=
  ref.accessories = res.accessories.map fun a => some (formatAccessory a)

instance (res : MintResult) (ref : IlluvitarsMintResults.MintResult) : Decidable (SameAccessories res ref) :=
  inferInstanceAs (Decidable (_ = _))

/-- The Minter and the generator both return a result for the request, with the same accessories. -/
def Agrees (keccak256 : Keccak) (getBackgroundTierChance : IlluvitarsMintResults.BackgroundTierChances) (s : Storage)
    (requestId : Bytes32) : Prop :=
  ∃ res ref, getPaidMintResult keccak256 s requestId = .ok res ∧
    IlluvitarsMintResults.getMintResult keccak256 getBackgroundTierChance (getMintRequest (s.mintRequests requestId)) =
      .ok ref ∧ SameAccessories res ref

/-- Of the four digits that a stage is drawn from, the first two and the last two lie in the same band: below 45, below
80, or neither. -/
def SameBand (rand : Uint256) : Prop :=
  (rand.toNat / 1000000 % 100 < 45 ↔ rand.toNat / 10000 % 100 < 45) ∧
    (rand.toNat / 1000000 % 100 < 80 ↔ rand.toNat / 10000 % 100 < 80)

instance (rand : Uint256) : Decidable (SameBand rand) := inferInstanceAs (Decidable (_ ∧ _))

/-! ## The tables -/

/-- The generator's tables are those of the configuration: the prices, the tiers closed by 0 and 10000, and -/
theorem accessoryMintInfo_configured (i : Deploy.BoxType) :
    (IlluvitarsMintResults.accessoryMintInfo i.toContract).randomPrice = (ACCESSORY_MINT_INFO i).randomPrice.toNat ∧
    (IlluvitarsMintResults.accessoryMintInfo i.toContract).semiRandomPrice =
      (ACCESSORY_MINT_INFO i).semiRandomPrice.toNat ∧
    (IlluvitarsMintResults.accessoryMintInfo i.toContract).tierChances.toList =
      0 :: entries (ACCESSORY_MINT_INFO i).tierChances ++ [10000] := by
  cases i <;> exact ⟨rfl, rfl, rfl⟩

/-- the chance of a holo, in percent. -/
theorem portraitMintInfo_configured (i : Deploy.BoxType) :
    (IlluvitarsMintResults.portraitMintInfo i.toContract).price = (PORTRAIT_MINT_INFO i).price.toNat ∧
    (IlluvitarsMintResults.portraitMintInfo i.toContract).tierChances.toList =
      0 :: entries (PORTRAIT_MINT_INFO i).tierChances ++ [10000] ∧
    (IlluvitarsMintResults.portraitMintInfo i.toContract).holoProbability * 100 =
      (PORTRAIT_MINT_INFO i).holoProbability.toNat := by
  cases i <;> exact ⟨rfl, rfl, rfl⟩

/-- A configured Minter has the generator's table for the tiers of accessories. -/
theorem tierChances_configured (hs : Configured s) {b : Illuvitars.BoxType} (hb : b ≠ .virtual) :
    (IlluvitarsMintResults.accessoryMintInfo b).tierChances.toList =
      0 :: entries (s.accessoryMintInfo b).tierChances ++ [10000] := by
  obtain ⟨i, rfl⟩ := BoxType.exists_toContract hb
  rw [hs.accessories i]
  exact (accessoryMintInfo_configured i).2.2

theorem tierChances_ascending (hs : Configured s) {b : Illuvitars.BoxType} (hb : b ≠ .virtual) :
    (IlluvitarsMintResults.accessoryMintInfo b).tierChances.toList.Pairwise (· ≤ ·) := by
  have hvalid := hs.valid hb
  rw [tierChances_configured hs hb, List.cons_append, List.pairwise_cons, List.pairwise_append]
  refine ⟨fun _ _ => Nat.zero_le _, hvalid.ascending, List.pairwise_singleton _ _, fun c hc d hd => ?_⟩
  rw [List.mem_singleton.1 hd]
  exact hvalid.le_max c hc

/-! ## One accessory -/

def AccessoryUnit.boxType : AccessoryUnit → Illuvitars.BoxType
  | .inl p => p.boxType
  | .inr p => p.boxType

/-- The type of a unit: that of the parameter, or drawn. -/
def AccessoryUnit.typeOf : AccessoryUnit → Uint256 → ℕ
  | .inl p, _ => p.accessoryType.encoding
  | .inr _, rand => rand.toNat / 10000 % 5

/-- The accessory of a unit, but for its stage. -/
def drawnAccessory (s : Storage) (u : AccessoryUnit) (rand : Uint256) (tokenId stage : ℕ) :
    IlluvitarsMintResults.Accessory where
  tokenId := tokenId
  boxType := u.boxType
  accessoryType := u.typeOf rand
  tier := rank (entries (s.accessoryMintInfo u.boxType).tierChances) (rand.toNat % 10000) + 1
  stage := stage

/-- The stage of a percentage: 45, 35 and 20 percent. -/
def percentStage (p : ℕ) : ℕ := if p < 45 then 1 else if p < 80 then 2 else 3

theorem sameBand_iff {rand : Uint256} : SameBand rand ↔
    percentStage (rand.toNat / 1000000 % 100) = percentStage (rand.toNat / 10000 % 100) := by
  rw [SameBand, percentStage, percentStage]
  split_ifs <;> omega

/-- The chances of the stages, out of 100. -/
theorem percentStage_eq {p : ℕ} (hp : p < 100) : rank [45, 80, 100] p + 1 = percentStage p := by
  have hrank : rank [45, 80, 100] p = (if 80 ≤ p then 1 else 0) + (if 45 ≤ p then 1 else 0) := by
    simp [rank, List.countP_cons, hp]
  rw [hrank, percentStage]
  split_ifs <;> omega

/-- Out of 10000 they decide by the first two digits. -/
theorem stageChances_eq {d : ℕ} (hd : d < 10000) : rank stageChances d + 1 = percentStage (d / 100) := by
  have hmap : stageChances = [45, 80, 100].map (· * 100) := rfl
  rw [hmap, rank_map_mul (by omega), percentStage_eq (by omega)]

section Items

variable (rand : Uint256)

/-- **The accessory that the Minter draws.** -/
theorem getAccessoryInfo_drawn (hs : Configured s) {u : AccessoryUnit} (hb : u.boxType ≠ .virtual) {x : AccessoryInfo}
    {next : Uint256 × Uint256} {tokenId : Uint256} (hid : tokenId.toNat + 1 < 2 ^ 256)
    (h : getAccessoryInfo keccak256 s u rand tokenId = .ok (x, next)) :
    formatAccessory x = drawnAccessory s u rand tokenId.toNat (percentStage (rand.toNat / 1000000 % 100)) := by
  have hstage : rank stageChances (rand.toNat / 10000 % 10000) + 1 = percentStage (rand.toNat / 1000000 % 100) := by
    rw [stageChances_eq (by omega), show rand.toNat / 10000 % 10000 / 100 = rand.toNat / 1000000 % 100 by omega]
  cases u with
  | inl p =>
    obtain ⟨y, hy, htoken, hbox, htier, htype, hst⟩ := semi_drawn keccak256 rand hs.tables hb (hs.valid hb) hid
    rw [getAccessoryInfo, hy, Except.ok.injEq] at h
    subst h
    dsimp only at htoken hbox htype
    simp only [formatAccessory, drawnAccessory, AccessoryUnit.boxType, AccessoryUnit.typeOf, htoken, hbox, htype, htier,
      hst, hstage]
  | inr p =>
    obtain ⟨y, hy, htoken, hbox, htier, htype, hst⟩ := full_drawn keccak256 rand hs.tables hb (hs.valid hb) hid
    have hmod : rand.toNat / 10000 % 10000 % 5 = rand.toNat / 10000 % 5 := by omega
    rw [getAccessoryInfo, hy, Except.ok.injEq] at h
    subst h
    dsimp only at htoken hbox
    simp only [formatAccessory, drawnAccessory, AccessoryUnit.boxType, AccessoryUnit.typeOf, htoken, hbox, htype, htier,
      hst, hstage, hmod]

/-- The token id of the next accessory. -/
theorem getAccessoryInfo_next {u : AccessoryUnit} {x : AccessoryInfo} {rand' tokenId next : Uint256}
    (h : getAccessoryInfo keccak256 s u rand tokenId = .ok (x, rand', next)) : next.toNat = tokenId.toNat + 1 := by
  cases u with
  | inl p =>
    simp only [getAccessoryInfo, getSemiAcccessoryInfo, bind_ok_iff, checkedAdd_ok_iff, pure_eq_ok, Except.ok.injEq,
      Prod.mk.injEq] at h
    obtain ⟨-, -, -, -, n, hn, -, -, rfl⟩ := h
    exact hn
  | inr p =>
    simp only [getAccessoryInfo, getFullAcccessoryInfo, bind_ok_iff, checkedAdd_ok_iff, pure_eq_ok, Except.ok.injEq,
      Prod.mk.injEq] at h
    obtain ⟨-, -, -, -, -, -, n, hn, -, -, rfl⟩ := h
    exact hn

/-- The generator on the units of the Minter. -/
def referenceAccessoryInfo (keccak256 : Keccak) :
    AccessoryUnit → ℕ → ℕ → Exec (IlluvitarsMintResults.Accessory × ℕ × ℕ)
  | .inl p, rand, tokenId => IlluvitarsMintResults.getSemiAcccessoryInfo keccak256 rand (formatSemi p) tokenId
  | .inr p, rand, tokenId => IlluvitarsMintResults.getFullAcccessoryInfo keccak256 rand (formatFull p) tokenId

/-- **The accessory that the generator draws.** -/
theorem referenceAccessoryInfo_drawn (hs : Configured s) {u : AccessoryUnit} (hb : u.boxType ≠ .virtual)
    (tokenId : ℕ) : referenceAccessoryInfo keccak256 u rand.toNat tokenId =
      .ok (drawnAccessory s u rand tokenId (percentStage (rand.toNat / 10000 % 100)),
        (nextRandom keccak256 rand).toNat, tokenId + 1) := by
  have ht := tierChances_configured hs hb
  have hasc := tierChances_ascending hs hb
  have hstage : rank IlluvitarsMintResults.stageProbability.toList (rand.toNat / 10000 % 100) + 1 =
      percentStage (rand.toNat / 10000 % 100) := percentStage_eq (by omega)
  cases u with
  | inl p =>
    rw [referenceAccessoryInfo, IlluvitarsMintResults.getSemiAcccessoryInfo_eq keccak256 rand ht hasc, hstage]
    rfl
  | inr p =>
    rw [referenceAccessoryInfo, IlluvitarsMintResults.getFullAcccessoryInfo_eq keccak256 rand ht hasc, hstage]
    rfl

end Items

/-! ## The accessories of a request -/

/-- The `i`-th random number of a request. -/
def randomAt (keccak256 : Keccak) (r : MintRequest) (i : ℕ) : Uint256 := (nextRandom keccak256)^[i] r.randomNumber

/-- The accessories of a request, with the stages that a rule reads off the random numbers. -/
def drawnAccessories (keccak256 : Keccak) (s : Storage) (r : MintRequest) (stage : Uint256 → ℕ) :
    List IlluvitarsMintResults.Accessory :=
  (accessoryUnits r).mapIdx fun i u =>
    drawnAccessory s u (randomAt keccak256 r i) (r.accessoryStartTokenId.toNat + i) (stage (randomAt keccak256 r i))

theorem AccessoriesOnly.boxType_ne (hr : AccessoriesOnly r) {u : AccessoryUnit} (hu : u ∈ accessoryUnits r) :
    u.boxType ≠ .virtual := by
  rcases List.mem_append.1 hu with hu | hu
  · obtain ⟨p, hp, rfl⟩ := List.mem_map.1 hu
    exact hr.semi p (mem_of_mem_units hp)
  · obtain ⟨p, hp, rfl⟩ := List.mem_map.1 hu
    exact hr.full p (mem_of_mem_units hp)

/-- **What the Minter returns**: the token ids fit, and the stages are those of the first two digits. -/
theorem formatted_of_ok (hs : Configured s) (hr : AccessoriesOnly r) (hlen : (accessoryUnits r).length < 2 ^ 256)
    {accessories : List AccessoryInfo} (h : requestAccessories keccak256 s r r.randomNumber = .ok accessories) :
    r.accessoryStartTokenId.toNat + (accessoryUnits r).length < 2 ^ 256 ∧
      accessories.map formatAccessory =
        drawnAccessories keccak256 s r fun rand => percentStage (rand.toNat / 1000000 % 100) := by
  -- every accessory increments the token id
  have hids : r.accessoryStartTokenId.toNat + (accessoryUnits r).length < 2 ^ 256 := by
    rw [requestAccessories_eq _ _ _ _ hlen] at h
    obtain ⟨⟨items, st⟩, hgen, -⟩ := bind_ok_iff.1 h
    have hlast := generate_measure (m := fun st : Uint256 × Uint256 => st.2.toNat) (k := 1)
      (fun _ _ _ _ hx => getAccessoryInfo_next _ hx) hgen
    have := st.2.isLt
    dsimp only at hlast
    omega
  obtain ⟨accessories', h', hflat⟩ := requestAccessories_flat keccak256 (hs.tables ▸ initialTables_consistent)
    r.randomNumber hids
  rw [h, Except.ok.injEq] at h'
  subst h'
  refine ⟨hids, List.ext_getElem? fun i => ?_⟩
  rw [drawnAccessories, List.getElem?_map, List.getElem?_mapIdx]
  cases hu : (accessoryUnits r)[i]? with
  | none =>
    rw [List.getElem?_eq_none (by rw [hflat.length]; exact List.getElem?_eq_none_iff.1 hu)]
    rfl
  | some u =>
    obtain ⟨hi, -⟩ := List.getElem?_eq_some_iff.1 hu
    obtain ⟨x, next, hx, hid, hok⟩ := hflat.item i u hu
    rw [Nat.one_mul] at hid
    rw [hx, Option.map_some, Option.map_some,
      getAccessoryInfo_drawn _ hs (hr.boxType_ne (List.mem_of_getElem? hu)) (by omega) hok, hid]
    rfl

/-- The generator's lists have the units of the Minter's. -/
theorem referenceAccessoryInfo_units (r : MintRequest) (st : ℕ × ℕ) :
    generate (fun u st => referenceAccessoryInfo keccak256 u st.1 st.2) (accessoryUnits r) st =
      generate (fun p st => IlluvitarsMintResults.getSemiAcccessoryInfo keccak256 st.1 p st.2)
        (units (·.amount) (getMintRequest r).accessorySemiRandomMintParams) st >>= fun x =>
      generate (fun p st => IlluvitarsMintResults.getFullAcccessoryInfo keccak256 st.1 p st.2)
        (units (·.amount) (getMintRequest r).accessoryFullRandomMintParams) x.2 >>= fun y =>
      pure (x.1 ++ y.1, y.2) := by
  have hsemi : ∀ st, generate (fun p st => IlluvitarsMintResults.getSemiAcccessoryInfo keccak256 st.1 p st.2)
      (units (·.amount) (r.accessorySemiRandomMintParams.map formatSemi)) st =
      generate (fun p st => referenceAccessoryInfo keccak256 (.inl p) st.1 st.2)
        (units amountOf r.accessorySemiRandomMintParams) st :=
    generate_units_map (fun _ => rfl) (fun _ _ => rfl) r.accessorySemiRandomMintParams
  have hfull : ∀ st, generate (fun p st => IlluvitarsMintResults.getFullAcccessoryInfo keccak256 st.1 p st.2)
      (units (·.amount) (r.accessoryFullRandomMintParams.map formatFull)) st =
      generate (fun p st => referenceAccessoryInfo keccak256 (.inr p) st.1 st.2)
        (units amountOf r.accessoryFullRandomMintParams) st :=
    generate_units_map (fun _ => rfl) (fun _ _ => rfl) r.accessoryFullRandomMintParams
  simp only [accessoryUnits, generate_sum, getMintRequest, hsemi, hfull]

/-- On the units the generator draws its accessories, and never throws. -/
theorem referenceAccessoryInfo_generate (keccak256 : Keccak) (hs : Configured s) (hr : AccessoriesOnly r) :
    generate (fun u st => referenceAccessoryInfo keccak256 u st.1 st.2) (accessoryUnits r)
        (r.randomNumber.toNat, r.accessoryStartTokenId.toNat) =
      .ok (drawnAccessories keccak256 s r fun rand => percentStage (rand.toNat / 10000 % 100),
        (randomAt keccak256 r (accessoryUnits r).length).toNat,
        r.accessoryStartTokenId.toNat + (accessoryUnits r).length) := by
  refine generate_eq_mapIdx (c := fun i => ((randomAt keccak256 r i).toNat, r.accessoryStartTokenId.toNat + i))
    fun i u hu => ?_
  have hnext : nextRandom keccak256 (randomAt keccak256 r i) = randomAt keccak256 r (i + 1) :=
    (Function.iterate_succ_apply' _ _ _).symm
  rw [referenceAccessoryInfo_drawn _ hs (hr.boxType_ne (List.mem_of_getElem? hu)), hnext, Nat.add_assoc]

/-- **What the generator returns**: the length is that of an array, and the stages are those of the last two digits. -/
theorem reference_ok_iff (hs : Configured s) (hr : AccessoriesOnly r)
    {accessories : List (Option IlluvitarsMintResults.Accessory)} :
    IlluvitarsMintResults.requestAccessories keccak256 (getMintRequest r) r.randomNumber.toNat = .ok accessories ↔
      (accessoryUnits r).length < 2 ^ 32 ∧ accessories =
        (drawnAccessories keccak256 s r fun rand => percentStage (rand.toNat / 10000 % 100)).map some := by
  have hgen := referenceAccessoryInfo_generate keccak256 hs hr
  have hdrawn : (drawnAccessories keccak256 s r fun rand => percentStage (rand.toNat / 10000 % 100)).length =
      (accessoryUnits r).length := List.length_mapIdx
  -- the items of the two lists
  rw [referenceAccessoryInfo_units, bind_ok_iff] at hgen
  obtain ⟨⟨xs, st⟩, hxs, hgen⟩ := hgen
  obtain ⟨⟨ys, st'⟩, hys, hgen⟩ := bind_ok_iff.1 hgen
  rw [pure_eq_ok, Except.ok.injEq, Prod.mk.injEq] at hgen
  obtain ⟨hxy, -⟩ := hgen
  rw [← hxy, List.length_append] at hdrawn
  rw [← hxy, ← hdrawn]
  unfold IlluvitarsMintResults.requestAccessories
  split
  · rw [IlluvitarsMintResults.getAccessoriesInfo, ← length_units, ← length_units, ← length_of_generate hxs,
      ← length_of_generate hys]
    constructor
    · intro h
      obtain ⟨n, hn, h⟩ := bind_ok_iff.1 h
      obtain ⟨items, hitems, h⟩ := bind_ok_iff.1 h
      obtain ⟨hlt, rfl⟩ := newArray_ok_iff.1 (bind_ok_iff.2 ⟨n, hn, hitems⟩)
      exact ⟨hlt, Except.ok.inj (h.symm.trans (assignParams_fill hxs hys List.length_replicate))⟩
    · rintro ⟨hlt, rfl⟩
      obtain ⟨n, hn, hitems⟩ := bind_ok_iff.1 (newArray_ok_iff.2 ⟨hlt, rfl⟩)
      rw [hn, ok_bind, hitems, ok_bind]
      exact assignParams_fill hxs hys List.length_replicate
  · rename_i h0
    simp only [gt_iff_lt, List.length_pos_iff, not_or, not_not] at h0
    rw [h0.2, units_nil] at hxs
    rw [h0.1, units_nil] at hys
    cases hxs
    cases hys
    simp [eq_comm]

/-! ## The results -/

section Results

/-- The number of accessories that a request asks for. -/
def accessoryCount (r : MintRequest) : ℕ :=
  total r.accessorySemiRandomMintParams + total r.accessoryFullRandomMintParams

/-- The token ids fit into a word, and the accessories into an array of the generator. -/
structure InRange (r : MintRequest) : Prop where
  ids : r.accessoryStartTokenId.toNat + accessoryCount r < 2 ^ 256
  size : accessoryCount r < 2 ^ 32

/-- No stage is drawn from two bands. -/
def SameBands (keccak256 : Keccak) (r : MintRequest) : Prop :=
  ∀ i < accessoryCount r, SameBand (randomAt keccak256 r i)

instance (r : MintRequest) : Decidable (SameBands keccak256 r) :=
  inferInstanceAs (Decidable (∀ i < accessoryCount r, SameBand (randomAt keccak256 r i)))

/-- Two rules for the stages draw the same accessories iff they agree on the random numbers. -/
theorem drawnAccessories_eq_iff {stage stage' : Uint256 → ℕ} :
    drawnAccessories keccak256 s r stage = drawnAccessories keccak256 s r stage' ↔
      ∀ i < accessoryCount r, stage (randomAt keccak256 r i) = stage' (randomAt keccak256 r i) := by
  rw [drawnAccessories, drawnAccessories, List.mapIdx_eq_mapIdx_iff, accessoryCount, ← length_accessoryUnits]
  refine forall₂_congr fun i hi => ?_
  simp only [drawnAccessory, IlluvitarsMintResults.Accessory.mk.injEq, true_and]

/-- The Minter's result of such a request has no portraits. -/
theorem paid_ok_iff (hr : AccessoriesOnly (s.mintRequests requestId))
    (hseed : (s.mintRequests requestId).randomNumber ≠ 0) {res : MintResult} :
    getPaidMintResult keccak256 s requestId = .ok res ↔ ∃ accessories,
      requestAccessories keccak256 s (s.mintRequests requestId) (s.mintRequests requestId).randomNumber =
        .ok accessories ∧
      (⟨(s.mintRequests requestId).requester, (s.mintRequests requestId).randomNumber, [], accessories⟩ : MintResult) =
        res := by
  have hportraits : requestPortraits keccak256 s (s.mintRequests requestId) =
      .ok ([], (s.mintRequests requestId).randomNumber) := if_neg (not_not.2 hr.portraitAmount)
  rw [getPaidMintResult, require_pos hseed, ok_bind, mintResult, hportraits, ok_bind]
  simp only [bind_ok_iff, pure_eq_ok, Except.ok.injEq]

/-- Neither has the generator's. -/
theorem reference_result_ok_iff (hr : AccessoriesOnly r) (hseed : r.randomNumber ≠ 0)
    {ref : IlluvitarsMintResults.MintResult} :
    IlluvitarsMintResults.getMintResult keccak256 getBackgroundTierChance (getMintRequest r) = .ok ref ↔
      ∃ accessories, IlluvitarsMintResults.requestAccessories keccak256 (getMintRequest r) r.randomNumber.toNat =
        .ok accessories ∧
      (⟨r.requester, r.randomNumber.toNat, [], accessories⟩ : IlluvitarsMintResults.MintResult) = ref := by
  have hportraits : IlluvitarsMintResults.requestPortraits keccak256 getBackgroundTierChance (getMintRequest r) =
      .ok ([], r.randomNumber.toNat) := by
    rw [IlluvitarsMintResults.requestPortraits, getMintRequest, hr.portraits]
    rfl
  have hseed' : ¬(getMintRequest r).randomNumber = 0 := fun h0 => hseed (BitVec.eq_of_toNat_eq h0)
  rw [IlluvitarsMintResults.getMintResult, if_neg hseed', hportraits, ok_bind]
  simp only [bind_ok_iff, pure_eq_ok, Except.ok.injEq]
  rfl

variable (hs : Configured s) (hr : AccessoriesOnly (s.mintRequests requestId))
  (hseed : (s.mintRequests requestId).randomNumber ≠ 0)
include hs hr hseed

/-- **If both return, they agree iff no stage is drawn from two bands**, and the request is in range. -/
theorem sameAccessories_iff {res : MintResult} {ref : IlluvitarsMintResults.MintResult}
    (hres : getPaidMintResult keccak256 s requestId = .ok res)
    (href : IlluvitarsMintResults.getMintResult keccak256 getBackgroundTierChance
      (getMintRequest (s.mintRequests requestId)) = .ok ref) :
    InRange (s.mintRequests requestId) ∧
      (SameAccessories res ref ↔ SameBands keccak256 (s.mintRequests requestId)) := by
  obtain ⟨accessories, hacc, rfl⟩ := (paid_ok_iff hr hseed).1 hres
  obtain ⟨accessories', hacc', rfl⟩ := (reference_result_ok_iff hr hseed).1 href
  obtain ⟨hlen, rfl⟩ := (reference_ok_iff hs hr).1 hacc'
  obtain ⟨hids, hformat⟩ := formatted_of_ok hs hr (by omega) hacc
  refine ⟨⟨by rwa [length_accessoryUnits] at hids, by rwa [length_accessoryUnits] at hlen⟩, ?_⟩
  have hmap : accessories.map (fun a => some (formatAccessory a)) = (accessories.map formatAccessory).map some := by
    rw [List.map_map]
    rfl
  rw [SameAccessories, hmap, hformat, List.map_inj_right (fun _ _ => Option.some.inj), drawnAccessories_eq_iff,
    SameBands]
  exact forall₂_congr fun i hi => eq_comm.trans sameBand_iff.symm

/-- In range both return. -/
theorem returns_of_inRange (keccak256 : Keccak)
    (getBackgroundTierChance : IlluvitarsMintResults.BackgroundTierChances) (h : InRange (s.mintRequests requestId)) :
    (∃ res, getPaidMintResult keccak256 s requestId = .ok res) ∧
      ∃ ref, IlluvitarsMintResults.getMintResult keccak256 getBackgroundTierChance
        (getMintRequest (s.mintRequests requestId)) = .ok ref := by
  obtain ⟨hids, hsize⟩ := h
  rw [accessoryCount, ← length_accessoryUnits] at hids hsize
  obtain ⟨accessories, hacc, -⟩ := requestAccessories_flat keccak256 (hs.tables ▸ initialTables_consistent)
    (s.mintRequests requestId).randomNumber hids
  obtain ⟨accessories', hacc'⟩ : ∃ accessories', IlluvitarsMintResults.requestAccessories keccak256
      (getMintRequest (s.mintRequests requestId)) (s.mintRequests requestId).randomNumber.toNat = .ok accessories' :=
    ⟨_, (reference_ok_iff hs hr).2 ⟨hsize, rfl⟩⟩
  exact ⟨⟨_, (paid_ok_iff hr hseed).2 ⟨accessories, hacc, rfl⟩⟩,
    ⟨_, (reference_result_ok_iff hr hseed).2 ⟨accessories', hacc', rfl⟩⟩⟩

/-- They agree iff both return and the bands are the same. -/
theorem agrees_iff : Agrees keccak256 getBackgroundTierChance s requestId ↔
    InRange (s.mintRequests requestId) ∧ SameBands keccak256 (s.mintRequests requestId) := by
  constructor
  · rintro ⟨res, ref, hres, href, hsame⟩
    obtain ⟨hrange, hiff⟩ := sameAccessories_iff hs hr hseed hres href
    exact ⟨hrange, hiff.1 hsame⟩
  · rintro ⟨hrange, hbands⟩
    obtain ⟨⟨res, hres⟩, ref, href⟩ := returns_of_inRange hs hr hseed keccak256 getBackgroundTierChance hrange
    exact ⟨res, ref, hres, href, (sameAccessories_iff hs hr hseed hres href).2.2 hbands⟩

/-- **The Minter and the generator agree on the accessories of a request iff it is in range and no stage is drawn from
two bands**; and whenever both return, the bands alone decide. -/
theorem accessories_agree_iff :
    (Agrees keccak256 getBackgroundTierChance s requestId ↔
      InRange (s.mintRequests requestId) ∧ SameBands keccak256 (s.mintRequests requestId)) ∧
    ∀ res ref, getPaidMintResult keccak256 s requestId = .ok res →
      IlluvitarsMintResults.getMintResult keccak256 getBackgroundTierChance
        (getMintRequest (s.mintRequests requestId)) = .ok ref →
      (SameAccessories res ref ↔ SameBands keccak256 (s.mintRequests requestId)) :=
  ⟨agrees_iff hs hr hseed, fun _ _ hres href => (sameAccessories_iff hs hr hseed hres href).2⟩

end Results

/-- In a reachable Minter the token ids fit, so the number of accessories and the bands decide. -/
theorem agrees_iff_of_reachable {X : Type} {chain : Chain X} {w : World X} (h : Reachable chain w)
    (hk : Seeded w.storage (.paid requestId)) (hs : Configured w.storage)
    (hr : AccessoriesOnly (w.storage.mintRequests requestId)) :
    Agrees keccak256 getBackgroundTierChance w.storage requestId ↔
      accessoryCount (w.storage.mintRequests requestId) < 2 ^ 32 ∧
        SameBands keccak256 (w.storage.mintRequests requestId) := by
  have hfits : (w.storage.mintRequests requestId).Fits := (ledger_reachable h).fits hk.recorded
  have hids : (w.storage.mintRequests requestId).accessoryStartTokenId.toNat +
      accessoryCount (w.storage.mintRequests requestId) < 2 ^ 256 := by
    rw [accessoryCount, ← hfits.accessoryAmount]
    exact hfits.accessoryIds
  rw [agrees_iff hs hr hk.2]
  exact and_congr_left fun _ => ⟨InRange.size, fun hsize => ⟨hids, hsize⟩⟩

/-! ## A configured deployment -/

namespace Deployment

/-- The owner runs the script. -/
def configured : World Outside := transactions chain (initMinter owner) genesis

theorem configured_reachable : Reachable chain configured :=
  reachable_transactions _ (Lts.Reachable.of_start genesis_deployed)

theorem configured_configured : Configured configured.storage :=
  configured_initMinter (Lts.Reachable.of_start genesis_deployed) rfl rfl

/-- A request for accessories only, and the seed of its callback. -/
def accessories (semi : List AccessorySemiRandomMintParams) (full : List AccessoryFullRandomMintParams)
    (seed : Uint256) : World Outside :=
  transactions chain [(user 150000000000000000, .paidMint [] semi full false),
    (coordinator, .rawFulfillRandomness 0 seed)] configured

theorem accessories_reachable (semi : List AccessorySemiRandomMintParams) (full : List AccessoryFullRandomMintParams)
    (seed : Uint256) : Reachable chain (accessories semi full seed) := reachable_transactions _ configured_reachable

theorem accessories_configured (semi : List AccessorySemiRandomMintParams) (full : List AccessoryFullRandomMintParams)
    (seed : Uint256) : Configured (accessories semi full seed).storage := by
  refine configured_run configured_reachable configured_configured ?_ (run_transactions chain _ configured)
  simp [KeepsMintInfo]

/-- The chances that the generator computes, for the tiers and boxes that have any. -/
def chances : IlluvitarsMintResults.BackgroundTierChances := fun tier boxType =>
  if 1 ≤ tier ∧ tier ≤ 5 then
    .ok (((backgroundTierChances (BitVec.ofNat 8 tier) boxType).map BitVec.toNat).push 10000)
  else exception "Invalid illuvial_tier"

end Deployment

/-- Two bronze accessories whose stages are drawn from 6070. -/
theorem accessories_agree_bronze :
    Agrees Deployment.lastWord Deployment.chances
      (Deployment.accessories [⟨.props, .bronze, 1⟩] [⟨.bronze, 1⟩] 60701234).storage 0 := by
  have hs := Deployment.accessories_configured [⟨.props, .bronze, 1⟩] [⟨.bronze, 1⟩] 60701234
  exact (accessories_agree_iff hs ⟨by decide, by decide, by decide, by decide⟩ (by decide)).1.2
    ⟨⟨by decide, by decide⟩, by decide⟩

/-- One bronze accessory whose stage is drawn from 0045: the Minter returns stage 1, the generator stage 2. -/
theorem accessories_disagree_bronze :
    Reachable Deployment.chain (Deployment.accessories [] [⟨.bronze, 1⟩] 450000) ∧
    Configured (Deployment.accessories [] [⟨.bronze, 1⟩] 450000).storage ∧
    AccessoriesOnly ((Deployment.accessories [] [⟨.bronze, 1⟩] 450000).storage.mintRequests 0) ∧
    getPaidMintResult Deployment.lastWord (Deployment.accessories [] [⟨.bronze, 1⟩] 450000).storage 0 =
      .ok ⟨2, 450000, [], [⟨1, .bronze, .skin, 1, 1⟩]⟩ ∧
    IlluvitarsMintResults.getMintResult Deployment.lastWord Deployment.chances
        (getMintRequest ((Deployment.accessories [] [⟨.bronze, 1⟩] 450000).storage.mintRequests 0)) =
      .ok ⟨2, 450000, [], [some ⟨1, .bronze, 0, 1, 2⟩]⟩ ∧
    ¬Agrees Deployment.lastWord Deployment.chances
      (Deployment.accessories [] [⟨.bronze, 1⟩] 450000).storage 0 := by
  have hs := Deployment.accessories_configured [] [⟨.bronze, 1⟩] 450000
  have hr : AccessoriesOnly ((Deployment.accessories [] [⟨.bronze, 1⟩] 450000).storage.mintRequests 0) :=
    ⟨by decide, by decide, by decide, by decide⟩
  refine ⟨Deployment.accessories_reachable _ _ _, hs, hr, by decide, by decide, ?_⟩
  rintro ⟨res, ref, hres, href, hsame⟩
  obtain ⟨-, hiff⟩ := sameAccessories_iff hs hr (by decide) hres href
  exact absurd (hiff.1 hsame) (by decide)

end Minter
end Illuvitars
