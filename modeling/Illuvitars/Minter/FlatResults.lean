import Mathlib.Logic.Relation
import Illuvitars.Minter.Items
import Illuvitars.Minter.Ledger
import Illuvitars.Minter.Outside

/-!
# Results are flat

The nested loops of the getters against the flat specification: a request is a list of units, the `i`-th item is drawn
from the `i`-th unit, the `i`-th hash of the seed and the `i`-th token id.

* `FlatItems`, `FlatResult`: the flat specification of a list of items and of a result;
* `mintResult_flat`: a record that `Fits` has a flat result;
* `FlatResult.unique`: records with the same kinds of units (`SameUnits`) have the same flat result;
* `getMintResult_refines`: both getters, in every reachable world, also after splitting and merging parameters.
-/

namespace Illuvitars
namespace Minter

open Evm Fill

/-! ## Items at their positions -/

section FlatItems

variable {U I : Type} {keccak256 : Keccak} {gen : U → Uint256 → Uint256 → Exec (I × Uint256 × Uint256)}
  {tokenId : I → Uint256} {us : List U} {rand start : Uint256} {width : ℕ} {items : List I}

/-- The `i`-th item is generated from the `i`-th unit, the `i`-th hash of `rand` and the `i`-th token id. -/
structure FlatItems (keccak256 : Keccak) (gen : U → Uint256 → Uint256 → Exec (I × Uint256 × Uint256))
    (tokenId : I → Uint256) (us : List U) (rand start : Uint256) (width : ℕ) (items : List I) : Prop where
  length : items.length = us.length
  item : ∀ i u, us[i]? = some u → ∃ x next, items[i]? = some x ∧ (tokenId x).toNat = start.toNat + width * i ∧
    gen u ((nextRandom keccak256)^[i] rand) (tokenId x) = .ok (x, next)

/-- The random number and the token id of the `i`-th item. -/
def chainState (keccak256 : Keccak) (rand start : Uint256) (width i : ℕ) : Uint256 × Uint256 :=
  ((nextRandom keccak256)^[i] rand, BitVec.ofNat 256 (start.toNat + width * i))

/-- A generator that hashes the random number, and adds `width` to the token id if that fits. -/
def Advances (keccak256 : Keccak) (gen : U → Uint256 → Uint256 → Exec (I × Uint256 × Uint256))
    (tokenId : I → Uint256) (width : ℕ) : Prop :=
  ∀ u rand id next, next.toNat = id.toNat + width → ∃ x, gen u rand id = .ok (x, nextRandom keccak256 rand, next) ∧
    tokenId x = id

/-- Such a generator yields flat items while the token ids fit. -/
theorem Advances.generate (hgen : Advances keccak256 gen tokenId width) (us : List U) (rand start : Uint256)
    (hfit : start.toNat + width * us.length < 2 ^ 256) :
    ∃ items, Fill.generate (fun u st => gen u st.1 st.2) us (rand, start) =
        .ok (items, chainState keccak256 rand start width us.length) ∧
      FlatItems keccak256 gen tokenId us rand start width items := by
  have hid : ∀ i, i ≤ us.length →
      (BitVec.ofNat 256 (start.toNat + width * i)).toNat = start.toNat + width * i := by
    intro i hi
    have hle : width * i ≤ width * us.length := Nat.mul_le_mul_left width hi
    rw [BitVec.toNat_ofNat, Nat.mod_eq_of_lt (by omega)]
  have hstep : ∀ i (hi : i < us.length), ∃ x, gen us[i] (chainState keccak256 rand start width i).1
      (chainState keccak256 rand start width i).2 = .ok (x, chainState keccak256 rand start width (i + 1)) ∧
      tokenId x = (chainState keccak256 rand start width i).2 := by
    intro i hi
    have hnext : (BitVec.ofNat 256 (start.toNat + width * (i + 1))).toNat =
        (BitVec.ofNat 256 (start.toNat + width * i)).toNat + width := by
      rw [hid (i + 1) hi, hid i hi.le, Nat.mul_succ, Nat.add_assoc]
    obtain ⟨x, hx, ht⟩ := hgen us[i] ((nextRandom keccak256)^[i] rand) _ _ hnext
    refine ⟨x, ?_, ht⟩
    rw [chainState, chainState, Function.iterate_succ_apply']
    exact hx
  have h0 : chainState keccak256 rand start width 0 = (rand, start) := by simp [chainState]
  obtain ⟨items, hok, hitems⟩ := generate_ok (g := fun u (st : Uint256 × Uint256) => gen u st.1 st.2)
    (c := chainState keccak256 rand start width) (fun i hi => (hstep i hi).imp fun _ h => h.1)
  rw [h0] at hok
  refine ⟨items, hok, length_of_generate hok, ?_⟩
  intro i u hu
  obtain ⟨hi, rfl⟩ := List.getElem?_eq_some_iff.1 hu
  obtain ⟨x, hx, ht⟩ := hstep i hi
  obtain ⟨x', hx', hget⟩ := hitems i hi
  -- the generator is a function, so the item is the one of the chain
  have heq : x' = x := by simpa using hget.symm.trans hx
  subst heq
  refine ⟨x', chainState keccak256 rand start width (i + 1), hx', ?_, ?_⟩
  · rw [ht]
    exact hid i hi.le
  · rw [ht]
    exact hget

/-- Units of the same kinds have the same flat items. -/
theorem FlatItems.unique {K : Type} (kind : U → K) {gen' : U → Uint256 → Uint256 → Exec (I × Uint256 × Uint256)}
    {vs : List U} {items' : List I} (hgen : ∀ u ∈ us, ∀ v ∈ vs, kind u = kind v → gen u = gen' v)
    (hu : us.map kind = vs.map kind) (h : FlatItems keccak256 gen tokenId us rand start width items)
    (h' : FlatItems keccak256 gen' tokenId vs rand start width items') : items = items' := by
  have hlen : us.length = vs.length := by simpa using congrArg List.length hu
  refine List.ext_getElem? (fun i => ?_)
  rcases Nat.lt_or_ge i us.length with hi | hi
  · have hi' : i < vs.length := hlen ▸ hi
    obtain ⟨x, n, hx, hid, hok⟩ := h.item i us[i] (List.getElem?_eq_getElem hi)
    obtain ⟨x', n', hx', hid', hok'⟩ := h'.item i vs[i] (List.getElem?_eq_getElem hi')
    have hk : kind us[i] = kind vs[i] := by
      have := congrArg (fun l => l[i]?) hu
      simpa [hi, hi'] using this
    have ht : tokenId x = tokenId x' := BitVec.eq_of_toNat_eq (hid.trans hid'.symm)
    rw [hgen _ (List.getElem_mem hi) _ (List.getElem_mem hi') hk, ht, hok'] at hok
    simp only [Except.ok.injEq, Prod.mk.injEq] at hok
    rw [hx, hx', hok.1]
  · rw [List.getElem?_eq_none (by rw [h.length]; exact hi), List.getElem?_eq_none (by rw [h'.length]; omega)]

end FlatItems

/-! ## The units of a request -/

abbrev AccessoryUnit := AccessorySemiRandomMintParams ⊕ AccessoryFullRandomMintParams

/-- The portraits of a request: each parameter as often as its amount says. -/
def portraitUnits (r : MintRequest) : List PortraitMintParams := units amountOf r.portraitMintParams

/-- The accessories of a request: first the semi-random ones, then the full-random ones. -/
def accessoryUnits (r : MintRequest) : List AccessoryUnit :=
  (units amountOf r.accessorySemiRandomMintParams).map .inl ++ (units amountOf r.accessoryFullRandomMintParams).map .inr

/-- The generator of an accessory. -/
def getAccessoryInfo (keccak256 : Keccak) (s : Storage) :
    AccessoryUnit → Uint256 → Uint256 → Exec (AccessoryInfo × Uint256 × Uint256)
  | .inl p, rand, tokenId => getSemiAcccessoryInfo keccak256 s rand p tokenId
  | .inr p, rand, tokenId => getFullAcccessoryInfo keccak256 s rand p tokenId

theorem length_portraitUnits (r : MintRequest) : (portraitUnits r).length = total r.portraitMintParams :=
  length_units _ _

theorem length_accessoryUnits (r : MintRequest) :
    (accessoryUnits r).length = total r.accessorySemiRandomMintParams + total r.accessoryFullRandomMintParams := by
  rw [accessoryUnits, List.length_append, List.length_map, List.length_map, length_units, length_units]
  rfl

/-- A record whose totals are those of its lists and whose token ids fit. -/
structure MintRequest.Fits (r : MintRequest) : Prop where
  portraitAmount : r.portraitAmount.toNat = total r.portraitMintParams
  accessoryAmount :
    r.accessoryAmount.toNat = total r.accessorySemiRandomMintParams + total r.accessoryFullRandomMintParams
  portraitIds : r.portraitStartTokenId.toNat + 6 * r.portraitAmount.toNat < 2 ^ 256
  accessoryIds : r.accessoryStartTokenId.toNat + r.accessoryAmount.toNat < 2 ^ 256

/-- **The flat specification of a result.** -/
structure FlatResult (keccak256 : Keccak) (s : Storage) (r : MintRequest) (res : MintResult) : Prop where
  requester : res.requester = r.requester
  seed : res.seed = r.randomNumber
  portraits : FlatItems keccak256 (fun u rand id => getPortraitInfo keccak256 s rand u id) PortraitInfo.tokenId
    (portraitUnits r) r.randomNumber r.portraitStartTokenId 6 res.portraits
  accessories : FlatItems keccak256 (getAccessoryInfo keccak256 s) AccessoryInfo.tokenId (accessoryUnits r)
    ((nextRandom keccak256)^[r.portraitAmount.toNat] r.randomNumber) r.accessoryStartTokenId 1 res.accessories

/-! ## The loops are flat -/

section Loops

variable {keccak256 : Keccak} {s : Storage} {r : MintRequest}

theorem advances_portrait (keccak256 : Keccak) (hs : s.tables.Consistent) :
    Advances keccak256 (fun u rand id => getPortraitInfo keccak256 s rand u id) PortraitInfo.tokenId 6 := by
  intro u rand id next hnext
  obtain ⟨p, hok, ht, -, -⟩ := getPortraitInfo_ok keccak256 hs rand u hnext
  exact ⟨p, hok, ht⟩

theorem advances_accessory (keccak256 : Keccak) (hs : s.tables.Consistent) :
    Advances keccak256 (getAccessoryInfo keccak256 s) AccessoryInfo.tokenId 1 := by
  intro u rand id next hnext
  cases u with
  | inl p =>
    obtain ⟨a, hok, ht, -, -, -⟩ := getSemiAcccessoryInfo_ok keccak256 hs rand p hnext
    exact ⟨a, hok, ht⟩
  | inr p =>
    obtain ⟨a, hok, ht, -, -⟩ := getFullAcccessoryInfo_ok keccak256 hs rand p hnext
    exact ⟨a, hok, ht⟩

/-- A fresh array, before the first round. -/
theorem filled_start {I σ : Type} (rest : List I) (st : σ) :
    ({ items := rest, idx := 0, state := st } : Filling I σ) = filled [] rest st := rfl

theorem getPortraitsInfo_flat (keccak256 : Keccak) (hs : s.tables.Consistent) (hr : r.Fits) :
    ∃ portraits, getPortraitsInfo keccak256 s r.randomNumber r.portraitMintParams r.portraitAmount
        r.portraitStartTokenId = .ok (portraits, (nextRandom keccak256)^[r.portraitAmount.toNat] r.randomNumber) ∧
      FlatItems keccak256 (fun u rand id => getPortraitInfo keccak256 s rand u id) PortraitInfo.tokenId
        (portraitUnits r) r.randomNumber r.portraitStartTokenId 6 portraits := by
  have hlen : (portraitUnits r).length = r.portraitAmount.toNat := by rw [length_portraitUnits, hr.portraitAmount]
  obtain ⟨portraits, hok, hflat⟩ := (advances_portrait keccak256 hs).generate (portraitUnits r) r.randomNumber
    r.portraitStartTokenId (by rw [hlen]; exact hr.portraitIds)
  refine ⟨portraits, ?_, hflat⟩
  have hplen : portraits.length = r.portraitAmount.toNat := by rw [hflat.length, hlen]
  have hfill := fillParams_ok hok [] (List.replicate r.portraitAmount.toNat PortraitInfo.zero)
    (by rw [hplen, List.length_replicate]) (by rw [List.nil_append, List.length_replicate]; exact r.portraitAmount.isLt)
  rw [getPortraitsInfo, filled_start, hfill, ok_bind, pure_eq_ok, hplen, hlen, filled, chainState]
  simp

/-- The sum of the amounts of a list, if it fits. -/
theorem sumAmounts_ok {P : Type} [MintParams P] {ps : List P} {sum : Uint256} (h : sum.toNat + total ps < 2 ^ 256) :
    ∃ n, sumAmounts ps sum = .ok n ∧ n.toNat = sum.toNat + total ps := by
  induction ps generalizing sum with
  | nil => exact ⟨sum, rfl, rfl⟩
  | cons p ps ih =>
    have hw : ((MintParams.amount p).setWidth 256 : Uint256).toNat = (MintParams.amount p).toNat :=
      toNat_widen (by decide) _
    rw [total_cons] at h
    obtain ⟨m, hm, hmn⟩ := checkedAdd_of_lt (a := sum) (b := (MintParams.amount p).setWidth 256) (by rw [hw]; omega)
    rw [hw] at hmn
    obtain ⟨n, hn, hnn⟩ := ih (show m.toNat + total ps < 2 ^ 256 by omega)
    refine ⟨n, ?_, ?_⟩
    · rw [sumAmounts, hm, ok_bind, hn]
    · rw [total_cons]
      omega

/-- If their length fits, the loops over both lists are the flat specification on their units. -/
theorem getAccessoriesInfo_eq (keccak256 : Keccak) (s : Storage) (r : MintRequest) (rand : Uint256)
    (hlen : (accessoryUnits r).length < 2 ^ 256) :
    getAccessoriesInfo keccak256 s rand r.accessoryFullRandomMintParams r.accessorySemiRandomMintParams
        r.accessoryStartTokenId =
      generate (fun u st => getAccessoryInfo keccak256 s u st.1 st.2) (accessoryUnits r)
        (rand, r.accessoryStartTokenId) >>= fun x => pure x.1 := by
  rw [length_accessoryUnits] at hlen
  -- the two sums, and the length of the array
  have h0 : (0 : Uint256).toNat = 0 := rfl
  obtain ⟨full, hfull, hfulln⟩ := @sumAmounts_ok _ _ r.accessoryFullRandomMintParams 0 (by rw [h0]; omega)
  obtain ⟨semi, hsemi, hsemin⟩ := @sumAmounts_ok _ _ r.accessorySemiRandomMintParams 0 (by rw [h0]; omega)
  rw [h0, Nat.zero_add] at hfulln hsemin
  obtain ⟨n, hn, hnn⟩ := checkedAdd_of_lt (a := semi) (b := full) (by omega)
  have hroom : (List.replicate n.toNat AccessoryInfo.zero).length =
      (units amountOf r.accessorySemiRandomMintParams).length +
        (units amountOf r.accessoryFullRandomMintParams).length := by
    rw [List.length_replicate, length_units, length_units, hnn, hsemin, hfulln]
    rfl
  rw [getAccessoriesInfo, hfull, ok_bind, hsemi, ok_bind, hn, ok_bind, filled_start,
    fillParams_fill _ _ _ _ _ _ _ _ hroom (by rw [List.length_replicate]; exact n.isLt), accessoryUnits, generate_sum]
  simp only [getAccessoryInfo, bind_assoc, pure_bind]

/-- The guard skips loops that would produce nothing. -/
theorem requestAccessories_eq (keccak256 : Keccak) (s : Storage) (r : MintRequest) (rand : Uint256)
    (hlen : (accessoryUnits r).length < 2 ^ 256) :
    requestAccessories keccak256 s r rand =
      generate (fun u st => getAccessoryInfo keccak256 s u st.1 st.2) (accessoryUnits r)
        (rand, r.accessoryStartTokenId) >>= fun x => pure x.1 := by
  unfold requestAccessories
  split
  · exact getAccessoriesInfo_eq keccak256 s r rand hlen
  · rename_i h0
    simp only [gt_iff_lt, List.length_pos_iff, not_or, not_not] at h0
    have hnil : accessoryUnits r = [] := by rw [accessoryUnits, h0.1, h0.2]; rfl
    rw [hnil]
    rfl

theorem requestAccessories_flat (keccak256 : Keccak) (hs : s.tables.Consistent) (rand : Uint256)
    (hids : r.accessoryStartTokenId.toNat + (accessoryUnits r).length < 2 ^ 256) :
    ∃ accessories, requestAccessories keccak256 s r rand = .ok accessories ∧
      FlatItems keccak256 (getAccessoryInfo keccak256 s) AccessoryInfo.tokenId (accessoryUnits r) rand
        r.accessoryStartTokenId 1 accessories := by
  obtain ⟨accessories, hok, hflat⟩ := (advances_accessory keccak256 hs).generate (accessoryUnits r) rand
    r.accessoryStartTokenId (by rw [Nat.one_mul]; exact hids)
  exact ⟨accessories, by rw [requestAccessories_eq _ _ _ _ (by omega), hok, ok_bind, pure_eq_ok], hflat⟩

/-- **A record that fits has a flat result.** -/
theorem mintResult_flat (keccak256 : Keccak) (hs : s.tables.Consistent) (hr : r.Fits) :
    ∃ res, mintResult keccak256 s r = .ok res ∧ FlatResult keccak256 s r res := by
  obtain ⟨portraits, hp, hpflat⟩ := getPortraitsInfo_flat keccak256 hs hr
  have hids : r.accessoryStartTokenId.toNat + (accessoryUnits r).length < 2 ^ 256 := by
    rw [length_accessoryUnits, ← hr.accessoryAmount]
    exact hr.accessoryIds
  obtain ⟨accessories, ha, haflat⟩ := requestAccessories_flat keccak256 hs
    ((nextRandom keccak256)^[r.portraitAmount.toNat] r.randomNumber) hids
  refine ⟨⟨r.requester, r.randomNumber, portraits, accessories⟩, ?_, rfl, rfl, hpflat, haflat⟩
  -- the guards skip loops that would produce nothing
  have hportraits : requestPortraits keccak256 s r =
      .ok (portraits, (nextRandom keccak256)^[r.portraitAmount.toNat] r.randomNumber) := by
    by_cases h0 : r.portraitAmount = 0
    · have hnil : portraits = [] := by
        rw [← List.length_eq_zero_iff, hpflat.length, length_portraitUnits, ← hr.portraitAmount, h0]
        rfl
      rw [requestPortraits, if_neg (not_not.2 h0), hnil, h0]
      rfl
    · rw [requestPortraits, if_pos h0, hp]
  simp only [mintResult, hportraits, ha, ok_bind, pure_eq_ok]

end Loops

/-! ## What a result depends on -/

section Unique

variable {keccak256 : Keccak} {s s' : Storage} {r r' r'' : MintRequest}

/-- The records differ in their lists only, and these have the same kinds of units. -/
structure SameUnits (r r' : MintRequest) : Prop where
  fields : r' = { r with
    portraitMintParams := r'.portraitMintParams
    accessorySemiRandomMintParams := r'.accessorySemiRandomMintParams
    accessoryFullRandomMintParams := r'.accessoryFullRandomMintParams }
  portraits : (units amountOf r.portraitMintParams).map PortraitMintParams.boxType =
    (units amountOf r'.portraitMintParams).map PortraitMintParams.boxType
  semi : (units amountOf r.accessorySemiRandomMintParams).map (fun p => (p.accessoryType, p.boxType)) =
    (units amountOf r'.accessorySemiRandomMintParams).map (fun p => (p.accessoryType, p.boxType))
  full : (units amountOf r.accessoryFullRandomMintParams).map AccessoryFullRandomMintParams.boxType =
    (units amountOf r'.accessoryFullRandomMintParams).map AccessoryFullRandomMintParams.boxType

theorem SameUnits.refl (r : MintRequest) : SameUnits r r := ⟨rfl, rfl, rfl, rfl⟩

theorem SameUnits.symm (h : SameUnits r r') : SameUnits r' r :=
  ⟨by rw [h.fields], h.portraits.symm, h.semi.symm, h.full.symm⟩

theorem SameUnits.trans (h : SameUnits r r') (h' : SameUnits r' r'') : SameUnits r r'' :=
  ⟨by rw [h'.fields, h.fields], h.portraits.trans h'.portraits, h.semi.trans h'.semi, h.full.trans h'.full⟩

/-- The storages agree on the tables that the items of a record are drawn from. -/
structure AgreeOn (r : MintRequest) (s s' : Storage) : Prop where
  tables : s'.tables = s.tables
  portraits : ∀ p ∈ r.portraitMintParams, p.boxType ≠ .virtual →
    s'.portraitMintInfo p.boxType = s.portraitMintInfo p.boxType
  semi : ∀ p ∈ r.accessorySemiRandomMintParams, p.boxType ≠ .virtual →
    s'.accessoryMintInfo p.boxType = s.accessoryMintInfo p.boxType
  full : ∀ p ∈ r.accessoryFullRandomMintParams, p.boxType ≠ .virtual →
    s'.accessoryMintInfo p.boxType = s.accessoryMintInfo p.boxType

theorem AgreeOn.refl (r : MintRequest) (s : Storage) : AgreeOn r s s :=
  ⟨rfl, fun _ _ _ => rfl, fun _ _ _ => rfl, fun _ _ _ => rfl⟩

theorem accessoryTier_congr {b : BoxType} (h : b ≠ .virtual → s'.accessoryMintInfo b = s.accessoryMintInfo b)
    (rand : Uint256) : accessoryTier s' rand b = accessoryTier s rand b := by
  by_cases hb : b = .virtual
  · rw [accessoryTier, accessoryTier, if_pos hb, if_pos hb]
  · rw [accessoryTier, accessoryTier, h hb]

/-- A portrait depends on the box type of its parameter and on that box's chances. -/
theorem getPortraitInfo_congr (ht : s'.tables = s.tables) {p p' : PortraitMintParams} (hp : p.boxType = p'.boxType)
    (h : p.boxType ≠ .virtual → s'.portraitMintInfo p.boxType = s.portraitMintInfo p.boxType) (rand id : Uint256) :
    getPortraitInfo keccak256 s rand p id = getPortraitInfo keccak256 s' rand p' id := by
  have htiers : portraitTiers s' rand p'.boxType = portraitTiers s rand p'.boxType := by
    by_cases hb : p'.boxType = .virtual
    · rw [portraitTiers, portraitTiers, if_pos hb, if_pos hb]
    · simp only [portraitTiers, getBackgroundTier, h (hp ▸ hb), ← hp]
  have hfinish : ∀ q, getFinish s' q p'.boxType = getFinish s q p'.boxType := by
    intro q
    by_cases hb : p'.boxType = .virtual
    · rw [getFinish, getFinish, if_pos hb, if_pos hb]
    · rw [getFinish, getFinish, ← hp, h (hp ▸ hb)]
  have hexpr : ∀ q, getExpression s' q = getExpression s q := by
    intro q
    rw [getExpression, getExpression, ht]
  simp only [getPortraitInfo, hp, htiers, hfinish, hexpr, ht]

theorem getAccessoryStage_congr (ht : s'.tables = s.tables) (rand : Uint256) :
    getAccessoryStage s' rand = getAccessoryStage s rand := by
  rw [getAccessoryStage, getAccessoryStage, ht]

/-- What an accessory depends on: its type if that is bought, and its box. -/
def AccessoryUnit.kind : AccessoryUnit → Option AccessoryType × BoxType
  | .inl p => (some p.accessoryType, p.boxType)
  | .inr p => (none, p.boxType)

/-- An accessory depends on the kind of its unit and on the chances of its box. -/
theorem getAccessoryInfo_congr (ht : s'.tables = s.tables) {u v : AccessoryUnit} (hk : u.kind = v.kind)
    (h : u.kind.2 ≠ .virtual → s'.accessoryMintInfo u.kind.2 = s.accessoryMintInfo u.kind.2) :
    getAccessoryInfo keccak256 s u = getAccessoryInfo keccak256 s' v := by
  funext rand id
  have hstage := getAccessoryStage_congr ht
  cases u with
  | inl p =>
    cases v with
    | inl q =>
      simp only [AccessoryUnit.kind, Prod.mk.injEq, Option.some.injEq] at hk h
      have htier := accessoryTier_congr h rand
      simp only [getAccessoryInfo, getSemiAcccessoryInfo, ← hk.1, ← hk.2, htier, hstage]
    | inr q => simp [AccessoryUnit.kind] at hk
  | inr p =>
    cases v with
    | inl q => simp [AccessoryUnit.kind] at hk
    | inr q =>
      simp only [AccessoryUnit.kind, Prod.mk.injEq, true_and] at hk h
      have htier := accessoryTier_congr h rand
      simp only [getAccessoryInfo, getFullAcccessoryInfo, ← hk, htier, hstage]

theorem SameUnits.accessoryUnits (h : SameUnits r r') :
    (accessoryUnits r).map AccessoryUnit.kind = (accessoryUnits r').map AccessoryUnit.kind := by
  have hsemi := congrArg (List.map (fun k : AccessoryType × BoxType => (some k.1, k.2))) h.semi
  have hfull := congrArg (List.map (fun b : BoxType => ((none : Option AccessoryType), b))) h.full
  simp only [List.map_map] at hsemi hfull
  simp only [Minter.accessoryUnits, List.map_append, List.map_map]
  exact congrArg₂ (· ++ ·) hsemi hfull

/-- **Records with the same kinds of units have the same flat result**, in storages that agree on their tables. -/
theorem FlatResult.unique {res res' : MintResult} (hu : SameUnits r r') (ha : AgreeOn r s s')
    (h : FlatResult keccak256 s r res) (h' : FlatResult keccak256 s' r' res') : res = res' := by
  have hrequester : r'.requester = r.requester := by rw [hu.fields]
  have hrandom : r'.randomNumber = r.randomNumber := by rw [hu.fields]
  have hamount : r'.portraitAmount = r.portraitAmount := by rw [hu.fields]
  have hpstart : r'.portraitStartTokenId = r.portraitStartTokenId := by rw [hu.fields]
  have hastart : r'.accessoryStartTokenId = r.accessoryStartTokenId := by rw [hu.fields]
  obtain ⟨hreq, hseed, hp, hacc⟩ := h
  obtain ⟨hreq', hseed', hp', hacc'⟩ := h'
  rw [hrandom, hpstart] at hp'
  rw [hrandom, hamount, hastart] at hacc'
  have hportraits : res.portraits = res'.portraits := by
    refine hp.unique PortraitMintParams.boxType (fun u hmem v _ hk => ?_) hu.portraits hp'
    have hmem' : u ∈ r.portraitMintParams := mem_of_mem_units hmem
    funext rand id
    exact getPortraitInfo_congr ha.tables hk (ha.portraits u hmem') rand id
  have haccessories : res.accessories = res'.accessories := by
    refine hacc.unique AccessoryUnit.kind (fun u hmem v _ hk => ?_) hu.accessoryUnits hacc'
    refine getAccessoryInfo_congr ha.tables hk (fun hb => ?_)
    rw [Minter.accessoryUnits, List.mem_append, List.mem_map, List.mem_map] at hmem
    rcases hmem with ⟨p, hp, rfl⟩ | ⟨p, hp, rfl⟩
    · exact ha.semi p (mem_of_mem_units hp) hb
    · exact ha.full p (mem_of_mem_units hp) hb
  cases res
  cases res'
  simp only at hreq hreq' hseed hseed' hportraits haccessories
  rw [hreq, hreq', hrequester, hseed, hseed', hrandom, hportraits, haccessories]

/-- A record with the same kinds of units fits too. -/
theorem SameUnits.fits (h : SameUnits r r') (hr : r.Fits) : r'.Fits := by
  have hp := congrArg List.length h.portraits
  have hs := congrArg List.length h.semi
  have hf := congrArg List.length h.full
  simp only [List.length_map, length_units] at hp hs hf
  have hpa : r'.portraitAmount = r.portraitAmount := by rw [h.fields]
  have haa : r'.accessoryAmount = r.accessoryAmount := by rw [h.fields]
  have hpstart : r'.portraitStartTokenId = r.portraitStartTokenId := by rw [h.fields]
  have hastart : r'.accessoryStartTokenId = r.accessoryStartTokenId := by rw [h.fields]
  refine ⟨?_, ?_, ?_, ?_⟩
  · rw [hpa, hr.portraitAmount]; exact hp
  · rw [haa, hr.accessoryAmount]; exact congrArg₂ (· + ·) hs hf
  · rw [hpa, hpstart]; exact hr.portraitIds
  · rw [haa, hastart]; exact hr.accessoryIds

end Unique

/-! ## Splitting and merging -/

/-- Two neighbouring parameters of one list are merged. -/
inductive Merge (r : MintRequest) : MintRequest → Prop
  | portraits {ps} : Merges PortraitMintParams.boxType amountOf r.portraitMintParams ps →
      Merge r { r with portraitMintParams := ps }
  | semi {ps} : Merges (fun p : AccessorySemiRandomMintParams => (p.accessoryType, p.boxType)) amountOf
      r.accessorySemiRandomMintParams ps → Merge r { r with accessorySemiRandomMintParams := ps }
  | full {ps} : Merges AccessoryFullRandomMintParams.boxType amountOf r.accessoryFullRandomMintParams ps →
      Merge r { r with accessoryFullRandomMintParams := ps }

/-- Any number of splits and merges of neighbouring parameters. -/
abbrev Resplit : MintRequest → MintRequest → Prop := Relation.EqvGen Merge

theorem Merge.sameUnits {r r' : MintRequest} (h : Merge r r') : SameUnits r r' := by
  cases h with
  | portraits h => exact ⟨rfl, h.units_kind, rfl, rfl⟩
  | semi h => exact ⟨rfl, rfl, h.units_kind, rfl⟩
  | full h => exact ⟨rfl, rfl, rfl, h.units_kind⟩

theorem Resplit.sameUnits {r r' : MintRequest} (h : Resplit r r') : SameUnits r r' := by
  induction h with
  | rel _ _ h => exact h.sameUnits
  | refl r => exact .refl r
  | symm _ _ _ ih => exact ih.symm
  | trans _ _ _ _ _ ih ih' => exact ih.trans ih'

/-! ## Both getters -/

/-- The getter of either mapping. -/
def getMintResult (keccak256 : Keccak) (s : Storage) : RequestKey → Exec MintResult
  | .paid id => getPaidMintResult keccak256 s id
  | .free idx => getFreeMintResult keccak256 s idx

/-- A recorded request whose seed has been generated. -/
def Seeded (s : Storage) : RequestKey → Prop
  | .paid id => Recorded s (.paid id) ∧ (s.mintRequests id).randomNumber ≠ 0
  | .free idx => Recorded s (.free idx)

instance (s : Storage) (k : RequestKey) : Decidable (Seeded s k) :=
  match k with
  | .paid _ => inferInstanceAs (Decidable (_ ∧ _))
  | .free idx => inferInstanceAs (Decidable (Recorded s (.free idx)))

/-- The storage with another record in a slot. -/
def Storage.setRequest (s : Storage) (k : RequestKey) (r : MintRequest) : Storage :=
  match k with
  | .paid id => { s with mintRequests := Function.update s.mintRequests id r }
  | .free idx => { s with freeRequests := Function.update s.freeRequests idx r }

section Getters

variable {X : Type} {chain : Chain X} {keccak256 : Keccak} {s : Storage} {w : World X} {k : RequestKey}

theorem Seeded.recorded (h : Seeded s k) : Recorded s k := by
  cases k with
  | paid id => exact h.1
  | free idx => exact h

/-- With a seed the getter reads the record. -/
theorem getMintResult_seeded (h : Seeded s k) : getMintResult keccak256 s k = mintResult keccak256 s (s.request k) := by
  cases k with
  | paid id => rw [getMintResult, getPaidMintResult, require_pos h.2, ok_bind]; rfl
  | free idx =>
    have h' : (s.freeRequests idx).requester ≠ 0 := h
    rw [getMintResult, getFreeMintResult, require_pos h', ok_bind]; rfl

theorem Ledger.fits (hL : Ledger w) (hk : Recorded w.storage k) : (w.storage.request k).Fits := by
  have hw := hL.wellFormed k hk
  obtain ⟨hp, ha⟩ := hL.ids_le hk
  exact ⟨hw.portraitAmount, hw.accessoryAmount, lt_of_le_of_lt hp (BitVec.isLt _), lt_of_le_of_lt ha (BitVec.isLt _)⟩

/-- In a reachable world every request with a seed has a flat result. -/
theorem Reachable.flat (h : Reachable chain w) (hk : Seeded w.storage k) (keccak256 : Keccak) :
    ∃ res, getMintResult keccak256 w.storage k = .ok res ∧
      FlatResult keccak256 w.storage (w.storage.request k) res := by
  have hs : w.storage.tables.Consistent := by
    rw [(Reachable.fixed h).2]
    exact initialTables_consistent
  obtain ⟨res, hok, hflat⟩ := mintResult_flat keccak256 hs ((ledger_reachable h).fits hk.recorded)
  exact ⟨res, by rw [getMintResult_seeded hk, hok], hflat⟩

theorem request_setRequest (s : Storage) (k : RequestKey) (r : MintRequest) : (s.setRequest k r).request k = r := by
  cases k with
  | paid id => exact Function.update_self id r s.mintRequests
  | free idx => exact Function.update_self idx r s.freeRequests

theorem tables_setRequest (s : Storage) (k : RequestKey) (r : MintRequest) : (s.setRequest k r).tables = s.tables := by
  cases k <;> rfl

theorem agreeOn_setRequest (r₀ : MintRequest) (s : Storage) (k : RequestKey) (r : MintRequest) :
    AgreeOn r₀ s (s.setRequest k r) := by
  cases k <;> exact ⟨rfl, fun _ _ _ => rfl, fun _ _ _ => rfl, fun _ _ _ => rfl⟩

/-- A record with the same requester and the same seed has a seed in the same slot. -/
theorem Seeded.setRequest (h : Seeded s k) {r : MintRequest} (hreq : r.requester = (s.request k).requester)
    (hseed : r.randomNumber = (s.request k).randomNumber) : Seeded (s.setRequest k r) k := by
  have hrec : Recorded (s.setRequest k r) k := by
    rw [Recorded, request_setRequest, hreq]
    exact h.recorded
  cases k with
  | paid id =>
    refine ⟨hrec, ?_⟩
    show ((s.setRequest (.paid id) r).request (.paid id)).randomNumber ≠ 0
    rw [request_setRequest, hseed]
    exact h.2
  | free idx => exact hrec

/-- **The getters refine the flat specification**: the result is flat, it has as many items as the stored totals say,
and splitting or merging neighbouring parameters does not change it. -/
theorem getMintResult_refines (h : Reachable chain w) (hk : Seeded w.storage k) :
    ∃ res, getMintResult chain.keccak256 w.storage k = .ok res ∧
      FlatResult chain.keccak256 w.storage (w.storage.request k) res ∧
      res.portraits.length = (w.storage.request k).portraitAmount.toNat ∧
      res.accessories.length = (w.storage.request k).accessoryAmount.toNat ∧
      ∀ r', Resplit (w.storage.request k) r' →
        getMintResult chain.keccak256 (w.storage.setRequest k r') k = .ok res := by
  have hfits := (ledger_reachable h).fits hk.recorded
  obtain ⟨res, hok, hflat⟩ := Reachable.flat h hk chain.keccak256
  refine ⟨res, hok, hflat, ?_, ?_, ?_⟩
  · rw [hflat.portraits.length, length_portraitUnits, hfits.portraitAmount]
  · rw [hflat.accessories.length, length_accessoryUnits, hfits.accessoryAmount]
  · intro r' hr'
    have hu := hr'.sameUnits
    have hs : (w.storage.setRequest k r').tables.Consistent := by
      rw [tables_setRequest, (Reachable.fixed h).2]
      exact initialTables_consistent
    have hk' : Seeded (w.storage.setRequest k r') k := hk.setRequest (by rw [hu.fields]) (by rw [hu.fields])
    obtain ⟨res', hok', hflat'⟩ := mintResult_flat chain.keccak256 hs (hu.fits hfits)
    have heq : res = res' := hflat.unique hu (agreeOn_setRequest _ _ _ _) hflat'
    rw [getMintResult_seeded hk', request_setRequest, hok', heq]

/-- Two bronze portraits and two accessories, fulfilled. -/
theorem getMintResult_refines_bronze :
    ∃ res, getMintResult Deployment.lastWord (transactions Deployment.chain
        [(Deployment.user 18, .paidMint [⟨.bronze, 2⟩] [⟨.props, .bronze, 1⟩] [⟨.bronze, 1⟩] false),
         (Deployment.coordinator, .rawFulfillRandomness 0 123456789)] Deployment.sale).storage (.paid 0) = .ok res ∧
      res.portraits.length = 2 ∧ res.accessories.length = 2 := by
  obtain ⟨res, hok, -, hp, ha, -⟩ := getMintResult_refines (k := .paid 0) (reachable_transactions
    [(Deployment.user 18, .paidMint [⟨.bronze, 2⟩] [⟨.props, .bronze, 1⟩] [⟨.bronze, 1⟩] false),
     (Deployment.coordinator, .rawFulfillRandomness 0 123456789)] Deployment.sale_reachable) (by decide)
  exact ⟨res, hok, hp, ha⟩

end Getters

end Minter
end Illuvitars
