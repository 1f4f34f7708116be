import Illuvitars.Reference.Agreement
import Illuvitars.Reference.Draws

/-!
# The results of the Minter and of the reference generator

The whole result of a paid request in the Minter against that of the generator, with the configured tables. The items
of both are drawn from the units of the request and the hashes of the seed, so the results are equal iff the draws of
every item have the same outcomes.

* `samePortrait_iff`: for which random numbers a portrait is the same on both sides;
* `referencePortraits`: the portraits of a request; the accessories behind them are those of `behindPortraits`;
* `results_agree_iff`: for which requests of a reachable Minter the two results are equal.
-/

namespace Illuvitars
namespace Minter

open Evm Fill Script Chances Deploy

variable {keccak256 : Keccak} {getBackgroundTierChance : IlluvitarsMintResults.BackgroundTierChances} {s : Storage}
  {r : MintRequest} {requestId : Bytes32} {p : PortraitMintParams}

/-! ## One portrait -/

/-- The prices and chances of the configuration for portraits. -/
def ConfiguredPortraits (s : Storage) : Prop :=
  ∀ i : Deploy.BoxType, s.portraitMintInfo i.toContract = PORTRAIT_MINT_INFO i

/-- **After the script a Minter has them.** -/
theorem configuredPortraits_initMinter {X : Type} {chain : Chain X} {w : World X} {msg : Msg} (hmsg : msg.value = 0)
    (howner : w.storage.owner = msg.sender) :
    ConfiguredPortraits (transactions chain (initMinter msg) w).storage := by
  obtain ⟨portraits, accessories, hrun, hinfo⟩ := setMintInfo_runs chain hmsg boxTypes howner
  rw [initMinter, hrun]
  intro i
  rw [← if_pos (c := i ∈ boxTypes) i.mem_boxTypes (t := PORTRAIT_MINT_INFO i)]
  exact (hinfo i).1

namespace ConfiguredPortraits

variable {b : Illuvitars.BoxType}

/-- The generator has the same tiers, -/
theorem tierChances (hp : ConfiguredPortraits s) (hb : b ≠ .virtual) :
    (IlluvitarsMintResults.portraitMintInfo b).tierChances.toList =
      0 :: entries (s.portraitMintInfo b).tierChances ++ [10000] := by
  obtain ⟨i, rfl⟩ := BoxType.exists_toContract hb
  rw [hp i]
  exact (portraitMintInfo_configured i).2.1

theorem valid (hp : ConfiguredPortraits s) (hb : b ≠ .virtual) :
    ValidTierChances (s.portraitMintInfo b).tierChances := by
  obtain ⟨i, rfl⟩ := BoxType.exists_toContract hb
  rw [hp i]
  exact (mintInfo_valid i).1

theorem ascending (hp : ConfiguredPortraits s) (hb : b ≠ .virtual) :
    (IlluvitarsMintResults.portraitMintInfo b).tierChances.toList.Pairwise (· ≤ ·) := by
  have hvalid := hp.valid hb
  rw [hp.tierChances hb, List.cons_append, List.pairwise_cons, List.pairwise_append]
  refine ⟨fun _ _ => Nat.zero_le _, hvalid.ascending, List.pairwise_singleton _ _, fun c hc d hd => ?_⟩
  rw [List.mem_singleton.1 hd]
  exact hvalid.le_max c hc

/-- and the same chance of a holo, out of 100. -/
theorem holo (hp : ConfiguredPortraits s) (hb : b ≠ .virtual) :
    holoChance s b = (IlluvitarsMintResults.portraitMintInfo b).holoProbability * 100 := by
  obtain ⟨i, rfl⟩ := BoxType.exists_toContract hb
  rw [holoChance, if_neg hb, hp i]
  exact (portraitMintInfo_configured i).2.2.symm

end ConfiguredPortraits

/-- The quotient that the expression and the finish are drawn from, if the background tier is the last one. -/
def lastQuotient (s : Storage) (b : Illuvitars.BoxType) (rand : Uint256) : ℕ :=
  rand.toNat / (10000 * 10000) / illuvialCount s b rand / 4

/-- The chances of the background tiers, where there are any. -/
abbrev ChancesOf := ℕ → Illuvitars.BoxType → Vector ℕ IlluvitarsMintResults.MAX_TIER

/-- The draws of the Minter and of the generator for a portrait have the same outcomes. -/
structure SamePortrait (s : Storage) (chances : ChancesOf) (b : Illuvitars.BoxType) (rand : Uint256) : Prop where
  /-- The Minter draws the illuvial after the background tier, the generator before. -/
  illuvial : rand.toNat / (10000 * 10000) % illuvialCount s b rand = rand.toNat / 10000 % illuvialCount s b rand
  /-- The background tier of the Minter is always the last one. -/
  backgroundTier : IlluvitarsMintResults.drawnBackgroundTier (chances (portraitTier s b rand) b)
    (rand.toNat / 10000 / illuvialCount s b rand % 10000) = 5
  /-- The Minter draws the expression out of 10000, the generator out of 100. -/
  expression : rank expressionChances (lastQuotient s b rand / 100 % 100) =
    rank expressionChances (lastQuotient s b rand % 100)
  /-- Likewise the finish, and the Minter's draw comes two digits later. -/
  finish : lastQuotient s b rand / 10000 % 10000 ≤ holoChance s b ↔
    lastQuotient s b rand / 100 % 100 * 100 ≤ holoChance s b

theorem finish_eq_iff {P Q : Prop} [Decidable P] [Decidable Q] :
    ((if P then FinishType.holo else .normal) = if Q then .holo else .normal) ↔ (P ↔ Q) := by
  by_cases hP : P
  · by_cases hQ : Q
    · simp [hP, hQ]
    · simp [hP, hQ]
  · by_cases hQ : Q
    · simp [hP, hQ]
    · simp [hP, hQ]

/-- **The generator returns a portrait, and it is the Minter's iff their draws have the same outcomes.** -/
theorem samePortrait_iff (keccak256 : Keccak) (rand : Uint256) (hs : s.tables = initialTables)
    (hp : ConfiguredPortraits s) {chances : ChancesOf} (id : ℕ) (hb : p.boxType ≠ .virtual)
    (hchances : getBackgroundTierChance (portraitTier s p.boxType rand) p.boxType =
      .ok (chances (portraitTier s p.boxType rand) p.boxType)) :
    ∃ y, IlluvitarsMintResults.getPortraitInfo keccak256 getBackgroundTierChance rand.toNat
        ⟨p.boxType, p.amount.toNat⟩ id = .ok (y, (nextRandom keccak256 rand).toNat, id + 6) ∧
      ∀ tokenId x next, tokenId.toNat = id → getPortraitInfo keccak256 s rand p tokenId = .ok (x, next) →
        (formatPortrait x = y ↔ SamePortrait s chances p.boxType rand) := by
  have hc := illuvialCounts_getElem? s p.boxType rand
  have hrest : rand.toNat / 10000 / illuvialCount s p.boxType rand / 10000 =
      rand.toNat / (10000 * 10000) / illuvialCount s p.boxType rand := by
    rw [Nat.div_div_eq_div_mul, Nat.div_div_eq_div_mul, Nat.div_div_eq_div_mul]
    congr 1
    omega
  obtain ⟨ls, ss, n, B, hB⟩ := IlluvitarsMintResults.exists_draws
    (IlluvitarsMintResults.drawnBackgroundTier_lt (chances (portraitTier s p.boxType rand) p.boxType)
      (rand.toNat / 10000 / illuvialCount s p.boxType rand % 10000))
    (rand.toNat / 10000 / illuvialCount s p.boxType rand / 10000)
  refine ⟨_, IlluvitarsMintResults.getPortraitInfo_eq keccak256 rand (p := ⟨p.boxType, p.amount.toNat⟩)
    (hp.tierChances hb) (hp.ascending hb) hb rfl hc hchances hB, ?_⟩
  rintro tokenId x next rfl hok
  rw [getPortraitInfo_formatted hs (hp.valid hb) hb hok rfl hc rfl, IlluvitarsMintResults.Portrait.mk.injEq]
  have hlast : rand.toNat / (10000 * 10000) / illuvialCount s p.boxType rand / 4 =
      lastQuotient s p.boxType rand := rfl
  simp only [true_and, lastBackground_quotient, hlast]
  constructor
  · rintro ⟨hilluvial, hbt, -, -, -, hexpression, hfinish⟩
    rw [← hbt, hrest] at hB
    rw [eq_lastBackground hB, lastBackground_quotient] at hexpression hfinish
    rw [IlluvitarsMintResults.percentFinish, chanceFinish, finish_eq_iff] at hfinish
    refine ⟨hilluvial, hbt.symm, hexpression, hfinish.trans ?_⟩
    rw [hp.holo hb]
    exact (Nat.mul_le_mul_right_iff (by omega)).symm
  · rintro ⟨hilluvial, hbt, hexpression, hfinish⟩
    rw [hbt, hrest] at hB
    rw [eq_lastBackground hB, hbt, lastBackground_quotient, IlluvitarsMintResults.percentFinish, chanceFinish,
      finish_eq_iff]
    refine ⟨hilluvial, rfl, rfl, rfl, rfl, hexpression, hfinish.trans ?_⟩
    rw [hp.holo hb]
    exact Nat.mul_le_mul_right_iff (by omega)

/-! ## The portraits of a request -/

/-- The chances of the background tiers are computed for every tier and box that has any. -/
def HasChances (getBackgroundTierChance : IlluvitarsMintResults.BackgroundTierChances) (chances : ChancesOf) : Prop :=
  ∀ tier b, 1 ≤ tier → tier ≤ 5 → b ≠ .virtual → getBackgroundTierChance tier b = .ok (chances tier b)

/-- The generator on the units of the Minter. -/
def referencePortraitInfo (keccak256 : Keccak) (getBackgroundTierChance : IlluvitarsMintResults.BackgroundTierChances)
    (p : PortraitMintParams) (st : ℕ × ℕ) : Exec (IlluvitarsMintResults.Portrait × ℕ × ℕ) :=
  IlluvitarsMintResults.getPortraitInfo keccak256 getBackgroundTierChance st.1 ⟨p.boxType, p.amount.toNat⟩ st.2

/-- **The portraits of the generator, against those of the Minter**: an item for each unit, equal to the Minter's iff
their draws have the same outcomes. -/
theorem referencePortraits (hs : s.tables = initialTables) (hp : ConfiguredPortraits s) {chances : ChancesOf}
    (hchances : HasChances getBackgroundTierChance chances) (hb : ∀ u ∈ portraitUnits r, u.boxType ≠ .virtual)
    {xs : List PortraitInfo} (hxs : FlatItems keccak256 (fun u rand id => getPortraitInfo keccak256 s rand u id)
      PortraitInfo.tokenId (portraitUnits r) r.randomNumber r.portraitStartTokenId 6 xs) :
    ∃ ys, generate (referencePortraitInfo keccak256 getBackgroundTierChance) (portraitUnits r)
        (r.randomNumber.toNat, r.portraitStartTokenId.toNat) =
          .ok (ys, (randomAt keccak256 r (portraitUnits r).length).toNat,
            r.portraitStartTokenId.toNat + 6 * (portraitUnits r).length) ∧
      (xs.map formatPortrait = ys ↔ ∀ i u, (portraitUnits r)[i]? = some u →
        SamePortrait s chances u.boxType (randomAt keccak256 r i)) := by
  have hitem : ∀ i u, (portraitUnits r)[i]? = some u → ∃ y,
      referencePortraitInfo keccak256 getBackgroundTierChance u
        ((randomAt keccak256 r i).toNat, r.portraitStartTokenId.toNat + 6 * i) =
        .ok (y, (randomAt keccak256 r (i + 1)).toNat, r.portraitStartTokenId.toNat + 6 * (i + 1)) ∧
      ∀ x, xs[i]? = some x → (formatPortrait x = y ↔ SamePortrait s chances u.boxType (randomAt keccak256 r i)) := by
    intro i u hu
    have hub := hb u (List.mem_of_getElem? hu)
    obtain ⟨h1, h5⟩ := portraitTier_le s u.boxType (randomAt keccak256 r i)
    obtain ⟨y, hy, hiff⟩ := samePortrait_iff keccak256 (randomAt keccak256 r i) hs hp
      (r.portraitStartTokenId.toNat + 6 * i) hub (hchances _ _ h1 h5 hub)
    refine ⟨y, ?_, fun x hx => ?_⟩
    · rw [referencePortraitInfo, hy, randomAt, randomAt, Function.iterate_succ_apply', Nat.mul_succ, Nat.add_assoc]
    · obtain ⟨x', next, hx', hid, hok⟩ := hxs.item i u hu
      obtain rfl : x' = x := Option.some.inj (hx'.symm.trans hx)
      exact hiff _ _ _ hid hok
  obtain ⟨ys, hys, hpos⟩ := generate_ok (c := fun i => ((randomAt keccak256 r i).toNat,
    r.portraitStartTokenId.toNat + 6 * i)) fun i hi => (hitem i _ (List.getElem?_eq_getElem hi)).imp fun _ h => h.1
  refine ⟨ys, hys, items_eq_iff hxs.length (length_of_generate hys) fun i u hu => ?_⟩
  obtain ⟨x, next, hx, -, -⟩ := hxs.item i u hu
  obtain ⟨y, hy, hiff⟩ := hitem i u hu
  obtain ⟨hi, rfl⟩ := List.getElem?_eq_some_iff.1 hu
  obtain ⟨y', hy', hok⟩ := hpos i hi
  have heq : y' = y := (Prod.mk.inj (Except.ok.inj (hok.symm.trans hy))).1
  exact ⟨x, y, hx, heq ▸ hy', hiff x hx⟩

/-- The loops of the generator assign those items, if the length is that of an array. -/
theorem referencePortraits_ok_iff {ys : List IlluvitarsMintResults.Portrait} {st : ℕ × ℕ}
    (hgen : generate (referencePortraitInfo keccak256 getBackgroundTierChance) (portraitUnits r)
      (r.randomNumber.toNat, r.portraitStartTokenId.toNat) = .ok (ys, st))
    {x : List (Option IlluvitarsMintResults.Portrait) × ℕ} :
    IlluvitarsMintResults.requestPortraits keccak256 getBackgroundTierChance (getMintRequest r) = .ok x ↔
      (portraitUnits r).length < 2 ^ 32 ∧ x = (ys.map some, st.1) := by
  have hunits : generate (fun p st => IlluvitarsMintResults.getPortraitInfo keccak256 getBackgroundTierChance st.1 p
      st.2) (units (·.amount) (getMintRequest r).portraitMintParams)
      (r.randomNumber.toNat, r.portraitStartTokenId.toNat) = .ok (ys, st) := by
    rw [← hgen]
    exact generate_units_map (fun _ => rfl) (fun _ _ => rfl) r.portraitMintParams _
  have hlen : (units (·.amount) (getMintRequest r).portraitMintParams).length = (portraitUnits r).length := by
    rw [← length_of_generate hunits, length_of_generate hgen]
  unfold IlluvitarsMintResults.requestPortraits
  split
  · -- the array has room for the items and no more
    have hfill : assignParams (fun p st => IlluvitarsMintResults.getPortraitInfo keccak256 getBackgroundTierChance st.1
        p st.2) (·.amount) (getMintRequest r).portraitMintParams
        (assigned [] (List.replicate (portraitUnits r).length none) (r.randomNumber.toNat,
          r.portraitStartTokenId.toNat)) = .ok (assigned ys [] st) := by
      rw [assignParams_eq, hunits, ok_bind, hlen, List.drop_replicate, Nat.sub_self]
      rfl
    rw [IlluvitarsMintResults.getPortraitsInfo, ← length_units, hlen]
    constructor
    · intro h
      obtain ⟨n, hn, h⟩ := bind_ok_iff.1 h
      obtain ⟨items, hitems, h⟩ := bind_ok_iff.1 h
      obtain ⟨hlt, rfl⟩ := newArray_ok_iff.1 (bind_ok_iff.2 ⟨n, hn, hitems⟩)
      obtain ⟨f, hf, h⟩ := bind_ok_iff.1 h
      obtain rfl : assigned ys [] st = f := Except.ok.inj (hfill.symm.trans hf)
      simp only [assigned, List.append_nil, pure_eq_ok, Except.ok.injEq] at h
      exact ⟨hlt, h.symm⟩
    · rintro ⟨hlt, rfl⟩
      obtain ⟨n, hn, hitems⟩ := bind_ok_iff.1 (newArray_ok_iff.2 ⟨hlt, rfl⟩)
      rw [hn, ok_bind, hitems, ok_bind]
      refine bind_ok_iff.2 ⟨_, hfill, ?_⟩
      simp only [assigned, List.append_nil, pure_eq_ok]
  · rename_i h0
    have hnil : (getMintRequest r).portraitMintParams = [] := by
      simpa only [gt_iff_lt, List.length_pos_iff, not_not] using h0
    rw [hnil, units_nil] at hunits hlen
    rw [← hlen]
    cases hunits
    simp [eq_comm, getMintRequest]

/-! ## The results -/

/-- `getMintResultSol` of the tests: a result of the Minter, with the numbers of the generator. -/
def formatResult (res : MintResult) : IlluvitarsMintResults.MintResult where
  requester := res.requester
  seed := res.seed.toNat
  portraits := res.portraits.map fun x => some (formatPortrait x)
  accessories := res.accessories.map fun a => some (formatAccessory a)

/-- The Minter and the generator return the same result for the request. -/
def SameResults (keccak256 : Keccak) (getBackgroundTierChance : IlluvitarsMintResults.BackgroundTierChances)
    (s : Storage) (requestId : Bytes32) : Prop :=
  ∃ res, getPaidMintResult keccak256 s requestId = .ok res ∧
    IlluvitarsMintResults.getMintResult keccak256 getBackgroundTierChance (getMintRequest (s.mintRequests requestId)) =
      .ok (formatResult res)

/-- The items fit into the arrays of the generator, and all draws have the same outcomes on both sides. -/
structure SameDraws (keccak256 : Keccak) (s : Storage) (chances : ChancesOf) (r : MintRequest) : Prop where
  portraits_size : total r.portraitMintParams < 2 ^ 32
  accessories_size : accessoryCount r < 2 ^ 32
  portraits : ∀ i u, (portraitUnits r)[i]? = some u → SamePortrait s chances u.boxType (randomAt keccak256 r i)
  accessories : ∀ i < accessoryCount r, SameBand (randomAt keccak256 r (total r.portraitMintParams + i))

/-- The accessories of a request, from the random number behind its portraits. -/
def behindPortraits (keccak256 : Keccak) (r : MintRequest) : MintRequest :=
  { r with
    portraitMintParams := []
    portraitAmount := 0
    randomNumber := randomAt keccak256 r (portraitUnits r).length }

theorem randomAt_behindPortraits (keccak256 : Keccak) (r : MintRequest) (i : ℕ) :
    randomAt keccak256 (behindPortraits keccak256 r) i = randomAt keccak256 r (total r.portraitMintParams + i) := by
  rw [← length_portraitUnits, Nat.add_comm]
  exact (Function.iterate_add_apply _ _ _ _).symm

theorem WellFormed.accessoriesOnly (h : WellFormed false r) (keccak256 : Keccak) :
    AccessoriesOnly (behindPortraits keccak256 r) where
  portraits := rfl
  portraitAmount := rfl
  semi p hp hb := absurd ((h.semi p hp).2.2 hb) (by simp)
  full p hp hb := absurd ((h.full p hp).2.2 hb) (by simp)

section Results

variable {X : Type} {chain : Chain X} {w : World X} {chances : ChancesOf}

/-- **What the generator returns**, if both arrays have a length that it accepts. -/
theorem referenceResult_ok_iff (hs : Configured s) (hr : AccessoriesOnly (behindPortraits keccak256 r))
    (hseed : r.randomNumber ≠ 0) {ys : List IlluvitarsMintResults.Portrait} {n : ℕ}
    (hys : generate (referencePortraitInfo keccak256 getBackgroundTierChance) (portraitUnits r)
      (r.randomNumber.toNat, r.portraitStartTokenId.toNat) =
        .ok (ys, (randomAt keccak256 r (portraitUnits r).length).toNat, n))
    {ref : IlluvitarsMintResults.MintResult} :
    IlluvitarsMintResults.getMintResult keccak256 getBackgroundTierChance (getMintRequest r) = .ok ref ↔
      (portraitUnits r).length < 2 ^ 32 ∧ (accessoryUnits r).length < 2 ^ 32 ∧
      ref = ⟨r.requester, r.randomNumber.toNat, ys.map some,
        (drawnAccessories keccak256 s (behindPortraits keccak256 r) fun rand =>
          percentStage (rand.toNat / 10000 % 100)).map some⟩ := by
  have hseed' : ¬(getMintRequest r).randomNumber = 0 := fun h0 => hseed (BitVec.eq_of_toNat_eq h0)
  have haccessories : ∀ {accessories}, IlluvitarsMintResults.requestAccessories keccak256 (getMintRequest r)
      (randomAt keccak256 r (portraitUnits r).length).toNat = .ok accessories ↔
      (accessoryUnits r).length < 2 ^ 32 ∧ accessories =
        (drawnAccessories keccak256 s (behindPortraits keccak256 r) fun rand =>
          percentStage (rand.toNat / 10000 % 100)).map some :=
    reference_ok_iff (r := behindPortraits keccak256 r) hs hr
  rw [IlluvitarsMintResults.getMintResult, if_neg hseed']
  constructor
  · intro h
    obtain ⟨⟨portraits, rand⟩, hp, h⟩ := bind_ok_iff.1 h
    obtain ⟨accessories, ha, h⟩ := bind_ok_iff.1 h
    obtain ⟨hlen, hx⟩ := (referencePortraits_ok_iff hys).1 hp
    obtain ⟨rfl, rfl⟩ := Prod.mk.inj hx
    obtain ⟨hlen', rfl⟩ := haccessories.1 ha
    exact ⟨hlen, hlen', (Except.ok.inj h).symm⟩
  · rintro ⟨hlen, hlen', rfl⟩
    rw [(referencePortraits_ok_iff hys).2 ⟨hlen, rfl⟩, ok_bind]
    exact bind_ok_iff.2 ⟨_, haccessories.2 ⟨hlen', rfl⟩, rfl⟩

/-- **The Minter and the generator return the same result for a paid request iff all their draws have the same
outcomes**, in every reachable Minter with the tables of the configuration. -/
theorem results_agree_iff (h : Reachable chain w) (hk : Seeded w.storage (.paid requestId))
    (hs : Configured w.storage) (hp : ConfiguredPortraits w.storage)
    (hchances : HasChances getBackgroundTierChance chances) :
    SameResults keccak256 getBackgroundTierChance w.storage requestId ↔
      SameDraws keccak256 w.storage chances (w.storage.mintRequests requestId) := by
  obtain ⟨r, hr⟩ : ∃ r, w.storage.mintRequests requestId = r := ⟨_, rfl⟩
  have hwf : WellFormed false r := hr ▸ (ledger_reachable h).wellFormed _ hk.recorded
  have hfits : r.Fits := hr ▸ (ledger_reachable h).fits hk.recorded
  have hseed : r.randomNumber ≠ 0 := hr ▸ hk.2
  obtain ⟨res, hres, hflat⟩ := Reachable.flat h hk keccak256
  have hres : getPaidMintResult keccak256 w.storage requestId = .ok res := hres
  have hflat : FlatResult keccak256 w.storage r res := hr ▸ hflat
  -- the portraits
  have hb : ∀ u ∈ portraitUnits r, u.boxType ≠ .virtual := fun u hu hb =>
    absurd ((hwf.portraits u (mem_of_mem_units hu)).2.2 hb) (by simp)
  obtain ⟨ys, hys, hportraits⟩ := referencePortraits hs.tables hp hchances hb hflat.portraits
  -- the accessories start behind them
  have honly := hwf.accessoriesOnly keccak256
  have hrand : (nextRandom keccak256)^[r.portraitAmount.toNat] r.randomNumber =
      (behindPortraits keccak256 r).randomNumber := by
    rw [hfits.portraitAmount, ← length_portraitUnits]
    rfl
  have hids : r.accessoryStartTokenId.toNat + (accessoryUnits r).length < 2 ^ 256 := by
    rw [length_accessoryUnits, ← hfits.accessoryAmount]
    exact hfits.accessoryIds
  obtain ⟨accessories, hok, hflat'⟩ := requestAccessories_flat keccak256 (hs.tables ▸ initialTables_consistent)
    (behindPortraits keccak256 r).randomNumber hids
  obtain rfl : res.accessories = accessories :=
    FlatItems.unique id (fun _ _ _ _ huv => congrArg _ huv) rfl (hrand ▸ hflat.accessories) hflat'
  obtain ⟨-, hformat⟩ := formatted_of_ok hs honly (show (accessoryUnits r).length < 2 ^ 256 by omega) hok
  have haccessories : res.accessories.map formatAccessory = drawnAccessories keccak256 w.storage
      (behindPortraits keccak256 r) (fun rand => percentStage (rand.toNat / 10000 % 100)) ↔
      ∀ i < accessoryCount r, SameBand (randomAt keccak256 r (total r.portraitMintParams + i)) := by
    rw [hformat, drawnAccessories_eq_iff]
    refine forall₂_congr fun i _ => ?_
    rw [← sameBand_iff, randomAt_behindPortraits]
  -- the two results
  have hsome : (res.portraits.map fun x => some (formatPortrait x)) = (res.portraits.map formatPortrait).map some ∧
      (res.accessories.map fun a => some (formatAccessory a)) = (res.accessories.map formatAccessory).map some := by
    simp only [List.map_map, Function.comp_def, and_self]
  have hsame : SameResults keccak256 getBackgroundTierChance w.storage requestId ↔
      IlluvitarsMintResults.getMintResult keccak256 getBackgroundTierChance (getMintRequest r) =
        .ok (formatResult res) := by
    rw [SameResults, hres, hr]
    simp only [Except.ok.injEq, exists_eq_left']
  rw [hsame, hr, referenceResult_ok_iff hs honly hseed hys, formatResult, hsome.1, hsome.2,
    IlluvitarsMintResults.MintResult.mk.injEq, hflat.requester, hflat.seed]
  simp only [true_and, List.map_inj_right (fun _ _ => Option.some.inj), hportraits, haccessories,
    length_portraitUnits, length_accessoryUnits]
  constructor
  · rintro ⟨hlen, hlen', hsp, hsa⟩
    exact ⟨hlen, hlen', hsp, hsa⟩
  · rintro ⟨hlen, hlen', hsp, hsa⟩
    exact ⟨hlen, hlen', hsp, hsa⟩

end Results

/-! ## A configured deployment -/

namespace Deployment

/-- The sale of a bronze portrait and a bronze accessory, and the seed of the callback. -/
def bronze (seed : Uint256) : World Outside :=
  transactions chain [(owner, .setPortraitSaleWindow ⟨1, 1000⟩),
    (user 100000000000000000, .paidMint [⟨.bronze, 1⟩] [] [⟨.bronze, 1⟩] false),
    (coordinator, .rawFulfillRandomness 0 seed)] configured

theorem bronze_reachable (seed : Uint256) : Reachable chain (bronze seed) :=
  reachable_transactions _ configured_reachable

theorem bronze_configured (seed : Uint256) : Configured (bronze seed).storage := by
  refine configured_run configured_reachable configured_configured ?_ (run_transactions chain _ configured)
  simp [KeepsMintInfo]

/-- The tables of the Minter, closed by 10000. -/
def chancesOf : ChancesOf := fun tier b =>
  ((backgroundTierChances (BitVec.ofNat 8 tier) b).map BitVec.toNat).push 10000

theorem chances_hasChances : HasChances chances chancesOf := fun _ _ h1 h5 _ => if_pos ⟨h1, h5⟩

/-- From them the background tier is drawn by rank. -/
theorem drawnBackgroundTier_chancesOf {tier : ℕ} {b : Illuvitars.BoxType} (h1 : 1 ≤ tier) (h5 : tier ≤ 5)
    (hb : b ≠ .virtual) {chance : ℕ} (hchance : chance < 10000) :
    IlluvitarsMintResults.drawnBackgroundTier (chancesOf tier b) chance =
      rank (entries (backgroundTierChances (BitVec.ofNat 8 tier) b)) chance + 1 := by
  have htier : (BitVec.ofNat 8 tier).toNat = tier := by
    rw [BitVec.toNat_ofNat, Nat.mod_eq_of_lt (by omega)]
  have hvalid : ValidTierChances (backgroundTierChances (BitVec.ofNat 8 tier) b) :=
    backgroundTierChances_valid (by omega) (by omega) hb
  have htable : (chancesOf tier b).toList = entries (backgroundTierChances (BitVec.ofNat 8 tier) b) ++ [10000] := by
    rw [entries, ← Vector.toList_map]
    exact Vector.toList_push
  have hasc : (chancesOf tier b).toList.Pairwise (· ≤ ·) := by
    rw [htable, List.pairwise_append]
    refine ⟨hvalid.ascending, List.pairwise_singleton _ _, fun c hc d hd => ?_⟩
    rw [List.mem_singleton.1 hd]
    exact hvalid.le_max c hc
  have hmem : 10000 ∈ (chancesOf tier b).toList := by simp [htable]
  have hfound : IlluvitarsMintResults.firstAbove (chancesOf tier b) chance =
      some (rank (chancesOf tier b).toList chance) := findIdx?_eq_rank hasc hmem hchance
  rw [IlluvitarsMintResults.drawnBackgroundTier, hfound, Option.map_some, Option.getD_some, htable,
    rank_concat_of_lt hchance]

end Deployment

/-- The seed 599810000 draws the same portrait and the same accessory on both sides, the seed 1 does not. -/
theorem results_agree_bronze :
    SameResults Deployment.lastWord Deployment.chances (Deployment.bronze 599810000).storage 0 ∧
      ¬SameResults Deployment.lastWord Deployment.chances (Deployment.bronze 1).storage 0 := by
  have hp : ∀ seed, ConfiguredPortraits (Deployment.bronze seed).storage := by
    intro seed i
    cases i <;> rfl
  constructor
  · refine (results_agree_iff (Deployment.bronze_reachable _) (by decide) (Deployment.bronze_configured _) (hp _)
      Deployment.chances_hasChances).2 ⟨by decide, by decide, ?_, by decide⟩
    intro i u hu
    have hunits : portraitUnits ((Deployment.bronze 599810000).storage.mintRequests 0) = [⟨.bronze, 1⟩] := rfl
    rw [hunits] at hu
    cases i with
    | zero =>
      obtain rfl : ⟨.bronze, 1⟩ = u := Option.some.inj hu
      refine ⟨by decide, ?_, by decide, by decide⟩
      rw [Deployment.drawnBackgroundTier_chancesOf (by decide) (by decide) (by decide) (Nat.mod_lt _ (by omega))]
      decide
    | succ i => simp at hu
  · intro hsame
    have hdraws := (results_agree_iff (Deployment.bronze_reachable 1) (by decide) (Deployment.bronze_configured 1)
      (hp 1) Deployment.chances_hasChances).1 hsame
    have hlast := (hdraws.portraits 0 ⟨.bronze, 1⟩ rfl).backgroundTier
    rw [Deployment.drawnBackgroundTier_chancesOf (by decide) (by decide) (by decide) (Nat.mod_lt _ (by omega))] at hlast
    exact absurd hlast (by decide)

end Minter
end Illuvitars
