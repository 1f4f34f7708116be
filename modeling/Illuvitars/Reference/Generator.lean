import Illuvitars.Chainlink
import Illuvitars.DataTypes
import Illuvitars.Lib.Chances
import Illuvitars.Lib.Script

/-!
# The reference generator

`test/include/illuvitars_mint_results.ts` computes the result of a request a second time, from the request and its own
tables, and the tests of the Minter compare the two. The integers are unbounded, chances of tiers are out of 10000 in
tables with an entry for tier 0, chances of stages, expressions and finishes are out of 100.

`getBackgroundTierChance` computes its table with floating-point numbers and is a parameter.

* `getSemiAcccessoryInfo_eq`, `getFullAcccessoryInfo_eq`: what is drawn for an accessory, for every random number that
  is a word.
-/

namespace Illuvitars
namespace IlluvitarsMintResults

open Evm Fill Script Chances

/-! ## Types -/

structure Portrait where
  tokenId : ℕ
  boxType : BoxType
  tier : ℕ
  illuvial : ℕ
  backgroundTier : ℕ
  backgroundLine : BackgroundLine
  backgroundStage : ℕ
  backgroundVariation : ℕ
  expression : ℕ
  finish : FinishType
deriving DecidableEq, Repr

structure Accessory where
  tokenId : ℕ
  boxType : BoxType
  accessoryType : ℕ
  tier : ℕ
  stage : ℕ
deriving DecidableEq, Repr

structure PortraitMintParams where
  boxType : BoxType
  amount : ℕ

structure AccessorySemiRandomMintParams where
  accessoryType : AccessoryType
  boxType : BoxType
  amount : ℕ

structure AccessoryFullRandomMintParams where
  boxType : BoxType
  amount : ℕ

structure MintRequest where
  requester : Address
  portraitMintParams : List PortraitMintParams
  portraitAmount : ℕ
  accessorySemiRandomMintParams : List AccessorySemiRandomMintParams
  accessoryFullRandomMintParams : List AccessoryFullRandomMintParams
  accessoryAmount : ℕ
  randomNumber : ℕ
  portraitStartTokenId : ℕ
  accessoryStartTokenId : ℕ

structure MintResult where
  requester : Address
  seed : ℕ
  portraits : List (Option Portrait)
  accessories : List (Option Accessory)
deriving DecidableEq, Repr

/-! ## Constants and tables -/

def STAGE_COUNT : ℕ := 3
def FULL_PERCENT : ℕ := 100
def TIER_COUNT : ℕ := 6
def EXPRESSION_COUNT : ℕ := 3
def MAX_TIER_CHANCE : ℕ := 10000
def MAX_TIER : ℕ := 5
def PORTRAIT_MASK : ℕ := 6

def stageProbability : Vector ℕ STAGE_COUNT := #v[45, 80, 100]
def expressionProbability : Vector ℕ EXPRESSION_COUNT := #v[50, 80, 100]
def illuvialCounts : List ℕ := [3, 6, 5, 4, 4, 3]

def backgroundLines : List (List BackgroundLine) :=
  [[.dots], [.flash], [.hex, .rain], [.spotlight, .mozart], [.affinity, .arena], [.token, .encounter]]

def backgroundStages (tier : ℕ) (line : BackgroundLine) : Option (List ℕ) :=
  match tier, line with
  | 0, .dots => some [1]
  | 1, .flash => some [1]
  | 2, .hex => some [2]
  | 2, .rain => some [3]
  | 3, .spotlight => some [3]
  | 3, .mozart => some [2]
  | 4, .affinity => some [1]
  | 4, .arena => some [1]
  | 5, .token => some [1, 2]
  | 5, .encounter => some [3]
  | _, _ => none

def backgroundVariations (tier : ℕ) (line : BackgroundLine) (stage : ℕ) : Option ℕ :=
  match tier, line, stage with
  | 0, .dots, 1 => some 10
  | 1, .flash, 1 => some 10
  | 2, .hex, 2 => some 8
  | 2, .rain, 3 => some 8
  | 3, .spotlight, 3 => some 5
  | 3, .mozart, 2 => some 8
  | 4, .affinity, 1 => some 5
  | 4, .arena, 1 => some 2
  | 5, .token, 1 => some 1
  | 5, .token, 2 => some 1
  | 5, .encounter, 3 => some 2
  | _, _, _ => none

def CENTIETHER : ℕ := 10 ^ 16

def centiethers (cents : ℕ) : ℕ := cents * CENTIETHER

def portraitPrices : BoxType → ℕ
  | .virtual => 0
  | .bronze => centiethers 5
  | .silver => centiethers 10
  | .gold => centiethers 25
  | .platinum => centiethers 75
  | .diamond => centiethers 250

structure AccessoryPrices where
  randomPrice : ℕ
  semiRandomPrice : ℕ

def accessoryPrices : BoxType → AccessoryPrices
  | .virtual => ⟨0, 0⟩
  | .bronze => ⟨centiethers 5, centiethers 10⟩
  | .silver => ⟨centiethers 10, centiethers 20⟩
  | .gold => ⟨centiethers 15, centiethers 30⟩
  | .platinum => ⟨centiethers 20, centiethers 40⟩
  | .diamond => ⟨centiethers 25, centiethers 50⟩

structure PortraitMintInfo where
  price : ℕ
  tierChances : Vector ℕ TIER_COUNT
  holoProbability : ℕ

structure AccessoryMintInfo extends AccessoryPrices where
  tierChances : Vector ℕ TIER_COUNT

def portraitMintInfo (boxType : BoxType) : PortraitMintInfo :=
  match boxType with
  | .virtual => ⟨portraitPrices boxType, #v[10000, 0, 0, 0, 0, 0], 2⟩
  | .bronze => ⟨portraitPrices boxType, #v[0, 8000, 9700, 9930, 9980, 10000], 2⟩
  | .silver => ⟨portraitPrices boxType, #v[0, 6100, 8800, 9700, 9950, 10000], 2⟩
  | .gold => ⟨portraitPrices boxType, #v[0, 2400, 6600, 8800, 9700, 10000], 2⟩
  | .platinum => ⟨portraitPrices boxType, #v[0, 500, 2000, 4250, 8250, 10000], 3⟩
  | .diamond => ⟨portraitPrices boxType, #v[0, 200, 1000, 2500, 5000, 10000], 5⟩

def accessoryMintInfo (boxType : BoxType) : AccessoryMintInfo :=
  match boxType with
  | .virtual => ⟨accessoryPrices boxType, #v[10000, 0, 0, 0, 0, 0]⟩
  | .bronze => ⟨accessoryPrices boxType, #v[0, 8100, 9200, 9700, 9900, 10000]⟩
  | .silver => ⟨accessoryPrices boxType, #v[0, 3000, 7600, 8800, 9700, 10000]⟩
  | .gold => ⟨accessoryPrices boxType, #v[0, 1500, 4700, 7200, 9000, 10000]⟩
  | .platinum => ⟨accessoryPrices boxType, #v[0, 500, 2000, 5300, 8000, 10000]⟩
  | .diamond => ⟨accessoryPrices boxType, #v[0, 100, 600, 2800, 6000, 10000]⟩

/-! ## Draws -/

def toUint8 (value : ℕ) : ℕ := value &&& (2 ^ 8 - 1)

def toUint16 (value : ℕ) : ℕ := value &&& (2 ^ 16 - 1)

def getQuotientAndRemainder16 (a b : ℕ) : Exec (ℕ × ℕ) := do
  let (q, r) ← divMod a b
  pure (q, toUint16 r)

def getQuotientAndRemainder8 (a b : ℕ) : Exec (ℕ × ℕ) := do
  let (q, r) ← divMod a b
  pure (q, toUint8 r)

/-- The loops that stop at the first entry above a draw. -/
def firstAbove {n : ℕ} (table : Vector ℕ n) (value : ℕ) : Option ℕ :=
  table.toList.findIdx? (fun c => decide (value < c))

def getTier (tierChances : Vector ℕ TIER_COUNT) (chance : ℕ) : ℕ := (firstAbove tierChances chance).getD 0

def getExpression (rand : ℕ) : Exec (ℕ × ℕ) := do
  let (newRand, value) ← getQuotientAndRemainder16 rand FULL_PERCENT
  pure (newRand, (firstAbove expressionProbability value).getD 0)

def getFinish (rand : ℕ) (boxType : BoxType) : Exec (ℕ × FinishType) := do
  let (newRand, value) ← getQuotientAndRemainder16 rand FULL_PERCENT
  pure (newRand, if value ≤ (portraitMintInfo boxType).holoProbability then .holo else .normal)

def getAccessoryStage (rand : ℕ) : Exec (ℕ × ℕ) := do
  let (newRand, value) ← getQuotientAndRemainder16 rand FULL_PERCENT
  pure (newRand, ((firstAbove stageProbability value).map (· + 1)).getD 0)

section Generators

/-- The chances of the background tiers, for a tier and a box. -/
abbrev BackgroundTierChances := ℕ → BoxType → Exec (Vector ℕ MAX_TIER)

variable (keccak256 : Keccak) (getBackgroundTierChance : BackgroundTierChances)

def getBackgroundTier (tier : ℕ) (boxType : BoxType) (rand : ℕ) : Exec (ℕ × ℕ) :=
  if boxType = .virtual then .ok (rand, 0) else do
    let (newRand, chance) ← getQuotientAndRemainder16 rand MAX_TIER_CHANCE
    let chances ← getBackgroundTierChance tier boxType
    pure (newRand, ((firstAbove chances chance).map (· + 1)).getD 1)

/-- An integer as a word of the ABI encoding. -/
def encodeUint256 (value : ℕ) : Exec Uint256 :=
  if value < 2 ^ 256 then .ok (BitVec.ofNat 256 value) else exception "value out-of-bounds"

def illuvitarsHash (rand : ℕ) : Exec ℕ := do
  let word ← encodeUint256 rand
  pure (keccak256 [word, word]).toNat

/-! ## Items -/

def getPortraitInfo (rand : ℕ) (mintParam : PortraitMintParams) (tokenId : ℕ) : Exec (Portrait × ℕ × ℕ) := do
  let (_rand, chance) ← getQuotientAndRemainder16 rand MAX_TIER_CHANCE
  let tier := getTier (portraitMintInfo mintParam.boxType).tierChances chance
  let illuvialCount ← defined illuvialCounts[tier]?
  let (_rand, illuvialBN) ← getQuotientAndRemainder8 _rand illuvialCount
  let illuvial ← toNumber illuvialBN
  let (_rand, backgroundTier) ← getBackgroundTier getBackgroundTierChance tier mintParam.boxType _rand
  let lines ← defined backgroundLines[backgroundTier]?
  let (_rand, backgroundIdxBN) ← getQuotientAndRemainder8 _rand (toUint8 lines.length)
  let backgroundIdx ← toNumber backgroundIdxBN
  let backgroundLine ← defined lines[backgroundIdx]?
  let stages ← defined (backgroundStages backgroundTier backgroundLine)
  let (_rand, backgroundIdxBN) ← getQuotientAndRemainder8 _rand (toUint8 stages.length)
  let backgroundIdx ← toNumber backgroundIdxBN
  let backgroundStage ← defined stages[backgroundIdx]?
  let variations ← defined (backgroundVariations backgroundTier backgroundLine backgroundStage)
  let (_rand, backgroundVariationBN) ← getQuotientAndRemainder8 _rand variations
  let backgroundVariation ← toNumber backgroundVariationBN
  let (_rand, expression) ← getExpression _rand
  let (_, finish) ← getFinish _rand mintParam.boxType
  let nextTokenId := tokenId + PORTRAIT_MASK
  let nextRand ← illuvitarsHash keccak256 rand
  pure ({ tokenId, boxType := mintParam.boxType, tier, illuvial, backgroundTier, backgroundLine, backgroundStage,
          backgroundVariation, expression, finish }, nextRand, nextTokenId)

def getSemiAcccessoryInfo (rand : ℕ) (mintParam : AccessorySemiRandomMintParams) (tokenId : ℕ) :
    Exec (Accessory × ℕ × ℕ) := do
  let (_rand, chance) ← getQuotientAndRemainder16 rand MAX_TIER_CHANCE
  let tier := getTier (accessoryMintInfo mintParam.boxType).tierChances chance
  let (_, stage) ← getAccessoryStage _rand
  let nextTokenId := tokenId + 1
  let nextRand ← illuvitarsHash keccak256 rand
  pure ({ tokenId, boxType := mintParam.boxType, accessoryType := mintParam.accessoryType.encoding, tier, stage },
    nextRand, nextTokenId)

def getFullAcccessoryInfo (rand : ℕ) (mintParam : AccessoryFullRandomMintParams) (tokenId : ℕ) :
    Exec (Accessory × ℕ × ℕ) := do
  let (_rand, chance) ← getQuotientAndRemainder16 rand MAX_TIER_CHANCE
  let accessoryType ← toNumber (toUint8 (_rand % 5))
  let tier := getTier (accessoryMintInfo mintParam.boxType).tierChances chance
  let (_, stage) ← getAccessoryStage _rand
  let nextTokenId := tokenId + 1
  let nextRand ← illuvitarsHash keccak256 rand
  pure ({ tokenId, boxType := mintParam.boxType, accessoryType, tier, stage }, nextRand, nextTokenId)

/-! ## The items of a request -/

def getPortraitsInfo (seed : ℕ) (portraitMintParams : List PortraitMintParams) (startTokenId : ℕ) :
    Exec (List (Option Portrait) × ℕ) := do
  let portraitAmount := (portraitMintParams.map PortraitMintParams.amount).sum
  let length ← toNumber portraitAmount
  let portraits ← newArray length
  let f ← assignParams (fun p st => getPortraitInfo keccak256 getBackgroundTierChance st.1 p st.2)
    PortraitMintParams.amount portraitMintParams { items := portraits, idx := 0, state := (seed, startTokenId) }
  pure (f.items, f.state.1)

def getAccessoriesInfo (seed : ℕ) (fullRandomMintParams : List AccessoryFullRandomMintParams)
    (semiRandomMintParams : List AccessorySemiRandomMintParams) (startTokenId : ℕ) :
    Exec (List (Option Accessory)) := do
  let fullRandomAmount := (fullRandomMintParams.map AccessoryFullRandomMintParams.amount).sum
  let semiRandomAmount := (semiRandomMintParams.map AccessorySemiRandomMintParams.amount).sum
  let length ← toNumber (semiRandomAmount + fullRandomAmount)
  let accessories ← newArray length
  let f ← assignParams (fun p st => getSemiAcccessoryInfo keccak256 st.1 p st.2)
    AccessorySemiRandomMintParams.amount semiRandomMintParams
    { items := accessories, idx := 0, state := (seed, startTokenId) }
  let f ← assignParams (fun p st => getFullAcccessoryInfo keccak256 st.1 p st.2)
    AccessoryFullRandomMintParams.amount fullRandomMintParams f
  pure f.items

/-- The portraits of a request, and the random number after them. -/
def requestPortraits (mintRequest : MintRequest) : Exec (List (Option Portrait) × ℕ) :=
  if mintRequest.portraitMintParams.length > 0 then
    getPortraitsInfo keccak256 getBackgroundTierChance mintRequest.randomNumber mintRequest.portraitMintParams
      mintRequest.portraitStartTokenId
  else .ok ([], mintRequest.randomNumber)

/-- The accessories of a request. -/
def requestAccessories (mintRequest : MintRequest) (rand : ℕ) : Exec (List (Option Accessory)) :=
  if mintRequest.accessoryFullRandomMintParams.length > 0 ∨ mintRequest.accessorySemiRandomMintParams.length > 0 then
    getAccessoriesInfo keccak256 rand mintRequest.accessoryFullRandomMintParams
      mintRequest.accessorySemiRandomMintParams mintRequest.accessoryStartTokenId
  else .ok []

def getMintResult (mintRequest : MintRequest) : Exec MintResult :=
  if mintRequest.randomNumber = 0 then exception "No random number generated" else do
    let (portraits, rand) ← requestPortraits keccak256 getBackgroundTierChance mintRequest
    let accessories ← requestAccessories keccak256 mintRequest rand
    pure { requester := mintRequest.requester, seed := mintRequest.randomNumber, portraits, accessories }

end Generators

/-! ## What is drawn -/

theorem toUint8_of_lt {n : ℕ} (h : n < 2 ^ 8) : toUint8 n = n := by
  rw [toUint8, Nat.and_two_pow_sub_one_eq_mod, Nat.mod_eq_of_lt h]

theorem toUint16_of_lt {n : ℕ} (h : n < 2 ^ 16) : toUint16 n = n := by
  rw [toUint16, Nat.and_two_pow_sub_one_eq_mod, Nat.mod_eq_of_lt h]

/-- The cast of a remainder keeps it if the divisor has 16 bits. -/
theorem getQuotientAndRemainder16_eq (a : ℕ) {b : ℕ} (hpos : 0 < b) (hb : b ≤ 2 ^ 16) :
    getQuotientAndRemainder16 a b = .ok (a / b, a % b) := by
  have hlt : a % b < 2 ^ 16 := lt_of_lt_of_le (Nat.mod_lt a hpos) hb
  simp only [getQuotientAndRemainder16, divMod_of_pos hpos, ok_bind, pure_eq_ok, toUint16_of_lt hlt]

/-- The entry for tier 0 is passed by every draw, so the tiers from 1 on are drawn by rank. -/
theorem getTier_eq {t : Vector ℕ TIER_COUNT} {cs : List ℕ} (ht : t.toList = 0 :: cs ++ [MAX_TIER_CHANCE])
    (hasc : t.toList.Pairwise (· ≤ ·)) {chance : ℕ} (h : chance < MAX_TIER_CHANCE) :
    getTier t chance = rank cs chance + 1 := by
  have hmem : MAX_TIER_CHANCE ∈ t.toList := by
    rw [ht]
    exact List.mem_append_right _ List.mem_cons_self
  rw [getTier, firstAbove, findIdx?_eq_rank hasc hmem h, Option.getD_some, ht, rank_concat_of_lt h,
    rank_cons_of_le (Nat.zero_le chance)]

/-- The stage is drawn by rank, out of 100. -/
theorem getAccessoryStage_eq (rand : ℕ) :
    getAccessoryStage rand = .ok (rand / 100, rank stageProbability.toList (rand % 100) + 1) := by
  have hasc : stageProbability.toList.Pairwise (· ≤ ·) := by decide
  have hmem : 100 ∈ stageProbability.toList := by decide
  have hfound : firstAbove stageProbability (rand % 100) = some (rank stageProbability.toList (rand % 100)) :=
    findIdx?_eq_rank hasc hmem (Nat.mod_lt rand (by decide))
  have hdraw : getQuotientAndRemainder16 rand FULL_PERCENT = .ok (rand / 100, rand % 100) :=
    getQuotientAndRemainder16_eq rand (by decide) (by decide)
  simp only [getAccessoryStage, hdraw, ok_bind, hfound, Option.map_some, Option.getD_some, pure_eq_ok]

section Accessories

variable (keccak256 : Keccak) (rand : Uint256) {cs : List ℕ} {tokenId : ℕ}

/-- The random number of the next item. -/
theorem illuvitarsHash_eq : illuvitarsHash keccak256 rand.toNat = .ok (keccak256 [rand, rand]).toNat := by
  have hword : encodeUint256 rand.toNat = .ok rand := by
    rw [encodeUint256, if_pos rand.isLt, BitVec.ofNat_toNat, BitVec.setWidth_eq]
  rw [illuvitarsHash, hword, ok_bind, pure_eq_ok]

/-- A semi-random accessory. -/
theorem getSemiAcccessoryInfo_eq {p : AccessorySemiRandomMintParams}
    (ht : (accessoryMintInfo p.boxType).tierChances.toList = 0 :: cs ++ [MAX_TIER_CHANCE])
    (hasc : (accessoryMintInfo p.boxType).tierChances.toList.Pairwise (· ≤ ·)) :
    getSemiAcccessoryInfo keccak256 rand.toNat p tokenId =
      .ok (⟨tokenId, p.boxType, p.accessoryType.encoding, rank cs (rand.toNat % 10000) + 1,
        rank stageProbability.toList (rand.toNat / 10000 % 100) + 1⟩, (keccak256 [rand, rand]).toNat, tokenId + 1) := by
  have hchance : rand.toNat % MAX_TIER_CHANCE < MAX_TIER_CHANCE := Nat.mod_lt _ (by decide)
  simp only [getSemiAcccessoryInfo, getQuotientAndRemainder16_eq rand.toNat (b := MAX_TIER_CHANCE) (by decide)
    (by decide), ok_bind, getAccessoryStage_eq, illuvitarsHash_eq, pure_eq_ok, getTier_eq ht hasc hchance]
  rfl

/-- A full-random accessory takes its type from the number that its stage is drawn from. -/
theorem getFullAcccessoryInfo_eq {p : AccessoryFullRandomMintParams}
    (ht : (accessoryMintInfo p.boxType).tierChances.toList = 0 :: cs ++ [MAX_TIER_CHANCE])
    (hasc : (accessoryMintInfo p.boxType).tierChances.toList.Pairwise (· ≤ ·)) :
    getFullAcccessoryInfo keccak256 rand.toNat p tokenId =
      .ok (⟨tokenId, p.boxType, rand.toNat / 10000 % 5, rank cs (rand.toNat % 10000) + 1,
        rank stageProbability.toList (rand.toNat / 10000 % 100) + 1⟩, (keccak256 [rand, rand]).toNat, tokenId + 1) := by
  have hchance : rand.toNat % MAX_TIER_CHANCE < MAX_TIER_CHANCE := Nat.mod_lt _ (by decide)
  have htype : toNumber (toUint8 (rand.toNat / MAX_TIER_CHANCE % 5)) = .ok (rand.toNat / 10000 % 5) := by
    rw [toUint8_of_lt (by omega), toNumber, if_pos (by omega), MAX_TIER_CHANCE]
  simp only [getFullAcccessoryInfo, getQuotientAndRemainder16_eq rand.toNat (b := MAX_TIER_CHANCE) (by decide)
    (by decide), ok_bind, htype, getAccessoryStage_eq, illuvitarsHash_eq, pure_eq_ok, getTier_eq ht hasc hchance]
  rfl

end Accessories

end IlluvitarsMintResults
end Illuvitars
