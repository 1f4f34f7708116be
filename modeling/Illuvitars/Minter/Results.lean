import Illuvitars.Lib.Fill
import Illuvitars.Minter.Storage

/-!
# Reading a result

`getPaidMintResult` and `getFreeMintResult` recompute the items of a request on every read, from its seed and from the
tables. Each item is drawn from its own random number by repeated division (`getPortraitInfo`, `getSemiAcccessoryInfo`,
`getFullAcccessoryInfo`); the hash of the random number is the random number of the next item.
-/

namespace Illuvitars
namespace Minter

open Evm Fill

/-! ## Draws -/

def getQuotientAndRemainder16 (a : Uint256) (b : Uint16) : Exec (Uint256 × Uint16) := checkedDivMod a b

def getQuotientAndRemainder8 (a : Uint256) (b : Uint8) : Exec (Uint256 × Uint8) := checkedDivMod a b

/-- The loops that stop at the first chance above a draw. -/
def firstAbove (chances : List Uint16) (chance : Uint16) : Option ℕ :=
  chances.findIdx? (fun c => decide (chance.toNat < c.toNat))

def getTier (tierChances : Vector Uint16 TIER_CHANCE_LEN) (chance : Uint16) : Uint8 :=
  match firstAbove tierChances.toList chance with
  | some k => BitVec.ofNat 8 (k + 1)
  | none => BitVec.ofNat 8 (TIER_CHANCE_LEN + 1)

/-- The draw of an array element: the array's length is cast to 8 bits. -/
def pick {α : Type} (xs : List α) (rand : Uint256) : Exec (Uint256 × α) := do
  let (rand, idx) ← getQuotientAndRemainder8 rand (BitVec.ofNat 8 xs.length)
  let x ← index xs idx.toNat
  pure (rand, x)

section Generators

variable (keccak256 : Keccak) (s : Storage)

def getBackgroundTier (tier : Uint8) (boxType : BoxType) (rand : Uint256) : Exec (Uint256 × Uint8) :=
  if boxType = .virtual then .ok (rand, 0) else do
    let (newRand, chance) ← getQuotientAndRemainder16 rand MAX_CHANCE
    let _backgroundTier := (firstAbove (s.tables.backgroundTierChances tier boxType).toList chance).map (· + 1)
    -- `break` leaves the loop only, and the tier it found is overwritten
    pure (newRand, BitVec.ofNat 8 (TIER_CHANCE_LEN + 1))

def getExpression (rand : Uint256) : Exec (Uint256 × ExpressionType) := do
  let (newRand, value) ← getQuotientAndRemainder16 rand MAX_CHANCE
  match firstAbove s.tables.expressionProbability.toList value with
  | some i => do
    let expression ← ExpressionType.ofUint8 (BitVec.ofNat 8 i)
    pure (newRand, expression)
  | none => pure (newRand, .normal)

def getFinish (rand : Uint256) (boxType : BoxType) : Exec (Uint256 × FinishType) := do
  let holoProbability : Uint16 := if boxType = .virtual then 200 else (s.portraitMintInfo boxType).holoProbability
  let (newRand, value) ← getQuotientAndRemainder16 rand MAX_CHANCE
  pure (newRand, if value.toNat ≤ holoProbability.toNat then .holo else .normal)

def getAccessoryStage (rand : Uint256) : Exec (Uint256 × Uint8) := do
  let (newRand, value) ← getQuotientAndRemainder16 rand MAX_CHANCE
  match firstAbove s.tables.stageProbability.toList value with
  | some i => pure (newRand, BitVec.ofNat 8 (i + 1))
  | none => pure (newRand, 0)

/-! ## Items -/

/-- The random number of the next item. -/
def nextRandom (rand : Uint256) : Uint256 := keccak256 [rand, rand]

/-- The tier and the background tier of a portrait. -/
def portraitTiers (rand : Uint256) (boxType : BoxType) : Exec (Uint256 × Uint8 × Uint8) :=
  if boxType = .virtual then .ok (rand, 0, 0) else do
    let (rand, chance) ← getQuotientAndRemainder16 rand MAX_CHANCE
    let tier := getTier (s.portraitMintInfo boxType).tierChances chance
    let (rand, backgroundTier) ← getBackgroundTier s tier boxType rand
    pure (rand, tier, backgroundTier)

/-- The tier of an accessory. -/
def accessoryTier (rand : Uint256) (boxType : BoxType) : Exec (Uint256 × Uint8) :=
  if boxType = .virtual then .ok (rand, 0) else do
    let (rand, chance) ← getQuotientAndRemainder16 rand MAX_CHANCE
    pure (rand, getTier (s.accessoryMintInfo boxType).tierChances chance)

def getPortraitInfo (rand : Uint256) (mintParam : PortraitMintParams) (tokenId : Uint256) :
    Exec (PortraitInfo × Uint256 × Uint256) := do
  let (_rand, tier, backgroundTier) ← portraitTiers s rand mintParam.boxType
  let illuvialCount ← index s.tables.illuvialCounts.toList tier.toNat
  let (_rand, illuvial) ← getQuotientAndRemainder8 _rand illuvialCount
  let (_rand, backgroundLine) ← pick (s.tables.backgroundLines backgroundTier) _rand
  let (_rand, backgroundStage) ← pick (s.tables.backgroundStages backgroundTier backgroundLine) _rand
  let (_rand, backgroundVariation) ← getQuotientAndRemainder8 _rand
    (s.tables.backgroundVariations backgroundTier backgroundLine backgroundStage)
  let (_rand, expression) ← getExpression s _rand
  let (_, finish) ← getFinish s _rand mintParam.boxType
  let nextTokenId ← checkedAdd tokenId (PORTRAIT_MASK.setWidth 256)
  pure ({ tokenId, boxType := mintParam.boxType, tier, illuvial, backgroundTier, backgroundLine, backgroundStage,
          backgroundVariation, expression, finish }, nextRandom keccak256 rand, nextTokenId)

def getSemiAcccessoryInfo (rand : Uint256) (mintParam : AccessorySemiRandomMintParams) (tokenId : Uint256) :
    Exec (AccessoryInfo × Uint256 × Uint256) := do
  let (_rand, tier) ← accessoryTier s rand mintParam.boxType
  let (_, stage) ← getAccessoryStage s _rand
  let nextTokenId ← checkedAdd tokenId 1
  pure ({ tokenId, boxType := mintParam.boxType, accessoryType := mintParam.accessoryType, tier, stage },
    nextRandom keccak256 rand, nextTokenId)

def getFullAcccessoryInfo (rand : Uint256) (mintParam : AccessoryFullRandomMintParams) (tokenId : Uint256) :
    Exec (AccessoryInfo × Uint256 × Uint256) := do
  let (_rand, tier) ← accessoryTier s rand mintParam.boxType
  let accessoryType ← AccessoryType.ofUint8 ((_rand % 5).setWidth 8)
  let (_, stage) ← getAccessoryStage s _rand
  let nextTokenId ← checkedAdd tokenId 1
  pure ({ tokenId, boxType := mintParam.boxType, accessoryType, tier, stage }, nextRandom keccak256 rand, nextTokenId)

/-! ## The items of a request -/

/-- The amount of a parameter, as the bound of an inner loop. -/
def amountOf {P : Type} [MintParams P] (p : P) : ℕ := (MintParams.amount p).toNat

/-- The loops that sum the amounts of a list. -/
def sumAmounts {P : Type} [MintParams P] : List P → Uint256 → Exec Uint256
  | [], sum => .ok sum
  | p :: ps, sum => do
    let sum ← checkedAdd sum ((MintParams.amount p).setWidth 256)
    sumAmounts ps sum

def getPortraitsInfo (seed : Uint256) (portraitMintParams : List PortraitMintParams)
    (portraitAmount startTokenId : Uint256) : Exec (List PortraitInfo × Uint256) := do
  let f ← fillParams (fun p st => getPortraitInfo keccak256 s st.1 p st.2) amountOf portraitMintParams
    { items := List.replicate portraitAmount.toNat .zero, idx := 0, state := (seed, startTokenId) }
  pure (f.items, f.state.1)

def getAccessoriesInfo (seed : Uint256) (fullRandomMintParams : List AccessoryFullRandomMintParams)
    (semiRandomMintParams : List AccessorySemiRandomMintParams) (startTokenId : Uint256) :
    Exec (List AccessoryInfo) := do
  let fullRandomAmount ← sumAmounts fullRandomMintParams 0
  let semiRandomAmount ← sumAmounts semiRandomMintParams 0
  let amount ← checkedAdd semiRandomAmount fullRandomAmount
  let f ← fillParams (fun p st => getSemiAcccessoryInfo keccak256 s st.1 p st.2) amountOf semiRandomMintParams
    { items := List.replicate amount.toNat .zero, idx := 0, state := (seed, startTokenId) }
  let f ← fillParams (fun p st => getFullAcccessoryInfo keccak256 s st.1 p st.2) amountOf fullRandomMintParams f
  pure f.items

/-! ## The getters -/

structure MintResult where
  requester : Address
  seed : Uint256
  portraits : List PortraitInfo
  accessories : List AccessoryInfo
deriving DecidableEq, Repr

/-- The portraits of a request, and the random number after them. -/
def requestPortraits (mintRequest : MintRequest) : Exec (List PortraitInfo × Uint256) :=
  if mintRequest.portraitAmount ≠ 0 then
    getPortraitsInfo keccak256 s mintRequest.randomNumber mintRequest.portraitMintParams mintRequest.portraitAmount
      mintRequest.portraitStartTokenId
  else .ok ([], mintRequest.randomNumber)

/-- The accessories of a request. -/
def requestAccessories (mintRequest : MintRequest) (rand : Uint256) : Exec (List AccessoryInfo) :=
  if mintRequest.accessoryFullRandomMintParams.length > 0 ∨ mintRequest.accessorySemiRandomMintParams.length > 0 then
    getAccessoriesInfo keccak256 s rand mintRequest.accessoryFullRandomMintParams
      mintRequest.accessorySemiRandomMintParams mintRequest.accessoryStartTokenId
  else .ok []

/-- The part that the two getters have in common. -/
def mintResult (mintRequest : MintRequest) : Exec MintResult := do
  let (portraits, rand) ← requestPortraits keccak256 s mintRequest
  let accessories ← requestAccessories keccak256 s mintRequest rand
  pure { requester := mintRequest.requester, seed := mintRequest.randomNumber, portraits, accessories }

def getPaidMintResult (requestId : Bytes32) : Exec MintResult := do
  require ((s.mintRequests requestId).randomNumber ≠ 0) "No random number generated"
  mintResult keccak256 s (s.mintRequests requestId)

def getFreeMintResult (idx : Uint256) : Exec MintResult := do
  require ((s.freeRequests idx).requester ≠ 0) "No request"
  mintResult keccak256 s (s.freeRequests idx)

end Generators

end Minter
end Illuvitars
