import Illuvitars.DataTypes
import Illuvitars.Chainlink

/-!
# The storage of the Minter

The structs and state variables of `Minter`, and the world the contract lives in: its storage, its ether, the events
emitted so far, and the outside (LINK and its VRF coordinator, the sILV token, the price oracle, the treasury), which
the contract only meets through the calls listed in `Chain`.
-/

namespace Illuvitars
namespace Minter

open Evm

def MAX_CHANCE : Uint16 := 10000
def TIER_CHANCE_LEN : Nat := 4
def PORTRAIT_MASK : Uint8 := 6

/-! ## Structs -/

structure PortraitMintParams where
  boxType : BoxType
  amount : Uint64
deriving DecidableEq, Repr

structure AccessorySemiRandomMintParams where
  accessoryType : AccessoryType
  boxType : BoxType
  amount : Uint64
deriving DecidableEq, Repr

structure AccessoryFullRandomMintParams where
  boxType : BoxType
  amount : Uint64
deriving DecidableEq, Repr

structure MintRequest where
  requester : Address
  portraitMintParams : List PortraitMintParams
  portraitAmount : Uint256
  accessorySemiRandomMintParams : List AccessorySemiRandomMintParams
  accessoryFullRandomMintParams : List AccessoryFullRandomMintParams
  accessoryAmount : Uint256
  randomNumber : Uint256
  portraitStartTokenId : Uint256
  accessoryStartTokenId : Uint256
deriving DecidableEq, Repr

/-- An unused slot of a request mapping. -/
def MintRequest.zero : MintRequest := ⟨0, [], 0, [], [], 0, 0, 0, 0⟩

structure PortraitInfo where
  tokenId : Uint256
  boxType : BoxType
  tier : Uint8
  illuvial : Uint8
  backgroundTier : Uint8
  backgroundLine : BackgroundLine
  backgroundStage : Uint8
  backgroundVariation : Uint8
  expression : ExpressionType
  finish : FinishType
deriving DecidableEq, Repr

/-- A fresh memory element of a portrait array. -/
def PortraitInfo.zero : PortraitInfo := ⟨0, .virtual, 0, 0, 0, .dots, 0, 0, .normal, .normal⟩

structure AccessoryInfo where
  tokenId : Uint256
  boxType : BoxType
  accessoryType : AccessoryType
  tier : Uint8
  stage : Uint8
deriving DecidableEq, Repr

/-- A fresh memory element of an accessory array. -/
def AccessoryInfo.zero : AccessoryInfo := ⟨0, .virtual, .skin, 0, 0⟩

structure PortraitMintInfo where
  price : Uint256
  tierChances : Vector Uint16 TIER_CHANCE_LEN
  holoProbability : Uint16
deriving DecidableEq

structure AccessoryMintInfo where
  randomPrice : Uint256
  semiRandomPrice : Uint256
  tierChances : Vector Uint16 TIER_CHANCE_LEN
deriving DecidableEq

structure SaleWindow where
  start : Uint64
  endTime : Uint64
deriving DecidableEq, Repr

/-! ## The parameter lists

The three kinds of parameters have a box type and an amount; the loops over them read nothing else. -/

class MintParams (P : Type) where
  boxType : P → BoxType
  amount : P → Uint64

instance : MintParams PortraitMintParams := ⟨PortraitMintParams.boxType, PortraitMintParams.amount⟩
instance : MintParams AccessorySemiRandomMintParams :=
  ⟨AccessorySemiRandomMintParams.boxType, AccessorySemiRandomMintParams.amount⟩
instance : MintParams AccessoryFullRandomMintParams :=
  ⟨AccessoryFullRandomMintParams.boxType, AccessoryFullRandomMintParams.amount⟩

section Totals

variable {P : Type} [MintParams P]

/-- The number of units a list asks for. -/
def total (ps : List P) : ℕ := (ps.map (fun p => (MintParams.amount p).toNat)).sum

/-- What the units of a list cost at a price for each box type. -/
def cost (price : BoxType → Uint256) (ps : List P) : ℕ :=
  (ps.map (fun p => (MintParams.amount p).toNat * (price (MintParams.boxType p)).toNat)).sum

@[simp] theorem total_nil : total ([] : List P) = 0 := rfl

@[simp] theorem total_cons (p : P) (ps : List P) : total (p :: ps) = (MintParams.amount p).toNat + total ps := rfl

@[simp] theorem cost_nil (price : BoxType → Uint256) : cost price ([] : List P) = 0 := rfl

@[simp] theorem cost_cons (price : BoxType → Uint256) (p : P) (ps : List P) :
    cost price (p :: ps) = (MintParams.amount p).toNat * (price (MintParams.boxType p)).toNat + cost price ps := rfl

end Totals

/-! ## State variables -/

/-- The tables of the generators, written by the initialiser only. -/
structure Tables where
  expressionProbability : Vector Uint16 3
  stageProbability : Vector Uint16 3
  backgroundTierChances : Uint8 → BoxType → Vector Uint16 TIER_CHANCE_LEN
  backgroundLines : Uint8 → List BackgroundLine
  backgroundStages : Uint8 → BackgroundLine → List Uint8
  backgroundVariations : Uint8 → BackgroundLine → Uint8 → Uint8
  illuvialCounts : Vector Uint8 6

structure Storage where
  initialized : Bool
  owner : Address
  vrf : VRFConsumerBase.Storage
  portraitMintInfo : BoxType → PortraitMintInfo
  accessoryMintInfo : BoxType → AccessoryMintInfo
  tables : Tables
  mintRequests : Bytes32 → MintRequest
  freeRequests : Uint256 → MintRequest
  freeRequestCount : Uint256
  portraitSaleWindow : SaleWindow
  sIlv : Address
  treasury : Address
  illuvitarsPriceOracle : Address
  vrfKeyHash : Bytes32
  vrfFee : Uint256
  nextPortraitTokenId : Uint256
  nextAccessoryTokenId : Uint256
  freePortraitLimitPerTx : Uint256
  freeAccessoryLimitPerTx : Uint256

inductive Event
  | treasurySet (treasury : Address)
  | mintRequested (requester : Address) (requestId : Bytes32)
  | freeMintRequested (requester : Address) (idx : Uint256)
  | requestFulfilled (requestId : Bytes32) (randomNumber : Uint256)
  | ownershipTransferred (previousOwner newOwner : Address)
deriving DecidableEq, Repr

/-! ## Calls and the world -/

/-- What a call knows of its transaction. No account has the address zero. -/
structure Msg where
  sender : Address
  value : Uint256
  timestamp : Uint256
  sender_ne_zero : sender ≠ 0

/-- The outside of the Minter, with states `X`: the external calls the contract makes, the states in which it may be
deployed (`deployed`), and what other transactions may do to the outside between two calls (`evolves`). -/
structure Chain (X : Type) where
  this : Address
  keccak256 : Keccak
  transferAndCall : (link recipient : Address) → (value : Uint256) → (data : List Uint256) → X → Exec X
  ethToIlv : (oracle : Address) → X → (ethOut : Uint256) → Exec Uint256
  balanceOf : (token : Address) → X → (account : Address) → Uint256
  safeTransfer : (token recipient : Address) → (amount : Uint256) → X → Exec X
  safeTransferFrom : (token sender recipient : Address) → (amount : Uint256) → X → Exec X
  sendEther : (recipient : Address) → (value : ℕ) → X → Exec X
  deployed : X → Prop
  evolves : X → X → Prop

structure World (X : Type) where
  storage : Storage
  balance : ℕ
  logs : List Event
  outside : X

end Minter
end Illuvitars
