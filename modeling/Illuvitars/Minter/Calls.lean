import Illuvitars.Minter.Requests
import Illuvitars.Minter.Tables

/-!
# The external functions of the Minter

Each function takes the caller's message and the world and returns the world after the call, or reverts.
-/

namespace Illuvitars
namespace Minter

open Evm

variable {X : Type} (chain : Chain X)

/-- A function that is not `payable` rejects ether. -/
def nonPayable (msg : Msg) : Exec Unit := if msg.value = 0 then .ok () else .error .empty

@[simp] theorem nonPayable_ok_iff {msg : Msg} {u : Unit} : nonPayable msg = .ok u ↔ msg.value = 0 := by
  unfold nonPayable
  split <;> simp_all

def onlyOwner (msg : Msg) (s : Storage) : Exec Unit :=
  require (s.owner = msg.sender) "Ownable: caller is not the owner"

/-! ## Minting -/

/-- The sILV payment of `paidMint`. -/
def paySIlv (msg : Msg) (s : Storage) (etherPrice : Uint256) (useSIlv : Bool) (x : X) : Exec X :=
  if etherPrice ≠ 0 then
    if useSIlv then do
      let tokenAmount ← chain.ethToIlv s.illuvitarsPriceOracle x etherPrice
      chain.safeTransferFrom s.sIlv msg.sender chain.this tokenAmount x
    else .ok x
  else .ok x

def paidMint (msg : Msg) (portraitMintParams : List PortraitMintParams)
    (accessorySemiRandomMintParams : List AccessorySemiRandomMintParams)
    (accessoryFullRandomMintParams : List AccessoryFullRandomMintParams) (useSIlv : Bool) (w : World X) :
    Exec (World X) := do
  let s := w.storage
  let (vrf, x, requestId) ← VRFConsumerBase.requestRandomness chain.keccak256 chain.this chain.transferAndCall
    s.vrfKeyHash s.vrfFee s.vrf w.outside
  let s := { s with vrf }
  require ((s.mintRequests requestId).requester = 0) "Already requested"
  let mintRequest := { s.mintRequests requestId with requester := msg.sender }
  let (s, mintRequest, portraitsPrice) ← storePortraitRequest s msg.timestamp mintRequest portraitMintParams false
  let (s, mintRequest, accessoriesPrice) ← storeAccessoryRequest s mintRequest accessorySemiRandomMintParams
    accessoryFullRandomMintParams false
  let etherPrice ← checkedAdd portraitsPrice accessoriesPrice
  let x ← paySIlv chain msg s etherPrice useSIlv x
  pure {
    storage := { s with mintRequests := Function.update s.mintRequests requestId mintRequest }
    balance := w.balance + msg.value.toNat
    logs := w.logs ++ [.mintRequested msg.sender requestId]
    outside := x }

def freeMint (msg : Msg) (portraitMintParams : List PortraitMintParams)
    (accessorySemiRandomMintParams : List AccessorySemiRandomMintParams)
    (accessoryFullRandomMintParams : List AccessoryFullRandomMintParams) (w : World X) : Exec (World X) := do
  nonPayable msg
  let s := w.storage
  let idx := s.freeRequestCount
  let mintRequest := { s.freeRequests idx with requester := msg.sender }
  let (s, mintRequest, _) ← storePortraitRequest s msg.timestamp mintRequest portraitMintParams true
  let (s, mintRequest, _) ← storeAccessoryRequest s mintRequest accessorySemiRandomMintParams
    accessoryFullRandomMintParams true
  let freeRequestCount ← checkedAdd s.freeRequestCount 1
  -- the seed is hashed from the counter after its increment
  let mintRequest := { mintRequest with randomNumber := chain.keccak256 [freeRequestCount, msg.timestamp] }
  pure { w with
    storage := { s with freeRequests := Function.update s.freeRequests idx mintRequest, freeRequestCount }
    logs := w.logs ++ [.freeMintRequested msg.sender idx] }

def fulfillRandomness (requestId : Bytes32) (randomNumber : Uint256) (w : World X) : Exec (World X) := do
  let mintRequest := w.storage.mintRequests requestId
  require (mintRequest.requester ≠ 0) "No request exist"
  require (mintRequest.randomNumber = 0) "Random number already fulfilled"
  pure { w with
    storage := { w.storage with
      mintRequests := Function.update w.storage.mintRequests requestId { mintRequest with randomNumber } }
    logs := w.logs ++ [.requestFulfilled requestId randomNumber] }

def rawFulfillRandomness (msg : Msg) (requestId : Bytes32) (randomness : Uint256) (w : World X) : Exec (World X) := do
  nonPayable msg
  require (msg.sender = w.storage.vrf.vrfCoordinator) "Only VRFCoordinator can fulfill"
  fulfillRandomness requestId randomness w

/-! ## The owner's functions -/

def setPortraitSaleWindow (msg : Msg) (saleWindow : SaleWindow) (w : World X) : Exec (World X) := do
  nonPayable msg
  onlyOwner msg w.storage
  require (saleWindow.start.toNat < saleWindow.endTime.toNat) "Invalid sale window"
  pure { w with storage := { w.storage with portraitSaleWindow := saleWindow } }

def setFreeMintLimitPerTx (msg : Msg) (freePortraitLimitPerTx freeAccessoryLimitPerTx : Uint256) (w : World X) :
    Exec (World X) := do
  nonPayable msg
  onlyOwner msg w.storage
  pure { w with storage := { w.storage with freePortraitLimitPerTx, freeAccessoryLimitPerTx } }

def setTreasury (msg : Msg) (treasury : Address) (w : World X) : Exec (World X) := do
  nonPayable msg
  onlyOwner msg w.storage
  require (treasury ≠ 0) "Treasury address cannot zero"
  pure { w with storage := { w.storage with treasury }, logs := w.logs ++ [.treasurySet treasury] }

/-- The first half of `withdraw`. -/
def withdrawEther (w : World X) : Exec X :=
  if w.balance ≠ 0 then
    match chain.sendEther w.storage.treasury w.balance w.outside with
    | .ok x => .ok x
    | .error _ => .error (.error "Ether withdraw failed")
  else .ok w.outside

/-- The second half of `withdraw`. -/
def withdrawSIlv (s : Storage) (x : X) : Exec X :=
  if chain.balanceOf s.sIlv x chain.this ≠ 0 then
    chain.safeTransfer s.sIlv s.treasury (chain.balanceOf s.sIlv x chain.this) x
  else .ok x

def withdraw (msg : Msg) (w : World X) : Exec (World X) := do
  nonPayable msg
  onlyOwner msg w.storage
  let x ← withdrawEther chain w
  let x ← withdrawSIlv chain w.storage x
  pure { w with balance := 0, outside := x }

/-- The loop of `_validateTierChances` over neighbouring entries. -/
def checkAscending : List Uint16 → Exec Unit
  | a :: b :: chances => do
    require (a.toNat ≤ b.toNat) "Invalid tier chance"
    checkAscending (b :: chances)
  | _ => .ok ()

def validateTierChances (tierChances : Vector Uint16 TIER_CHANCE_LEN) : Exec Unit := do
  checkAscending tierChances.toList
  require (tierChances[TIER_CHANCE_LEN - 1].toNat ≤ MAX_CHANCE.toNat) "Invalid tier chance"

/-- The tables that the setters accept: ascending, and at most `MAX_CHANCE`. -/
def ValidTierChances (t : Vector Uint16 TIER_CHANCE_LEN) : Prop :=
  t.toList.IsChain (fun a b => a.toNat ≤ b.toNat) ∧ t[TIER_CHANCE_LEN - 1].toNat ≤ MAX_CHANCE.toNat

theorem checkAscending_ok_iff {l : List Uint16} {u : Unit} :
    checkAscending l = .ok u ↔ l.IsChain (fun a b => a.toNat ≤ b.toNat) := by
  induction l with
  | nil => simp [checkAscending]
  | cons a l ih =>
    cases l with
    | nil => simp [checkAscending]
    | cons b l =>
      rw [checkAscending, bind_ok_iff]
      simp only [require_ok_iff, exists_const, ih, List.isChain_cons_cons]

theorem validateTierChances_ok_iff {t : Vector Uint16 TIER_CHANCE_LEN} {u : Unit} :
    validateTierChances t = .ok u ↔ ValidTierChances t := by
  simp only [validateTierChances, bind_ok_iff, checkAscending_ok_iff, require_ok_iff, exists_const, ValidTierChances]

def setPortraitMintInfo (msg : Msg) (boxType : BoxType) (mintInfo : PortraitMintInfo) (w : World X) :
    Exec (World X) := do
  nonPayable msg
  onlyOwner msg w.storage
  require (boxType ≠ .virtual) "Cannot set virtual info"
  validateTierChances mintInfo.tierChances
  pure { w with storage := { w.storage with
    portraitMintInfo := Function.update w.storage.portraitMintInfo boxType mintInfo } }

def setAccessoryMintInfo (msg : Msg) (boxType : BoxType) (mintInfo : AccessoryMintInfo) (w : World X) :
    Exec (World X) := do
  nonPayable msg
  onlyOwner msg w.storage
  require (boxType ≠ .virtual) "Cannot set virtual info"
  validateTierChances mintInfo.tierChances
  pure { w with storage := { w.storage with
    accessoryMintInfo := Function.update w.storage.accessoryMintInfo boxType mintInfo } }

/-- `_transferOwnership` of the inherited ownership contract. -/
def setOwner (newOwner : Address) (w : World X) : World X :=
  { w with
    storage := { w.storage with owner := newOwner }
    logs := w.logs ++ [.ownershipTransferred w.storage.owner newOwner] }

def transferOwnership (msg : Msg) (newOwner : Address) (w : World X) : Exec (World X) := do
  nonPayable msg
  onlyOwner msg w.storage
  require (newOwner ≠ 0) "Ownable: new owner is the zero address"
  pure (setOwner newOwner w)

def renounceOwnership (msg : Msg) (w : World X) : Exec (World X) := do
  nonPayable msg
  onlyOwner msg w.storage
  pure (setOwner 0 w)

/-! ## The initialiser -/

structure InitParams where
  vrfCoordinator : Address
  linkToken : Address
  vrfKeyhash : Bytes32
  vrfFee : Uint256
  treasury : Address
  sIlv : Address
  illuvitarsPriceOracle : Address

/-- The storage of the proxy before it is initialised. -/
def Storage.zero : Storage where
  initialized := false
  owner := 0
  vrf := ⟨0, 0, fun _ => 0⟩
  portraitMintInfo := fun _ => ⟨0, Vector.replicate TIER_CHANCE_LEN 0, 0⟩
  accessoryMintInfo := fun _ => ⟨0, 0, Vector.replicate TIER_CHANCE_LEN 0⟩
  tables := Tables.zero
  mintRequests := fun _ => .zero
  freeRequests := fun _ => .zero
  freeRequestCount := 0
  portraitSaleWindow := ⟨0, 0⟩
  sIlv := 0
  treasury := 0
  illuvitarsPriceOracle := 0
  vrfKeyHash := 0
  vrfFee := 0
  nextPortraitTokenId := 0
  nextAccessoryTokenId := 0
  freePortraitLimitPerTx := 0
  freeAccessoryLimitPerTx := 0

/-- `initialize`, with the nested initialisers of the base contracts. -/
def initializeMinter (msg : Msg) (p : InitParams) (w : World X) : Exec (World X) := do
  nonPayable msg
  require (w.storage.initialized = false) "Initializable: contract is already initialized"
  require (p.treasury ≠ 0 ∧ p.illuvitarsPriceOracle ≠ 0 ∧ p.sIlv ≠ 0) "cannot zero address"
  pure { w with
    storage := { w.storage with
      initialized := true
      owner := msg.sender
      vrf := { w.storage.vrf with vrfCoordinator := p.vrfCoordinator, LINK := p.linkToken }
      vrfKeyHash := p.vrfKeyhash
      vrfFee := p.vrfFee
      sIlv := p.sIlv
      treasury := p.treasury
      illuvitarsPriceOracle := p.illuvitarsPriceOracle
      nextPortraitTokenId := 1
      nextAccessoryTokenId := 1
      tables := initialTables }
    logs := w.logs ++ [.ownershipTransferred w.storage.owner msg.sender] }

end Minter
end Illuvitars
