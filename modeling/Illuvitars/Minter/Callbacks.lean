import Illuvitars.Lib.Callbacks
import Illuvitars.Minter.Effects

/-!
# The Minter called back

The Minter hands over to other contracts: to the LINK token and the coordinator behind it, to the sILV token, and to the
treasury that receives its ether. In `Calls` they do not call the Minter. Here they may call it, in the middle of its
own call, and do anything else, before they return or revert.

* `Place`: where `paidMint` and `withdraw` hand over; the other functions do not;
* `call`: the calls with callees, for each place;
* `call_accept`: with callees that accept at once, they are the calls of `Calls`.
-/

namespace Illuvitars
namespace Minter
namespace Reentrant

open Evm Callbacks

variable {X : Type}

/-! ## Calls with callees -/

/-- The places where the Minter hands over. -/
inductive Place
  | link
  | sIlvPayment
  | treasury
  | sIlvPayout
deriving DecidableEq, Repr

/-- A call of the Minter, or something else that a callee or another account does. -/
inductive Act (X : Type)
  | call (msg : Msg) (op : Op)
  | outside (x : X) (gain : ℕ)

section Calls

variable (chain : Chain X) (callees : Place → World X → Exec (World X))

/-- `requestRandomness` after the LINK payment. -/
def finishRequest (keyHash : Bytes32) (s : VRFConsumerBase.Storage) : Exec (VRFConsumerBase.Storage × Bytes32) := do
  let vRFSeed := VRFConsumerBase.makeVRFInputSeed chain.keccak256 keyHash VRFConsumerBase.USER_SEED_PLACEHOLDER
    chain.this (s.nonces keyHash)
  let nonce ← checkedAdd (s.nonces keyHash) 1
  pure ({ s with nonces := Function.update s.nonces keyHash nonce },
    VRFConsumerBase.makeRequestId chain.keccak256 keyHash vRFSeed)

/-- `paidMint` between the two payments: the storage, the price, and the id. -/
def recordRequest (msg : Msg) (keyHash : Bytes32) (portraitMintParams : List PortraitMintParams)
    (accessorySemiRandomMintParams : List AccessorySemiRandomMintParams)
    (accessoryFullRandomMintParams : List AccessoryFullRandomMintParams) (s : Storage) :
    Exec (Storage × Uint256 × Bytes32) := do
  let (vrf, requestId) ← finishRequest chain keyHash s.vrf
  let s := { s with vrf }
  require ((s.mintRequests requestId).requester = 0) "Already requested"
  let mintRequest := { s.mintRequests requestId with requester := msg.sender }
  let (s, mintRequest, portraitsPrice) ← storePortraitRequest s msg.timestamp mintRequest portraitMintParams false
  let (s, mintRequest, accessoriesPrice) ← storeAccessoryRequest s mintRequest accessorySemiRandomMintParams
    accessoryFullRandomMintParams false
  let etherPrice ← checkedAdd portraitsPrice accessoriesPrice
  pure ({ s with mintRequests := Function.update s.mintRequests requestId mintRequest }, etherPrice, requestId)

/-- The sILV payment. The price is read, and does not call back. -/
def paySIlv (msg : Msg) (etherPrice : Uint256) (useSIlv : Bool) (w : World X) : Exec (World X) :=
  if etherPrice ≠ 0 then
    if useSIlv then do
      let tokenAmount ← chain.ethToIlv w.storage.illuvitarsPriceOracle w.outside etherPrice
      let outside ← chain.safeTransferFrom w.storage.sIlv msg.sender chain.this tokenAmount w.outside
      callees .sIlvPayment { w with outside }
    else .ok w
  else .ok w

def paidMint (msg : Msg) (portraitMintParams : List PortraitMintParams)
    (accessorySemiRandomMintParams : List AccessorySemiRandomMintParams)
    (accessoryFullRandomMintParams : List AccessoryFullRandomMintParams) (useSIlv : Bool) (w : World X) :
    Exec (World X) := do
  -- the key hash is read before the payment, and the nonce after it
  let keyHash := w.storage.vrfKeyHash
  let outside ← chain.transferAndCall w.storage.vrf.LINK w.storage.vrf.vrfCoordinator w.storage.vrfFee
    [keyHash, VRFConsumerBase.USER_SEED_PLACEHOLDER] w.outside
  let w ← callees .link { w with balance := w.balance + msg.value.toNat, outside }
  let (storage, etherPrice, requestId) ← recordRequest chain msg keyHash portraitMintParams
    accessorySemiRandomMintParams accessoryFullRandomMintParams w.storage
  let w ← paySIlv chain callees msg etherPrice useSIlv { w with storage }
  pure { w with logs := w.logs ++ [.mintRequested msg.sender requestId] }

/-- The first half of `withdraw`. -/
def withdrawEther (w : World X) : Exec (World X) :=
  if w.balance ≠ 0 then
    match chain.sendEther w.storage.treasury w.balance w.outside >>= fun outside =>
      callees .treasury { w with balance := 0, outside } with
    | .ok w => .ok w
    | .error _ => .error (.error "Ether withdraw failed")
  else .ok w

/-- The second half, with the treasury that there is then. -/
def withdrawSIlv (w : World X) : Exec (World X) :=
  if chain.balanceOf w.storage.sIlv w.outside chain.this ≠ 0 then do
    let outside ← chain.safeTransfer w.storage.sIlv w.storage.treasury
      (chain.balanceOf w.storage.sIlv w.outside chain.this) w.outside
    callees .sIlvPayout { w with outside }
  else .ok w

def withdraw (msg : Msg) (w : World X) : Exec (World X) := do
  nonPayable msg
  onlyOwner msg w.storage
  let w ← withdrawEther chain callees w
  withdrawSIlv chain callees w

/-- The other functions call nobody. -/
def call : Contract Place (World X) (Act X)
  | .call msg (.paidMint ps ss fs useSIlv), callees => paidMint chain callees msg ps ss fs useSIlv
  | .call msg .withdraw, callees => withdraw chain callees msg
  | .call msg op, _ => Minter.call chain msg op
  | .outside outside gain, _ => fun w => .ok { w with outside, balance := w.balance + gain }

end Calls

variable {chain : Chain X} {callees : Place → World X → Exec (World X)} {msg : Msg} {op : Op} {w w' : World X}

/-! ## Callees that accept at once -/

theorem requestRandomness_eq (keyHash : Bytes32) (fee : Uint256) (s : VRFConsumerBase.Storage) (x : X) :
    VRFConsumerBase.requestRandomness chain.keccak256 chain.this chain.transferAndCall keyHash fee s x =
      chain.transferAndCall s.LINK s.vrfCoordinator fee [keyHash, VRFConsumerBase.USER_SEED_PLACEHOLDER] x >>= fun x =>
        finishRequest chain keyHash s >>= fun y => .ok (y.1, x, y.2) := by
  unfold VRFConsumerBase.requestRandomness finishRequest
  congr 1
  funext x'
  cases checkedAdd (s.nonces keyHash) 1 with
  | error e => rfl
  | ok n => rfl

theorem paySIlv_accept (e : Uint256) (b : Bool) (w : World X) :
    paySIlv chain (fun _ => .ok) msg e b w =
      Minter.paySIlv chain msg w.storage e b w.outside >>= fun outside => .ok { w with outside } := by
  unfold paySIlv Minter.paySIlv
  split
  · split
    · rw [bind_assoc]
    · rfl
  · rfl

/-- A purchase with such callees, -/
theorem paidMint_accept (ps : List PortraitMintParams) (ss : List AccessorySemiRandomMintParams)
    (fs : List AccessoryFullRandomMintParams) (useSIlv : Bool) :
    paidMint chain (fun _ => .ok) msg ps ss fs useSIlv w = Minter.paidMint chain msg ps ss fs useSIlv w := by
  simp only [paidMint, Minter.paidMint, requestRandomness_eq, recordRequest, paySIlv_accept, bind_assoc, ok_bind,
    pure_eq_ok]
  refine bind_congr fun x => bind_congr fun vrf => bind_congr fun _ => bind_congr fun portraits =>
    bind_congr fun accessories => bind_congr fun etherPrice => ?_
  -- what is left differs in the records, which the payment does not read
  rfl

/-- and a withdrawal. -/
theorem withdraw_accept : withdraw chain (fun _ => .ok) msg w = Minter.withdraw chain msg w := by
  simp only [withdraw, Minter.withdraw]
  refine bind_congr fun _ => bind_congr fun _ => ?_
  have hether : withdrawEther chain (fun _ => .ok) w =
      Minter.withdrawEther chain w >>= fun outside => .ok { w with balance := 0, outside } := by
    unfold withdrawEther Minter.withdrawEther
    split
    · cases chain.sendEther w.storage.treasury w.balance w.outside with
      | error e => rfl
      | ok x => rfl
    · rename_i hzero
      rw [not_not] at hzero
      rw [ok_bind, ← hzero]
  rw [hether, bind_assoc]
  refine bind_congr fun x => ?_
  rw [ok_bind]
  unfold withdrawSIlv Minter.withdrawSIlv
  split
  · rfl
  · rfl

/-- **Callees that accept at once leave the calls as they are.** -/
theorem call_accept : call chain (.call msg op) (fun _ => .ok) w = Minter.call chain msg op w := by
  cases op with
  | paidMint ps ss fs useSIlv => exact paidMint_accept ps ss fs useSIlv
  | withdraw => exact withdraw_accept
  | _ => rfl

end Reentrant
end Minter
end Illuvitars
