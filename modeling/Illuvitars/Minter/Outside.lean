import Illuvitars.Lib.Tokens
import Illuvitars.Minter.Effects

/-!
# What the Minter relies on outside of it

The contract is verified against an arbitrary outside. Two groups of assumptions about it are used where they are
needed: `TokenLaws`, for the tokens and the price oracle, and `VrfCoordinator`, for the coordinator behind the LINK
token. `Outside.chain` is an outside that has both (`Outside.tokenLaws`, `Outside.vrfCoordinator`), with token balances
and with a coordinator that counts the requests of the Minter.
-/

namespace Illuvitars
namespace Minter

open Evm

section Laws

variable {X : Type}

/-- The sILV token moves what a transfer says; a LINK payment neither touches it nor changes the price. -/
structure TokenLaws (chain : Chain X) (sIlv link : Address) : Prop where
  transferFrom : ∀ {sender recipient amount x x'}, chain.safeTransferFrom sIlv sender recipient amount x = .ok x' →
    Erc20.Moves (chain.balanceOf sIlv x) (chain.balanceOf sIlv x') sender recipient amount
  link_balances : ∀ {recipient value data x x'}, chain.transferAndCall link recipient value data x = .ok x' →
    chain.balanceOf sIlv x' = chain.balanceOf sIlv x
  link_price : ∀ {recipient value data x x'}, chain.transferAndCall link recipient value data x = .ok x' →
    ∀ oracle ethOut, chain.ethToIlv oracle x' ethOut = chain.ethToIlv oracle x ethOut

/-- A VRF coordinator behind the LINK token: it counts the requests of the Minter for each key hash, and issues the id
of each request from its own count. Nothing but a LINK payment of the Minter makes a request for it. -/
structure VrfCoordinator (chain : Chain X) (link coordinator : Address) where
  nonces : X → Bytes32 → Uint256
  issued : X → List Bytes32
  deployed : ∀ {x}, chain.deployed x → (∀ keyHash, nonces x keyHash = 0) ∧ issued x = []
  request : ∀ {fee keyHash seed x x'}, chain.transferAndCall link coordinator fee [keyHash, seed] x = .ok x' →
    (nonces x' keyHash).toNat = (nonces x keyHash).toNat + 1 ∧
    issued x' = issued x ++ [VRFConsumerBase.makeRequestId chain.keccak256 keyHash
      (VRFConsumerBase.makeVRFInputSeed chain.keccak256 keyHash seed chain.this (nonces x keyHash))]
  payment : ∀ {x x'}, Payment chain x x' → nonces x' = nonces x ∧ issued x' = issued x
  evolves : ∀ {x x'}, chain.evolves x x' → nonces x' = nonces x ∧ issued x' = issued x

theorem VrfCoordinator.payments {chain : Chain X} {link coordinator : Address}
    (V : VrfCoordinator chain link coordinator) {x x' : X} (h : Payments chain x x') :
    V.nonces x' = V.nonces x ∧ V.issued x' = V.issued x := by
  induction h with
  | refl => exact ⟨rfl, rfl⟩
  | tail _ h ih =>
    obtain ⟨h1, h2⟩ := V.payment h
    exact ⟨h1.trans ih.1, h2.trans ih.2⟩

/-- No call out of `paidMint` reverts with `e`. -/
structure CallsAvoid (chain : Chain X) (e : Revert) : Prop where
  transferAndCall : ∀ link recipient value data x, Avoids e (chain.transferAndCall link recipient value data x)
  ethToIlv : ∀ oracle x ethOut, Avoids e (chain.ethToIlv oracle x ethOut)
  safeTransferFrom : ∀ token sender recipient amount x,
    Avoids e (chain.safeTransferFrom token sender recipient amount x)

end Laws

/-! ## An outside with balances and a coordinator -/

/-- Balances of every token, the coordinator's counts for the Minter, and the ids it has issued to it. -/
structure Outside where
  balances : Address → Address → Uint256
  nonces : Bytes32 → Uint256
  issued : List Bytes32

namespace Outside

/-- A token transfer. -/
def move (x : Outside) (token sender recipient : Address) (amount : Uint256) : Exec Outside := do
  let balances ← Erc20.transfer (x.balances token) sender recipient amount
  pure { x with balances := Function.update x.balances token balances }

/-- The coordinator's side of a request. -/
def randomnessRequest (keccak256 : Keccak) (this : Address) (keyHash : Bytes32) (seed : Uint256) (x : Outside) :
    Exec Outside := do
  let vRFSeed := VRFConsumerBase.makeVRFInputSeed keccak256 keyHash seed this (x.nonces keyHash)
  let nonce ← checkedAdd (x.nonces keyHash) 1
  pure { x with
    nonces := Function.update x.nonces keyHash nonce
    issued := x.issued ++ [VRFConsumerBase.makeRequestId keccak256 keyHash vRFSeed] }

/-- LINK's `transferAndCall`: a transfer, then the call of a coordinator. -/
def transferAndCall (keccak256 : Keccak) (this link recipient : Address) (value : Uint256) (data : List Uint256)
    (x : Outside) : Exec Outside := do
  let x ← x.move link this recipient value
  match data with
  | [keyHash, seed] => x.randomnessRequest keccak256 this keyHash seed
  | _ => .error .empty

/-- The outside of a Minter at `this`, with a constant price. -/
def chain (this : Address) (keccak256 : Keccak) (price : Uint256) : Chain Outside where
  this := this
  keccak256 := keccak256
  transferAndCall := transferAndCall keccak256 this
  ethToIlv _ _ ethOut := checkedMul ethOut price
  balanceOf token x account := x.balances token account
  safeTransfer token recipient amount x := x.move token this recipient amount
  safeTransferFrom token sender recipient amount x := x.move token sender recipient amount
  sendEther _ _ x := .ok x
  deployed x := x.nonces = (fun _ => 0) ∧ x.issued = []
  evolves x x' := x'.nonces = x.nonces ∧ x'.issued = x.issued

variable {this : Address} {keccak256 : Keccak} {price : Uint256}

/-- A transfer changes the balances of its token only, by what it moves. -/
theorem move_ok {x x' : Outside} {token sender recipient : Address} {amount : Uint256}
    (h : x.move token sender recipient amount = .ok x') :
    Erc20.Moves (x.balances token) (x'.balances token) sender recipient amount ∧
      (∀ token' ≠ token, x'.balances token' = x.balances token') ∧ x'.nonces = x.nonces ∧ x'.issued = x.issued := by
  obtain ⟨b, hb, h⟩ := bind_ok_iff.1 h
  cases h
  refine ⟨?_, fun token' ht => ?_, rfl, rfl⟩
  · simp only [Function.update_self]
    exact Erc20.transfer_moves hb
  · simp only [Function.update_of_ne ht]

/-- A LINK payment changes no balance of another token. -/
theorem transferAndCall_balances {link recipient : Address} {value : Uint256} {data : List Uint256} {x x' : Outside}
    (h : transferAndCall keccak256 this link recipient value data x = .ok x') {token : Address} (ht : token ≠ link) :
    x'.balances token = x.balances token := by
  obtain ⟨x₁, hm, h⟩ := bind_ok_iff.1 h
  obtain ⟨-, hb, -, -⟩ := move_ok hm
  split at h
  · obtain ⟨n, -, h⟩ := bind_ok_iff.1 h
    cases h
    exact hb token ht
  · cases h

/-- A LINK payment with the data of a request makes the request. -/
theorem transferAndCall_request {link recipient : Address} {value keyHash seed : Uint256} {x x' : Outside}
    (h : transferAndCall keccak256 this link recipient value [keyHash, seed] x = .ok x') :
    (x'.nonces keyHash).toNat = (x.nonces keyHash).toNat + 1 ∧
      x'.issued = x.issued ++ [VRFConsumerBase.makeRequestId keccak256 keyHash
        (VRFConsumerBase.makeVRFInputSeed keccak256 keyHash seed this (x.nonces keyHash))] := by
  obtain ⟨x₁, hm, h⟩ := bind_ok_iff.1 h
  obtain ⟨-, -, hn, hi⟩ := move_ok hm
  obtain ⟨n, hnonce, h⟩ := bind_ok_iff.1 h
  rw [checkedAdd_ok_iff] at hnonce
  cases h
  refine ⟨?_, ?_⟩
  · show (Function.update x₁.nonces keyHash n keyHash).toNat = (x.nonces keyHash).toNat + 1
    rw [Function.update_self, hnonce, hn]
    rfl
  · simp only [hi, hn]

/-- The outside has the laws of the tokens, for any sILV token that is not LINK. -/
theorem tokenLaws {sIlv link : Address} (h : sIlv ≠ link) : TokenLaws (chain this keccak256 price) sIlv link where
  transferFrom hx := (move_ok hx).1
  link_balances hx := transferAndCall_balances hx h
  link_price _ _ _ := rfl

/-- The outside has a coordinator. -/
def vrfCoordinator (link coordinator : Address) : VrfCoordinator (chain this keccak256 price) link coordinator where
  nonces := Outside.nonces
  issued := Outside.issued
  deployed hx := ⟨fun k => congrFun hx.1 k, hx.2⟩
  request hx := transferAndCall_request hx
  payment hx := by
    cases hx with
    | sendEther h => cases h; exact ⟨rfl, rfl⟩
    | safeTransfer h => exact (move_ok h).2.2
    | safeTransferFrom h => exact (move_ok h).2.2
  evolves hx := hx

theorem move_avoids {e : Revert} (he : e ≠ .panic 0x11) (x : Outside) (token sender recipient : Address)
    (amount : Uint256) : Avoids e (x.move token sender recipient amount) := by
  refine Avoids.bind ?_ (fun _ _ => .ok _)
  exact Avoids.bind (.checkedSub he) (fun _ _ => Avoids.bind (.checkedAdd he) (fun _ _ => .ok _))

/-- The outside reverts without a reason. -/
theorem callsAvoid (reason : String) : CallsAvoid (chain this keccak256 price) (.error reason) where
  transferAndCall link recipient value data x := by
    refine Avoids.bind (move_avoids (by simp) _ _ _ _ _) (fun x₁ _ => ?_)
    split
    · exact Avoids.bind (.checkedAdd (by simp)) (fun _ _ => .ok _)
    · intro h
      cases h
  ethToIlv _ _ _ := .checkedMul (by simp)
  safeTransferFrom _ _ _ _ x := move_avoids (by simp) x _ _ _ _

end Outside

/-! ## Transactions in sequence -/

/-- The world after a list of transactions. -/
def transactions {X : Type} (chain : Chain X) : List (Msg × Op) → World X → World X
  | [], w => w
  | (msg, op) :: ts, w => transactions chain ts (transact chain msg op w)

/-- A list of transactions is a run. -/
theorem run_transactions {X : Type} (chain : Chain X) : ∀ (ts : List (Msg × Op)) (w : World X),
    Lts.Run (Step chain) w (ts.map fun t => .call t.1 t.2) (transactions chain ts w)
  | [], w => .nil w
  | (msg, op) :: ts, w => .cons (Step.call msg op w) (run_transactions chain ts (transact chain msg op w))

theorem reachable_transactions {X : Type} {chain : Chain X} (ts : List (Msg × Op)) {w : World X}
    (h : Reachable chain w) : Reachable chain (transactions chain ts w) :=
  Lts.Reachable.run h (run_transactions chain ts w)

/-! ## A deployment -/

namespace Deployment

/-- A hash that keeps the last word, so that the words hashed last are told apart. -/
def lastWord : Keccak := fun words => words.getLastD 0

abbrev chain : Chain Outside := Outside.chain 0x10 lastWord 2

def owner : Msg := ⟨1, 0, 100, by decide⟩

def user (value : Uint256) : Msg := ⟨2, value, 100, by decide⟩

def coordinator : Msg := ⟨0x20, 0, 100, by decide⟩

def params : InitParams where
  vrfCoordinator := 0x20
  linkToken := 0x30
  vrfKeyhash := 7
  vrfFee := 1
  treasury := 0x50
  sIlv := 0x40
  illuvitarsPriceOracle := 0x60

/-- Every account holds 1000 of every token. -/
def start : Outside := ⟨fun _ _ => 1000, fun _ => 0, []⟩

def genesis : World Outside := transact chain owner (.initializeMinter params) ⟨Storage.zero, 0, [], start⟩

theorem genesis_deployed : Deployed chain genesis := ⟨owner, params, start, ⟨rfl, rfl⟩, rfl⟩

def vrf : VrfCoordinator chain 0x30 0x20 := Outside.vrfCoordinator 0x30 0x20

/-- The owner opens the sale and sets the prices of bronze boxes. -/
def opening : List (Msg × Op) :=
  [(owner, .setPortraitSaleWindow ⟨1, 1000⟩),
   (owner, .setFreeMintLimitPerTx 10 10),
   (owner, .setPortraitMintInfo .bronze ⟨3, #v[4000, 6000, 8000, 9000], 100⟩),
   (owner, .setAccessoryMintInfo .bronze ⟨5, 7, #v[4000, 6000, 8000, 9000]⟩)]

def sale : World Outside := transactions chain opening genesis

theorem sale_reachable : Reachable chain sale := reachable_transactions _ (Lts.Reachable.of_start genesis_deployed)

end Deployment

end Minter
end Illuvitars
