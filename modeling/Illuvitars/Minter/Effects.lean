import Illuvitars.Minter.Calls
import Illuvitars.Lib.Runs

/-!
# What a call can do

* `paidMint_ok_iff`, `freeMint_ok_iff`: when the minting functions succeed, and the world they leave;
* `Effect`: everything a successful call can do, by the kind of call; `call_effect` reads it off the functions;
* `Step`: one step of the system, a call that succeeds or reverts, or a change of the outside (`step_cases`);
* `Reachable`: the worlds reached from a successful `initialize`.

The proofs about runs use `Effect` and `step_cases` and never unfold a function of the contract.
-/

namespace Illuvitars
namespace Minter

open Evm

variable {X : Type} {chain : Chain X}

/-! ## Minting -/

section Minting

variable (chain) (msg : Msg) (ps : List PortraitMintParams) (ss : List AccessorySemiRandomMintParams)
  (fs : List AccessoryFullRandomMintParams) (w : World X)

/-- The sum of the stored unit prices over all requested units. -/
def etherPrice (s : Storage) : ℕ :=
  cost (portraitPrice s) ps + cost (semiRandomPrice s) ss + cost (randomPrice s) fs

/-- The record that a request leaves in its slot. -/
def recordFor (slot : MintRequest) (s : Storage) : MintRequest :=
  (({ slot with requester := msg.sender } : MintRequest).withPortraits s ps).withAccessories s ss fs

/-- The token counters after a request. -/
def advance (s : Storage) : Storage :=
  { s with
    nextPortraitTokenId := BitVec.ofNat 256 (s.nextPortraitTokenId.toNat + 6 * total ps)
    nextAccessoryTokenId := BitVec.ofNat 256 (s.nextAccessoryTokenId.toNat + (total ss + total fs)) }

/-- The id of the next paid request. -/
def nextRequestId (s : Storage) : Bytes32 :=
  VRFConsumerBase.requestIdAt chain.keccak256 chain.this s.vrfKeyHash (s.vrf.nonces s.vrfKeyHash)

/-- The checks of `paidMint` before the payment; the LINK payment leaves the outside in state `x`. -/
structure PaidChecks (x : X) : Prop where
  request : chain.transferAndCall w.storage.vrf.LINK w.storage.vrf.vrfCoordinator w.storage.vrfFee
    [w.storage.vrfKeyHash, VRFConsumerBase.USER_SEED_PLACEHOLDER] w.outside = .ok x
  nonce : (w.storage.vrf.nonces w.storage.vrfKeyHash).toNat + 1 < 2 ^ 256
  fresh : (w.storage.mintRequests (nextRequestId chain w.storage)).requester = 0
  portraits : PortraitChecks w.storage msg.timestamp false ps
  accessories : AccessoryChecks w.storage false ss fs
  price : etherPrice ps ss fs w.storage < 2 ^ 256

/-- The world after a `paidMint` whose payment leaves the outside in state `x`. -/
def paidWorld (x : X) : World X where
  storage := { advance ps ss fs w.storage with
    vrf := { w.storage.vrf with
      nonces := Function.update w.storage.vrf.nonces w.storage.vrfKeyHash
        (BitVec.ofNat 256 ((w.storage.vrf.nonces w.storage.vrfKeyHash).toNat + 1)) }
    mintRequests := Function.update w.storage.mintRequests (nextRequestId chain w.storage)
      (recordFor msg ps ss fs (w.storage.mintRequests (nextRequestId chain w.storage)) w.storage) }
  balance := w.balance + msg.value.toNat
  logs := w.logs ++ [.mintRequested msg.sender (nextRequestId chain w.storage)]
  outside := x

/-- The world after a `freeMint`. -/
def freeWorld : World X where
  storage := { advance ps ss fs w.storage with
    freeRequests := Function.update w.storage.freeRequests w.storage.freeRequestCount
      { recordFor msg ps ss fs (w.storage.freeRequests w.storage.freeRequestCount) w.storage with
        randomNumber := chain.keccak256 [BitVec.ofNat 256 (w.storage.freeRequestCount.toNat + 1), msg.timestamp] }
    freeRequestCount := BitVec.ofNat 256 (w.storage.freeRequestCount.toNat + 1) }
  balance := w.balance
  logs := w.logs ++ [.freeMintRequested msg.sender w.storage.freeRequestCount]
  outside := w.outside

variable {chain msg ps ss fs w} {useSIlv : Bool} {w' : World X}

theorem priceOf_false {P : Type} [MintParams P] (price : BoxType → Uint256) (l : List P) :
    priceOf price false l = cost price l := rfl

/-- **When `paidMint` succeeds, and what it leaves.** -/
theorem paidMint_ok_iff :
    paidMint chain msg ps ss fs useSIlv w = .ok w' ↔
      ∃ x₁ x₂, PaidChecks chain msg ps ss fs w x₁ ∧
        paySIlv chain msg w.storage (BitVec.ofNat 256 (etherPrice ps ss fs w.storage)) useSIlv x₁ = .ok x₂ ∧
        w' = paidWorld chain msg ps ss fs w x₂ := by
  simp only [paidMint, bind_ok_iff, require_ok_iff, exists_const, Prod.exists, pure_eq_ok, Except.ok.injEq,
    VRFConsumerBase.requestRandomness_ok_iff, storePortraitRequest_ok_iff, storeAccessoryRequest_ok_iff,
    checkedAdd_ok_iff, accessoryPrice, priceOf_false]
  constructor
  · rintro ⟨vrf, x₁, id, ⟨hx, rfl, n, hn, rfl⟩, hfresh, s₁, r₁, e₁, ⟨hp, he₁, rfl, rfl⟩, s₂, r₂, e₂,
      ⟨ha, he₂, rfl, rfl⟩, e, he, x₂, hpay, rfl⟩
    have hsum : e.toNat = etherPrice ps ss fs w.storage := by
      rw [he, he₁, he₂]; exact (Nat.add_assoc _ _ _).symm
    refine ⟨x₁, x₂, ⟨hx, hn ▸ n.isLt, hfresh, ⟨hp.window, hp.params, hp.limit, hp.ids⟩,
      ⟨ha.semi, ha.full, ha.limit, ha.ids⟩, hsum ▸ e.isLt⟩, ?_, ?_⟩
    · rw [← (toNat_eq_iff.1 hsum).2]; exact hpay
    · rw [(toNat_eq_iff.1 hn).2]; rfl
  · rintro ⟨x₁, x₂, h, hpay, rfl⟩
    have hprice := h.price
    unfold etherPrice at hprice
    obtain ⟨e₁, he₁⟩ := exists_toNat_eq.2 (show cost (portraitPrice w.storage) ps < 2 ^ 256 by omega)
    obtain ⟨e₂, he₂⟩ := exists_toNat_eq.2
      (show cost (semiRandomPrice w.storage) ss + cost (randomPrice w.storage) fs < 2 ^ 256 by omega)
    refine ⟨_, x₁, _, ⟨h.request, rfl, BitVec.ofNat 256 _, ?_, rfl⟩, h.fresh, _, _, e₁,
      ⟨⟨h.portraits.window, h.portraits.params, h.portraits.limit, h.portraits.ids⟩, he₁, rfl, rfl⟩, _, _, e₂,
      ⟨⟨h.accessories.semi, h.accessories.full, h.accessories.limit, h.accessories.ids⟩, he₂, rfl, rfl⟩,
      BitVec.ofNat 256 (etherPrice ps ss fs w.storage), ?_, x₂, hpay, rfl⟩
    · rw [BitVec.toNat_ofNat, Nat.mod_eq_of_lt h.nonce]
    · rw [BitVec.toNat_ofNat, Nat.mod_eq_of_lt h.price, he₁, he₂]; exact Nat.add_assoc _ _ _

/-- **When `freeMint` succeeds, and what it leaves.** -/
theorem freeMint_ok_iff :
    freeMint chain msg ps ss fs w = .ok w' ↔
      msg.value = 0 ∧ PortraitChecks w.storage msg.timestamp true ps ∧ AccessoryChecks w.storage true ss fs ∧
        w.storage.freeRequestCount.toNat + 1 < 2 ^ 256 ∧ w' = freeWorld chain msg ps ss fs w := by
  simp only [freeMint, bind_ok_iff, nonPayable_ok_iff, exists_const, Prod.exists, pure_eq_ok, Except.ok.injEq,
    storePortraitRequest_ok_iff, storeAccessoryRequest_ok_iff, checkedAdd_ok_iff]
  constructor
  · rintro ⟨hv, s₁, r₁, e₁, ⟨hp, -, rfl, rfl⟩, s₂, r₂, e₂, ⟨ha, -, rfl, rfl⟩, n, hn, rfl⟩
    refine ⟨hv, hp, ⟨ha.semi, ha.full, ha.limit, ha.ids⟩, hn ▸ n.isLt, ?_⟩
    rw [(toNat_eq_iff.1 hn).2]; rfl
  · rintro ⟨hv, hp, ha, hn, rfl⟩
    -- the prices of a free request are zero
    refine ⟨hv, _, _, 0, ⟨hp, rfl, rfl, rfl⟩, _, _, 0,
      ⟨⟨ha.semi, ha.full, ha.limit, ha.ids⟩, rfl, rfl, rfl⟩, BitVec.ofNat 256 _, ?_, rfl⟩
    rw [BitVec.toNat_ofNat, Nat.mod_eq_of_lt hn]; rfl

end Minting

/-! ## Fulfilment -/

/-- The world after the callback has stored `r` in the record of `id`. -/
def fulfilledWorld (id : Bytes32) (r : Uint256) (w : World X) : World X :=
  { w with
    storage := { w.storage with
      mintRequests := Function.update w.storage.mintRequests id { w.storage.mintRequests id with randomNumber := r } }
    logs := w.logs ++ [.requestFulfilled id r] }

/-- The checks of `rawFulfillRandomness`. -/
structure FulfilChecks (msg : Msg) (id : Bytes32) (w : World X) : Prop where
  value : msg.value = 0
  coordinator : msg.sender = w.storage.vrf.vrfCoordinator
  exist : (w.storage.mintRequests id).requester ≠ 0
  unfulfilled : (w.storage.mintRequests id).randomNumber = 0

/-- **When the callback succeeds, and what it leaves.** -/
theorem rawFulfillRandomness_ok_iff {msg : Msg} {id : Bytes32} {r : Uint256} {w w' : World X} :
    rawFulfillRandomness msg id r w = .ok w' ↔ FulfilChecks msg id w ∧ w' = fulfilledWorld id r w := by
  simp only [rawFulfillRandomness, fulfillRandomness, bind_ok_iff, nonPayable_ok_iff, require_ok_iff, exists_const,
    pure_eq_ok, Except.ok.injEq]
  constructor
  · rintro ⟨hv, hc, he, hu, rfl⟩; exact ⟨⟨hv, hc, he, hu⟩, rfl⟩
  · rintro ⟨h, rfl⟩; exact ⟨h.value, h.coordinator, h.exist, h.unfulfilled, rfl⟩

/-! ## The operations -/

/-- The external functions that change state. Upgrades of the implementation are excluded. -/
inductive Op
  | paidMint (portraitMintParams : List PortraitMintParams)
      (accessorySemiRandomMintParams : List AccessorySemiRandomMintParams)
      (accessoryFullRandomMintParams : List AccessoryFullRandomMintParams) (useSIlv : Bool)
  | freeMint (portraitMintParams : List PortraitMintParams)
      (accessorySemiRandomMintParams : List AccessorySemiRandomMintParams)
      (accessoryFullRandomMintParams : List AccessoryFullRandomMintParams)
  | rawFulfillRandomness (requestId : Bytes32) (randomness : Uint256)
  | setPortraitSaleWindow (saleWindow : SaleWindow)
  | setFreeMintLimitPerTx (freePortraitLimitPerTx freeAccessoryLimitPerTx : Uint256)
  | setTreasury (treasury : Address)
  | withdraw
  | setPortraitMintInfo (boxType : BoxType) (mintInfo : PortraitMintInfo)
  | setAccessoryMintInfo (boxType : BoxType) (mintInfo : AccessoryMintInfo)
  | transferOwnership (newOwner : Address)
  | renounceOwnership
  | initializeMinter (params : InitParams)

/-- One external call. -/
def call (chain : Chain X) (msg : Msg) : Op → World X → Exec (World X)
  | .paidMint ps ss fs useSIlv => paidMint chain msg ps ss fs useSIlv
  | .freeMint ps ss fs => freeMint chain msg ps ss fs
  | .rawFulfillRandomness id r => rawFulfillRandomness msg id r
  | .setPortraitSaleWindow saleWindow => setPortraitSaleWindow msg saleWindow
  | .setFreeMintLimitPerTx p a => setFreeMintLimitPerTx msg p a
  | .setTreasury t => setTreasury msg t
  | .withdraw => withdraw chain msg
  | .setPortraitMintInfo b info => setPortraitMintInfo msg b info
  | .setAccessoryMintInfo b info => setAccessoryMintInfo msg b info
  | .transferOwnership o => transferOwnership msg o
  | .renounceOwnership => renounceOwnership msg
  | .initializeMinter p => initializeMinter msg p

/-- One transaction: a call that reverts changes nothing. -/
def transact (chain : Chain X) (msg : Msg) (op : Op) (w : World X) : World X :=
  match call chain msg op w with
  | .ok w' => w'
  | .error _ => w

/-! ## What a successful call can do -/

/-- One payment out of the contract or to it. -/
inductive Payment (chain : Chain X) : X → X → Prop
  | sendEther {x x' : X} {a : Address} {v : ℕ} : chain.sendEther a v x = .ok x' → Payment chain x x'
  | safeTransfer {x x' : X} {t a : Address} {v : Uint256} : chain.safeTransfer t a v x = .ok x' → Payment chain x x'
  | safeTransferFrom {x x' : X} {t a b : Address} {v : Uint256} :
      chain.safeTransferFrom t a b v x = .ok x' → Payment chain x x'

/-- The outside after some payments. -/
abbrev Payments (chain : Chain X) : X → X → Prop := Relation.ReflTransGen (Payment chain)

theorem paySIlv_payments {msg : Msg} {s : Storage} {e : Uint256} {b : Bool} {x x' : X}
    (h : paySIlv chain msg s e b x = .ok x') : Payments chain x x' := by
  unfold paySIlv at h
  split at h
  · split at h
    · obtain ⟨amount, -, h⟩ := bind_ok_iff.1 h
      exact .single (.safeTransferFrom h)
    · cases h; exact .refl
  · cases h; exact .refl

/-- Storage that differs only in what the administrative functions set. -/
def SameCore (s s' : Storage) : Prop :=
  ∃ owner portraitSaleWindow treasury freePortraitLimitPerTx freeAccessoryLimitPerTx,
    s' = { s with owner, portraitSaleWindow, treasury, freePortraitLimitPerTx, freeAccessoryLimitPerTx }

/-- Events that no request and no callback emits. -/
def Event.Admin : Event → Prop
  | .treasurySet _ | .ownershipTransferred _ _ => True
  | _ => False

/-- The administrative functions. -/
def Op.Admin : Op → Prop
  | .setPortraitSaleWindow _ | .setFreeMintLimitPerTx _ _ | .setTreasury _ | .withdraw | .transferOwnership _
  | .renounceOwnership => True
  | _ => False

/-- **Everything that a successful call can do.** -/
inductive Effect (chain : Chain X) (msg : Msg) (w : World X) : Op → World X → Prop
  | paidMint {ps ss fs useSIlv x₁ x₂} : PaidChecks chain msg ps ss fs w x₁ →
      paySIlv chain msg w.storage (BitVec.ofNat 256 (etherPrice ps ss fs w.storage)) useSIlv x₁ = .ok x₂ →
      Effect chain msg w (.paidMint ps ss fs useSIlv) (paidWorld chain msg ps ss fs w x₂)
  | freeMint {ps ss fs} : PortraitChecks w.storage msg.timestamp true ps → AccessoryChecks w.storage true ss fs →
      w.storage.freeRequestCount.toNat + 1 < 2 ^ 256 →
      Effect chain msg w (.freeMint ps ss fs) (freeWorld chain msg ps ss fs w)
  | fulfil {id r} : FulfilChecks msg id w →
      Effect chain msg w (.rawFulfillRandomness id r) (fulfilledWorld id r w)
  | setPortraitMintInfo {b info} : b ≠ .virtual → ValidTierChances info.tierChances →
      Effect chain msg w (.setPortraitMintInfo b info) { w with
        storage := { w.storage with portraitMintInfo := Function.update w.storage.portraitMintInfo b info } }
  | setAccessoryMintInfo {b info} : b ≠ .virtual → ValidTierChances info.tierChances →
      Effect chain msg w (.setAccessoryMintInfo b info) { w with
        storage := { w.storage with accessoryMintInfo := Function.update w.storage.accessoryMintInfo b info } }
  | admin {op} {w' : World X} {evs : List Event} : op.Admin → SameCore w.storage w'.storage →
      Payments chain w.outside w'.outside → w'.logs = w.logs ++ evs → (∀ e ∈ evs, e.Admin) → Effect chain msg w op w'

/-- An administrative function that emits nothing. -/
theorem Effect.quiet {msg : Msg} {op : Op} {w w' : World X} (ho : op.Admin) (hs : SameCore w.storage w'.storage)
    (hp : Payments chain w.outside w'.outside) (hl : w'.logs = w.logs) : Effect chain msg w op w' :=
  @Effect.admin X chain msg w op w' [] ho hs hp (by rw [hl, List.append_nil]) (fun e he => by cases he)

theorem onlyOwner_ok_iff {msg : Msg} {s : Storage} {u : Unit} : onlyOwner msg s = .ok u ↔ s.owner = msg.sender :=
  require_ok_iff

theorem withdrawEther_payments {w : World X} {x : X} (h : withdrawEther chain w = .ok x) :
    Payments chain w.outside x := by
  unfold withdrawEther at h
  split at h
  · split at h
    · rename_i hx
      cases h
      exact .single (.sendEther hx)
    · cases h
  · cases h; exact .refl

theorem withdrawSIlv_payments {s : Storage} {x x' : X} (h : withdrawSIlv chain s x = .ok x') :
    Payments chain x x' := by
  unfold withdrawSIlv at h
  split at h
  · exact .single (.safeTransfer h)
  · cases h; exact .refl

/-- **A successful call has its effect.** -/
theorem call_effect {msg : Msg} {op : Op} {w w' : World X} (h : call chain msg op w = .ok w')
    (hw : w.storage.initialized = true) : Effect chain msg w op w' := by
  cases op with
  | paidMint ps ss fs useSIlv =>
    obtain ⟨x₁, x₂, hc, hpay, rfl⟩ := paidMint_ok_iff.1 h
    exact .paidMint hc hpay
  | freeMint ps ss fs =>
    obtain ⟨-, hp, ha, hn, rfl⟩ := freeMint_ok_iff.1 h
    exact .freeMint hp ha hn
  | rawFulfillRandomness id r =>
    obtain ⟨hc, rfl⟩ := rawFulfillRandomness_ok_iff.1 h
    exact .fulfil hc
  | setPortraitMintInfo b info =>
    simp only [call, setPortraitMintInfo, bind_ok_iff, nonPayable_ok_iff, onlyOwner_ok_iff, validateTierChances_ok_iff,
      require_ok_iff, exists_const, pure_eq_ok, Except.ok.injEq] at h
    obtain ⟨-, -, hb, hv, rfl⟩ := h
    exact .setPortraitMintInfo hb hv
  | setAccessoryMintInfo b info =>
    simp only [call, setAccessoryMintInfo, bind_ok_iff, nonPayable_ok_iff, onlyOwner_ok_iff, validateTierChances_ok_iff,
      require_ok_iff, exists_const, pure_eq_ok, Except.ok.injEq] at h
    obtain ⟨-, -, hb, hv, rfl⟩ := h
    exact .setAccessoryMintInfo hb hv
  | setPortraitSaleWindow saleWindow =>
    simp only [call, setPortraitSaleWindow, bind_ok_iff, pure_eq_ok, Except.ok.injEq] at h
    obtain ⟨-, -, -, -, -, -, rfl⟩ := h
    exact .quiet trivial ⟨_, _, _, _, _, rfl⟩ .refl rfl
  | setFreeMintLimitPerTx p a =>
    simp only [call, setFreeMintLimitPerTx, bind_ok_iff, pure_eq_ok, Except.ok.injEq] at h
    obtain ⟨-, -, -, -, rfl⟩ := h
    exact .quiet trivial ⟨_, _, _, _, _, rfl⟩ .refl rfl
  | setTreasury t =>
    simp only [call, setTreasury, bind_ok_iff, pure_eq_ok, Except.ok.injEq] at h
    obtain ⟨-, -, -, -, -, -, rfl⟩ := h
    exact .admin trivial ⟨_, _, _, _, _, rfl⟩ .refl rfl (by simp [Event.Admin])
  | withdraw =>
    simp only [call, withdraw, bind_ok_iff, pure_eq_ok, Except.ok.injEq] at h
    obtain ⟨-, -, -, -, x₁, h₁, x₂, h₂, rfl⟩ := h
    exact .quiet trivial ⟨_, _, _, _, _, rfl⟩ ((withdrawEther_payments h₁).trans (withdrawSIlv_payments h₂)) rfl
  | transferOwnership o =>
    simp only [call, transferOwnership, bind_ok_iff, pure_eq_ok, Except.ok.injEq] at h
    obtain ⟨-, -, -, -, -, -, rfl⟩ := h
    exact .admin trivial ⟨_, _, _, _, _, rfl⟩ .refl rfl (by simp [Event.Admin])
  | renounceOwnership =>
    simp only [call, renounceOwnership, bind_ok_iff, pure_eq_ok, Except.ok.injEq] at h
    obtain ⟨-, -, -, -, rfl⟩ := h
    exact .admin trivial ⟨_, _, _, _, _, rfl⟩ .refl rfl (by simp [Event.Admin])
  | initializeMinter p =>
    -- the initialiser runs only once
    simp only [call, initializeMinter, bind_ok_iff, require_ok_iff, exists_const] at h
    obtain ⟨-, -, hi, -⟩ := h
    rw [hw] at hi; cases hi

/-! ## Steps and reachable worlds -/

inductive Label
  | call (msg : Msg) (op : Op)
  | outside

/-- One step: a transaction with the Minter, or transactions of others, which leave its storage alone and may only raise
its ether balance. -/
inductive Step (chain : Chain X) : World X → Label → World X → Prop
  | call (msg : Msg) (op : Op) (w : World X) : Step chain w (.call msg op) (transact chain msg op w)
  | outside {w : World X} {x : X} {balance : ℕ} : chain.evolves w.outside x → w.balance ≤ balance →
      Step chain w .outside { w with outside := x, balance }

/-- A call that succeeds is a step to its outcome. -/
theorem step_of_call {msg : Msg} {op : Op} {w w' : World X} (h : call chain msg op w = .ok w') :
    Step chain w (.call msg op) w' := by
  have hstep : Step chain w (.call msg op) (transact chain msg op w) := .call msg op w
  rwa [transact, h] at hstep

/-- The Minter has just been deployed and initialised. -/
def Deployed (chain : Chain X) (w : World X) : Prop :=
  ∃ msg params x, chain.deployed x ∧ initializeMinter msg params ⟨Storage.zero, 0, [], x⟩ = .ok w

abbrev Reachable (chain : Chain X) : World X → Prop := Lts.Reachable (Deployed chain) (Step chain)

/-- **A step is a successful call with its effect, or leaves storage and events alone.** -/
theorem step_cases {w w' : World X} {l : Label} (h : Step chain w l w') (hw : w.storage.initialized = true) :
    (∃ msg op, l = .call msg op ∧ call chain msg op w = .ok w' ∧ Effect chain msg w op w') ∨
      (w'.storage = w.storage ∧ w'.logs = w.logs ∧ (w'.outside = w.outside ∨ chain.evolves w.outside w'.outside)) := by
  cases h with
  | call msg op =>
    unfold transact
    cases hc : call chain msg op w with
    | ok w' => exact .inl ⟨msg, op, rfl, hc, call_effect hc hw⟩
    | error e => exact .inr ⟨rfl, rfl, .inl rfl⟩
  | outside he _ => exact .inr ⟨rfl, rfl, .inr he⟩

/-- What the initialiser leaves. -/
theorem initializeMinter_ok {msg : Msg} {p : InitParams} {w w' : World X} (h : initializeMinter msg p w = .ok w') :
    w'.storage = { w.storage with
      initialized := true
      owner := msg.sender
      vrf := { w.storage.vrf with vrfCoordinator := p.vrfCoordinator, LINK := p.linkToken }
      vrfKeyHash := p.vrfKeyhash
      vrfFee := p.vrfFee
      sIlv := p.sIlv
      treasury := p.treasury
      illuvitarsPriceOracle := p.illuvitarsPriceOracle
      nextPortraitTokenId := 1
      nextAccessoryTokenId := 1
      tables := initialTables } ∧ w'.logs = w.logs ++ [.ownershipTransferred w.storage.owner msg.sender] ∧
      w'.outside = w.outside := by
  simp only [initializeMinter, bind_ok_iff, pure_eq_ok, Except.ok.injEq] at h
  obtain ⟨-, -, -, -, -, -, rfl⟩ := h
  exact ⟨rfl, rfl, rfl⟩

/-- A successful call keeps the contract initialised and its generator tables as they are. -/
theorem Effect.fixed {msg : Msg} {op : Op} {w w' : World X} (h : Effect chain msg w op w') :
    w'.storage.initialized = w.storage.initialized ∧ w'.storage.tables = w.storage.tables ∧
      w'.storage.vrfKeyHash = w.storage.vrfKeyHash ∧ w'.storage.sIlv = w.storage.sIlv ∧
      w'.storage.illuvitarsPriceOracle = w.storage.illuvitarsPriceOracle ∧
      w'.storage.vrf.vrfCoordinator = w.storage.vrf.vrfCoordinator ∧ w'.storage.vrf.LINK = w.storage.vrf.LINK := by
  cases h with
  | admin _ hs =>
    obtain ⟨_, _, _, _, _, hs⟩ := hs
    rw [hs]; exact ⟨rfl, rfl, rfl, rfl, rfl, rfl, rfl⟩
  | _ => exact ⟨rfl, rfl, rfl, rfl, rfl, rfl, rfl⟩

/-- In a reachable world the contract is initialised, with the initialiser's tables. -/
theorem Reachable.fixed {w : World X} (h : Reachable chain w) :
    w.storage.initialized = true ∧ w.storage.tables = initialTables := by
  refine Lts.Reachable.invariant (I := fun w => w.storage.initialized = true ∧ w.storage.tables = initialTables)
    ?_ ?_ h
  · rintro w ⟨msg, p, x, -, hw⟩
    rw [(initializeMinter_ok hw).1]; exact ⟨rfl, rfl⟩
  · intro w l w' _ hI hs
    rcases step_cases hs hI.1 with ⟨_, _, _, _, he⟩ | ⟨hs, -⟩
    · rw [he.fixed.1, he.fixed.2.1]; exact hI
    · rw [hs]; exact hI

end Minter
end Illuvitars
