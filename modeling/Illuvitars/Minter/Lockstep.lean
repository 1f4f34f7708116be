import Mathlib.Data.List.Nodup
import Illuvitars.Minter.Fulfilment

/-!
# The Minter and its coordinator in lockstep

Two parties count requests: the consumer in `nonces`, the coordinator in its own nonce. Neither reads the other's count,
and request ids are derived from both. For any interleaving of calls and callbacks the counts agree (`Synced`), so the
ids recorded are the ids issued, each id is new, and a callback finds the request it answers.

* `Effect.synced`, `synced_reachable`: the invariant;
* `nonce_counts`: the nonce counts the successful `paidMint` calls of a run;
* `paidMint_avoids`: the check for a repeated id never fails;
* `lockstep_of_run`: everything together.
-/

namespace Illuvitars
namespace Minter

open Evm

variable {X : Type} {chain : Chain X} {w w' w₀ : World X} {link coordinator : Address}

/-- The id of a paid request that an event announces. -/
def Event.paidId : Event → Option Bytes32
  | .mintRequested _ id => some id
  | _ => none

/-- The ids of the paid requests, in order of creation. -/
def paidIds (logs : List Event) : List Bytes32 := logs.filterMap Event.paidId

theorem paidIds_append (l l' : List Event) : paidIds (l ++ l') = paidIds l ++ paidIds l' := List.filterMap_append

theorem paidIds_admin {evs : List Event} (h : ∀ e ∈ evs, e.Admin) : paidIds evs = [] := by
  rw [paidIds, List.filterMap_eq_nil_iff]
  intro e he
  have := h e he
  cases e <;> simp_all [Event.Admin, Event.paidId]

theorem mem_paidIds {logs : List Event} {id : Bytes32} : id ∈ paidIds logs ↔ .paid id ∈ created logs := by
  simp only [paidIds, created, List.mem_filterMap]
  constructor
  · rintro ⟨e, he, h⟩
    refine ⟨e, he, ?_⟩
    cases e <;> simp_all [Event.paidId, Event.key]
  · rintro ⟨e, he, h⟩
    refine ⟨e, he, ?_⟩
    cases e <;> simp_all [Event.paidId, Event.key]

/-! ## The invariant -/

/-- The consumer's nonce for the key hash of the Minter. -/
def nonceOf (s : Storage) : Uint256 := s.vrf.nonces s.vrfKeyHash

/-- The id of the `i`-th paid request. -/
def idAt (chain : Chain X) (keyHash : Bytes32) (i : ℕ) : Bytes32 :=
  VRFConsumerBase.requestIdAt chain.keccak256 chain.this keyHash (BitVec.ofNat 256 i)

/-- Both parties have counted the same requests, and have derived the same ids from their counts. -/
structure Synced (V : VrfCoordinator chain link coordinator) (w : World X) : Prop where
  LINK : w.storage.vrf.LINK = link
  coordinator : w.storage.vrf.vrfCoordinator = coordinator
  nonces : V.nonces w.outside w.storage.vrfKeyHash = nonceOf w.storage
  issued : V.issued w.outside = paidIds w.logs
  ids : paidIds w.logs = (List.range (nonceOf w.storage).toNat).map (idAt chain w.storage.vrfKeyHash)

theorem synced_deployed (V : VrfCoordinator chain link coordinator) (h : Deployed chain w)
    (hl : w.storage.vrf.LINK = link) (hc : w.storage.vrf.vrfCoordinator = coordinator) : Synced V w := by
  obtain ⟨msg, p, x, hx, hw⟩ := h
  obtain ⟨hs, hlogs, hout⟩ := initializeMinter_ok hw
  obtain ⟨hn, hi⟩ := V.deployed hx
  have hnonce : nonceOf w.storage = 0 := by
    rw [hs]
    rfl
  have hpaid : paidIds w.logs = [] := by
    rw [hlogs]
    rfl
  have hout' : w.outside = x := hout
  refine ⟨hl, hc, ?_, ?_, ?_⟩
  · rw [hnonce, hout', hn]
  · rw [hpaid, hout', hi]
  · rw [hpaid, hnonce]
    rfl

/-- The outside, the nonce and the ids are as before. -/
theorem Synced.same {V : VrfCoordinator chain link coordinator} (h : Synced V w)
    (hvrf : w'.storage.vrf = w.storage.vrf) (hkey : w'.storage.vrfKeyHash = w.storage.vrfKeyHash)
    (hlogs : paidIds w'.logs = paidIds w.logs)
    (hout : V.nonces w'.outside = V.nonces w.outside ∧ V.issued w'.outside = V.issued w.outside) : Synced V w' := by
  have hnonce : nonceOf w'.storage = nonceOf w.storage := by rw [nonceOf, nonceOf, hvrf, hkey]
  refine ⟨?_, ?_, ?_, ?_, ?_⟩
  · rw [hvrf, h.LINK]
  · rw [hvrf, h.coordinator]
  · rw [hnonce, hkey, hout.1, h.nonces]
  · rw [hlogs, hout.2, h.issued]
  · rw [hlogs, hnonce, hkey, h.ids]

/-- A paid request is counted by both parties, with the same id. -/
theorem Synced.paid {V : VrfCoordinator chain link coordinator} (h : Synced V w) {msg : Msg}
    {ps ss fs x₁ x₂} (hc : PaidChecks chain msg ps ss fs w x₁) (hpay : Payments chain x₁ x₂) :
    Synced V (paidWorld chain msg ps ss fs w x₂) := by
  have hreq := hc.request
  rw [h.LINK, h.coordinator] at hreq
  obtain ⟨hcount, hissued⟩ := V.request hreq
  obtain ⟨hn₂, hi₂⟩ := V.payments hpay
  have hnonce : nonceOf (paidWorld chain msg ps ss fs w x₂).storage =
      BitVec.ofNat 256 ((nonceOf w.storage).toNat + 1) := Function.update_self _ _ _
  have hnonceNat : (nonceOf (paidWorld chain msg ps ss fs w x₂).storage).toNat = (nonceOf w.storage).toNat + 1 := by
    have hlt : (nonceOf w.storage).toNat + 1 < 2 ^ 256 := hc.nonce
    rw [hnonce, BitVec.toNat_ofNat, Nat.mod_eq_of_lt hlt]
  have hlogs : paidIds (paidWorld chain msg ps ss fs w x₂).logs =
      paidIds w.logs ++ [nextRequestId chain w.storage] := paidIds_append _ _
  have hid : idAt chain w.storage.vrfKeyHash (nonceOf w.storage).toNat = nextRequestId chain w.storage := by
    rw [idAt, BitVec.ofNat_toNat, BitVec.setWidth_eq]
    rfl
  refine ⟨h.LINK, h.coordinator, ?_, ?_, ?_⟩
  · show V.nonces x₂ w.storage.vrfKeyHash = _
    apply BitVec.eq_of_toNat_eq
    rw [hn₂, hcount, h.nonces, hnonceNat]
  · show V.issued x₂ = _
    rw [hi₂, hissued, h.nonces, h.issued, hlogs]
    rfl
  · show paidIds _ = List.map (idAt chain w.storage.vrfKeyHash) _
    rw [hlogs, hnonceNat, List.range_succ, List.map_append, h.ids, ← hid]
    rfl

/-- Every successful call keeps the parties in sync. -/
theorem Effect.synced {V : VrfCoordinator chain link coordinator} {msg : Msg} {op : Op} (h : Synced V w)
    (he : Effect chain msg w op w') : Synced V w' := by
  cases he with
  | paidMint hc hpay => exact h.paid hc (paySIlv_payments hpay)
  | freeMint =>
    refine h.same rfl rfl ?_ ⟨rfl, rfl⟩
    simp [freeWorld, paidIds, Event.paidId]
  | fulfil =>
    refine h.same rfl rfl ?_ ⟨rfl, rfl⟩
    simp [fulfilledWorld, paidIds, Event.paidId]
  | setPortraitMintInfo => exact h.same rfl rfl rfl ⟨rfl, rfl⟩
  | setAccessoryMintInfo => exact h.same rfl rfl rfl ⟨rfl, rfl⟩
  | admin _ hs hp hl hev =>
    obtain ⟨_, _, _, _, _, hs⟩ := hs
    refine h.same (by rw [hs]) (by rw [hs]) ?_ (V.payments hp)
    rw [hl, paidIds_append, paidIds_admin hev, List.append_nil]

theorem Step.synced {V : VrfCoordinator chain link coordinator} {l : Label} (h : Synced V w)
    (hw : w.storage.initialized = true) (hs : Step chain w l w') : Synced V w' := by
  rcases step_cases hs hw with ⟨_, _, _, _, he⟩ | ⟨hst, hl, hout⟩
  · exact he.synced h
  · refine h.same (by rw [hst]) (by rw [hst]) (by rw [hl]) ?_
    rcases hout with hout | hout
    · rw [hout]
      exact ⟨rfl, rfl⟩
    · exact V.evolves hout

/-- **The parties are in sync after any run.** -/
theorem synced_run (V : VrfCoordinator chain link coordinator) {ls : List Label} (h : Deployed chain w₀)
    (hl : w₀.storage.vrf.LINK = link) (hc : w₀.storage.vrf.vrfCoordinator = coordinator)
    (hrun : Lts.Run (Step chain) w₀ ls w) : Synced V w := by
  have hI := hrun.invariant (P := fun _ => True) (I := fun u => Reachable chain u ∧ Synced V u)
    (fun _ hu hs => ⟨hu.1.snoc hs, hs.synced hu.2 (Reachable.fixed hu.1).1⟩) (fun _ _ => trivial)
    ⟨Lts.Reachable.of_start h, synced_deployed V h hl hc⟩
  exact hI.2

/-! ## Counting the calls of a run -/

/-- The step is a successful `paidMint`. -/
def PaidMintSucceeds (chain : Chain X) (w : World X) (l : Label) : Prop :=
  ∃ msg ps ss fs useSIlv w', l = .call msg (.paidMint ps ss fs useSIlv) ∧
    paidMint chain msg ps ss fs useSIlv w = .ok w'

/-- A successful `paidMint` counts one up. -/
theorem Step.nonce_hit {l : Label} (h : Step chain w l w') (hl : PaidMintSucceeds chain w l) :
    (nonceOf w'.storage).toNat = (nonceOf w.storage).toNat + 1 := by
  obtain ⟨msg, ps, ss, fs, useSIlv, w₁, rfl, hok⟩ := hl
  cases h
  obtain ⟨x₁, x₂, hc, -, rfl⟩ := paidMint_ok_iff.1 hok
  have hw : transact chain msg (.paidMint ps ss fs useSIlv) w = paidWorld chain msg ps ss fs w x₂ := by
    rw [transact, Minter.call, hok]
  have hlt : (nonceOf w.storage).toNat + 1 < 2 ^ 256 := hc.nonce
  rw [hw, show nonceOf (paidWorld chain msg ps ss fs w x₂).storage =
    BitVec.ofNat 256 ((nonceOf w.storage).toNat + 1) from Function.update_self _ _ _, BitVec.toNat_ofNat,
    Nat.mod_eq_of_lt hlt]

/-- No other step changes the count. -/
theorem Step.nonce_miss {l : Label} (h : Step chain w l w') (hw : w.storage.initialized = true)
    (hl : ¬PaidMintSucceeds chain w l) : (nonceOf w'.storage).toNat = (nonceOf w.storage).toNat := by
  rcases step_cases h hw with ⟨msg, op, rfl, hok, he⟩ | ⟨hs, -, -⟩
  · cases he with
    | paidMint => exact absurd ⟨msg, _, _, _, _, _, rfl, hok⟩ hl
    | admin _ hs =>
      obtain ⟨_, _, _, _, _, hs⟩ := hs
      rw [hs]
      rfl
    | _ => rfl
  · rw [hs]

/-- **The nonce is the number of successful `paidMint` calls.** -/
theorem nonce_counts {ls : List Label} {n : ℕ} (h : Deployed chain w₀)
    (hrun : Lts.Counted (Step chain) (PaidMintSucceeds chain) w₀ ls w n) : (nonceOf w.storage).toNat = n := by
  have hcount : (nonceOf w.storage).toNat = (nonceOf w₀.storage).toNat + n := by
    refine Lts.Counted.measure (f := fun u => (nonceOf u.storage).toNat) (I := Reachable chain) ?_ ?_ ?_ hrun
      (Lts.Reachable.of_start h)
    · intro u l u' hu hs
      exact hu.snoc hs
    · intro u l u' _ hs hl
      exact hs.nonce_hit hl
    · intro u l u' hu hs hl
      exact hs.nonce_miss (Reachable.fixed hu).1 hl
  have hzero : (nonceOf w₀.storage).toNat = 0 := by
    obtain ⟨msg, p, x, -, hw⟩ := h
    rw [(initializeMinter_ok hw).1]
    rfl
  rw [hcount, hzero, Nat.zero_add]

/-! ## Every id is new -/

/-- The hashes tell nonces apart. -/
structure InjectiveIds (chain : Chain X) (keyHash : Bytes32) : Prop where
  seed : Function.Injective (VRFConsumerBase.makeVRFInputSeed chain.keccak256 keyHash
    VRFConsumerBase.USER_SEED_PLACEHOLDER chain.this)
  id : Function.Injective (VRFConsumerBase.makeRequestId chain.keccak256 keyHash)

theorem InjectiveIds.idAt_inj {keyHash : Bytes32} (h : InjectiveIds chain keyHash) {i j : ℕ} (hi : i < 2 ^ 256)
    (hj : j < 2 ^ 256) (hij : idAt chain keyHash i = idAt chain keyHash j) : i = j := by
  have := congrArg BitVec.toNat (h.seed (h.id hij))
  rwa [BitVec.toNat_ofNat, BitVec.toNat_ofNat, Nat.mod_eq_of_lt hi, Nat.mod_eq_of_lt hj] at this

section Fresh

variable {V : VrfCoordinator chain link coordinator}

theorem Synced.nodup (h : Synced V w) (hinj : InjectiveIds chain w.storage.vrfKeyHash) :
    (paidIds w.logs).Nodup := by
  rw [h.ids]
  refine List.Nodup.map_on (fun i hi j hj hij => ?_) List.nodup_range
  have hlt := (nonceOf w.storage).isLt
  rw [List.mem_range] at hi hj
  exact hinj.idAt_inj (by omega) (by omega) hij

/-- The id of the next request has not been used. -/
theorem Synced.fresh (h : Synced V w) (hL : Ledger w) (hinj : InjectiveIds chain w.storage.vrfKeyHash) :
    (w.storage.mintRequests (nextRequestId chain w.storage)).requester = 0 := by
  by_contra hne
  have hmem : nextRequestId chain w.storage ∈ paidIds w.logs := mem_paidIds.2 ((hL.recorded (.paid _)).2 hne)
  rw [h.ids, List.mem_map] at hmem
  obtain ⟨i, hi, hid⟩ := hmem
  have hlt := (nonceOf w.storage).isLt
  rw [List.mem_range] at hi
  have hnext : nextRequestId chain w.storage = idAt chain w.storage.vrfKeyHash (nonceOf w.storage).toNat := by
    rw [idAt, BitVec.ofNat_toNat, BitVec.setWidth_eq]
    rfl
  have := hinj.idAt_inj (by omega) hlt (hid.trans hnext)
  omega

end Fresh

/-- The revert of the check for a repeated id. -/
def alreadyRequested : Revert := .error "Already requested"

theorem storeParams_avoids {P : Type} [MintParams P] (price : BoxType → Uint256) (isFree : Bool) (ps : List P)
    (e a : Uint256) (st : List P) : Avoids alreadyRequested (storeParams price isFree ps e a st) := by
  induction ps generalizing e a st with
  | nil => exact .ok _
  | cons p ps ih =>
    apply Avoids.bind (.require (by decide))
    intro _ _
    apply Avoids.bind (.require (by decide))
    intro _ _
    apply Avoids.bind
    · unfold addPrice
      split
      · exact .ok _
      · apply Avoids.bind (.checkedMul (by decide))
        intro _ _
        exact .checkedAdd (by decide)
    · intro e' _
      apply Avoids.bind (.checkedAdd (by decide))
      intro a' _
      exact ih e' a' _

theorem storePortraitRequest_avoids (s : Storage) (t : Uint256) (r : MintRequest) (ps : List PortraitMintParams)
    (isFree : Bool) : Avoids alreadyRequested (storePortraitRequest s t r ps isFree) := by
  apply Avoids.bind (.require (by decide))
  intro _ _
  apply Avoids.bind (storeParams_avoids _ _ _ _ _ _)
  intro _ _
  apply Avoids.bind (.require (by decide))
  intro _ _
  apply Avoids.bind (.checkedMul (by decide))
  intro _ _
  apply Avoids.bind (.checkedAdd (by decide))
  intro _ _
  exact .ok _

theorem storeAccessoryRequest_avoids (s : Storage) (r : MintRequest) (ss : List AccessorySemiRandomMintParams)
    (fs : List AccessoryFullRandomMintParams) (isFree : Bool) :
    Avoids alreadyRequested (storeAccessoryRequest s r ss fs isFree) := by
  apply Avoids.bind (storeParams_avoids _ _ _ _ _ _)
  intro _ _
  apply Avoids.bind (storeParams_avoids _ _ _ _ _ _)
  intro _ _
  apply Avoids.bind (.require (by decide))
  intro _ _
  apply Avoids.bind (.checkedAdd (by decide))
  intro _ _
  exact .ok _

theorem paySIlv_avoids (hcalls : CallsAvoid chain alreadyRequested) (msg : Msg) (s : Storage) (e : Uint256)
    (useSIlv : Bool) (x : X) : Avoids alreadyRequested (paySIlv chain msg s e useSIlv x) := by
  unfold paySIlv
  split
  · split
    · apply Avoids.bind (hcalls.ethToIlv _ _ _)
      intro _ _
      exact hcalls.safeTransferFrom _ _ _ _ _
    · exact .ok _
  · exact .ok _

/-- **If the next id is free, `paidMint` does not fail with a repeated id.** -/
theorem paidMint_avoids (hcalls : CallsAvoid chain alreadyRequested)
    (hfresh : (w.storage.mintRequests (nextRequestId chain w.storage)).requester = 0) (msg : Msg)
    (ps : List PortraitMintParams) (ss : List AccessorySemiRandomMintParams)
    (fs : List AccessoryFullRandomMintParams) (useSIlv : Bool) :
    Avoids alreadyRequested (paidMint chain msg ps ss fs useSIlv w) := by
  apply Avoids.bind
  · apply Avoids.bind (hcalls.transferAndCall _ _ _ _ _)
    intro _ _
    apply Avoids.bind (.checkedAdd (by decide))
    intro _ _
    exact .ok _
  · rintro ⟨vrf, x, id⟩ hr
    obtain ⟨-, hid, -⟩ := (VRFConsumerBase.requestRandomness_ok_iff chain.keccak256).1 hr
    have hfresh' : (w.storage.mintRequests id).requester = 0 := by
      rw [hid]
      exact hfresh
    apply Avoids.bind (.require_pos hfresh')
    intro _ _
    apply Avoids.bind (storePortraitRequest_avoids _ _ _ _ _)
    intro _ _
    apply Avoids.bind (storeAccessoryRequest_avoids _ _ _ _ _)
    intro _ _
    apply Avoids.bind (.checkedAdd (by decide))
    intro _ _
    apply Avoids.bind (paySIlv_avoids hcalls _ _ _ _ _)
    intro _ _
    exact .ok _

/-! ## Lockstep -/

/-- Only a successful `paidMint` announces a paid request, with the id derived from the nonce. -/
theorem Step.paidIds_miss {l : Label} (h : Step chain w l w') (hw : w.storage.initialized = true)
    (hl : ¬PaidMintSucceeds chain w l) : paidIds w'.logs = paidIds w.logs := by
  rcases step_cases h hw with ⟨msg, op, rfl, hok, he⟩ | ⟨-, hlogs, -⟩
  · cases he with
    | paidMint => exact absurd ⟨msg, _, _, _, _, _, rfl, hok⟩ hl
    | freeMint => simp [freeWorld, paidIds, Event.paidId]
    | fulfil => simp [fulfilledWorld, paidIds, Event.paidId]
    | setPortraitMintInfo => rfl
    | setAccessoryMintInfo => rfl
    | admin _ _ _ hlogs hev => rw [hlogs, paidIds_append, paidIds_admin hev, List.append_nil]
  · rw [hlogs]

/-- A callback writes one random number and an event. -/
theorem callback_frame {msg : Msg} {id : Bytes32} {r : Uint256} (h : rawFulfillRandomness msg id r w = .ok w') :
    (∀ k, k ≠ .paid id → w'.storage.request k = w.storage.request k) ∧
      w'.storage.request (.paid id) = { w.storage.request (.paid id) with randomNumber := r } ∧
      w'.storage = { w.storage with mintRequests := w'.storage.mintRequests } ∧
      w'.balance = w.balance ∧ w'.outside = w.outside ∧ w'.logs = w.logs ++ [.requestFulfilled id r] := by
  obtain ⟨-, rfl⟩ := rawFulfillRandomness_ok_iff.1 h
  have hreq := request_updatePaid w.storage id { w.storage.mintRequests id with randomNumber := r }
  refine ⟨fun k hk => ?_, ?_, rfl, rfl, rfl, rfl⟩
  · exact (congrFun hreq k).trans (Function.update_of_ne hk _ _)
  · exact (congrFun hreq (.paid id)).trans (Function.update_self _ _ _)

/-- What holds between the Minter and its coordinator after a run with `n` successful `paidMint` calls. -/
structure Lockstep (V : VrfCoordinator chain link coordinator) (n : ℕ) (w : World X) : Prop where
  nonce : (nonceOf w.storage).toNat = n
  coordinator_nonce : V.nonces w.outside w.storage.vrfKeyHash = nonceOf w.storage
  count : (paidIds w.logs).length = n
  nodup : (paidIds w.logs).Nodup
  recorded : ∀ id, id ∈ paidIds w.logs ↔ Recorded w.storage (.paid id)
  issued : V.issued w.outside = paidIds w.logs
  paid : ∀ msg ps ss fs useSIlv w', paidMint chain msg ps ss fs useSIlv w = .ok w' →
    paidIds w'.logs = paidIds w.logs ++ [nextRequestId chain w.storage]
  unpaid : ∀ l w', Step chain w l w' → ¬PaidMintSucceeds chain w l → paidIds w'.logs = paidIds w.logs
  not_repeated : ∀ msg ps ss fs useSIlv,
    paidMint chain msg ps ss fs useSIlv w ≠ .error (.error "Already requested")
  callback : ∀ msg id r w', rawFulfillRandomness msg id r w = .ok w' →
    (∀ k, k ≠ .paid id → w'.storage.request k = w.storage.request k) ∧
      w'.storage.request (.paid id) = { w.storage.request (.paid id) with randomNumber := r } ∧
      w'.storage = { w.storage with mintRequests := w'.storage.mintRequests } ∧
      w'.balance = w.balance ∧ w'.outside = w.outside ∧ w'.logs = w.logs ++ [.requestFulfilled id r]
  first_callback : ∀ msg id r, id ∈ V.issued w.outside → deliveries id w.logs = [] → msg.sender = coordinator →
    msg.value = 0 → ∃ w', rawFulfillRandomness msg id r w = .ok w'
  never_issued : ∀ msg id r w', id ∉ V.issued w.outside → rawFulfillRandomness msg id r w ≠ .ok w'

/-- **The Minter and its coordinator stay in lockstep**, for every interleaving of calls and callbacks. -/
theorem lockstep_of_run (V : VrfCoordinator chain link coordinator) {ls : List Label} {n : ℕ}
    (h : Deployed chain w₀) (hl : w₀.storage.vrf.LINK = link) (hc : w₀.storage.vrf.vrfCoordinator = coordinator)
    (hinj : ∀ keyHash, InjectiveIds chain keyHash) (hcalls : CallsAvoid chain (.error "Already requested"))
    (hrun : Lts.Counted (Step chain) (PaidMintSucceeds chain) w₀ ls w n) : Lockstep V n w := by
  have hreach : Reachable chain w := Lts.Reachable.run (Lts.Reachable.of_start h) hrun.run
  have hledger := ledger_reachable hreach
  have hsync : Synced V w := synced_run V h hl hc hrun.run
  have hnonce := nonce_counts h hrun
  have hrec : ∀ id, id ∈ paidIds w.logs ↔ Recorded w.storage (.paid id) := fun id =>
    mem_paidIds.trans (hledger.recorded (.paid id))
  refine
    { nonce := hnonce
      coordinator_nonce := hsync.nonces
      count := by rw [hsync.ids, List.length_map, List.length_range, hnonce]
      nodup := hsync.nodup (hinj _)
      recorded := hrec
      issued := hsync.issued
      paid := ?_
      unpaid := fun l w' hs hmiss => hs.paidIds_miss (Reachable.fixed hreach).1 hmiss
      not_repeated := fun msg ps ss fs useSIlv =>
        paidMint_avoids hcalls (hsync.fresh hledger (hinj _)) msg ps ss fs useSIlv
      callback := fun _ _ _ _ hok => callback_frame hok
      first_callback := ?_
      never_issued := ?_ }
  · intro msg ps ss fs useSIlv w' hok
    obtain ⟨x₁, x₂, -, -, rfl⟩ := paidMint_ok_iff.1 hok
    exact paidIds_append _ _
  · intro msg id r hid hnil hsender hvalue
    rw [hsync.issued] at hid
    exact ⟨_, rawFulfillRandomness_ok_iff.2 ⟨⟨hvalue, by rw [hsender, hsync.coordinator], (hrec id).1 hid,
      undelivered_zero hreach hnil⟩, rfl⟩⟩
  · intro msg id r w' hid hok
    rw [hsync.issued] at hid
    exact hid ((hrec id).2 (rawFulfillRandomness_ok_iff.1 hok).1.exist)

/-- Two requests, answered in the other order, with a free request and a forged callback in between. -/
theorem lockstep_two_requests :
    Lockstep Deployment.vrf 2 (transactions Deployment.chain
      (Deployment.opening ++
        [(Deployment.user 3, .paidMint [⟨.bronze, 1⟩] [] [] false),
         (Deployment.user 0, .freeMint [⟨.virtual, 1⟩] [] []),
         (Deployment.user 5, .paidMint [] [] [⟨.bronze, 1⟩] false),
         (Deployment.user 0, .rawFulfillRandomness 0 99),
         (Deployment.coordinator, .rawFulfillRandomness 1 77),
         (Deployment.coordinator, .rawFulfillRandomness 0 55)]) Deployment.genesis) := by
  obtain ⟨n, hn⟩ := (run_transactions Deployment.chain (Deployment.opening ++
    [(Deployment.user 3, .paidMint [⟨.bronze, 1⟩] [] [] false),
     (Deployment.user 0, .freeMint [⟨.virtual, 1⟩] [] []),
     (Deployment.user 5, .paidMint [] [] [⟨.bronze, 1⟩] false),
     (Deployment.user 0, .rawFulfillRandomness 0 99),
     (Deployment.coordinator, .rawFulfillRandomness 1 77),
     (Deployment.coordinator, .rawFulfillRandomness 0 55)]) Deployment.genesis).counted
    (PaidMintSucceeds Deployment.chain)
  have h := lockstep_of_run Deployment.vrf Deployment.genesis_deployed rfl rfl
    (fun _ => ⟨fun _ _ h => h, fun _ _ h => h⟩) (Outside.callsAvoid _) hn
  have hn2 : n = 2 := h.nonce.symm.trans (by decide)
  rw [← hn2]
  exact h

end Minter
end Illuvitars
