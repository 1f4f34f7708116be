import Mathlib.Data.List.Dedup
import Illuvitars.Minter.Finality
import Illuvitars.Minter.Lockstep
import Illuvitars.Minter.Readable

/-!
# Open requests can be settled

In every reachable world the coordinator can answer all open requests, in any order and with any seeds.

* `run_settled`: a list of callbacks succeeds, and what it leaves depends on the set of its ids only;
* `exists_pending`: finitely many requests are open;
* `requests_settle`: after all answers, in whatever order, every request can be read, and the result of each is the one
  of its own seed.
-/

namespace Illuvitars
namespace Minter

open Evm

variable {X : Type} {chain : Chain X} {msg : Msg} {w : World X} {seed : Bytes32 → Uint256} {id : Bytes32}
  {ids order : List Bytes32} {k : RequestKey}

/-- A paid request without a seed. -/
def Pending (s : Storage) (id : Bytes32) : Prop :=
  (s.mintRequests id).requester ≠ 0 ∧ (s.mintRequests id).randomNumber = 0

instance (s : Storage) (id : Bytes32) : Decidable (Pending s id) := inferInstanceAs (Decidable (_ ∧ _))

/-- The answer to a request. -/
def callback (msg : Msg) (seed : Bytes32 → Uint256) (id : Bytes32) : Label :=
  .call msg (.rawFulfillRandomness id (seed id))

/-- The storage after the answers to some requests. -/
def settled (seed : Bytes32 → Uint256) (ids : List Bytes32) (s : Storage) : Storage :=
  { s with mintRequests := fun id =>
      if id ∈ ids then { s.mintRequests id with randomNumber := seed id } else s.mintRequests id }

def settledWorld (seed : Bytes32 → Uint256) (ids : List Bytes32) (w : World X) : World X :=
  { w with
    storage := settled seed ids w.storage
    logs := w.logs ++ ids.map fun id => .requestFulfilled id (seed id) }

/-! ## Callbacks -/

theorem callback_step (hv : msg.value = 0) (hs : msg.sender = w.storage.vrf.vrfCoordinator)
    (h : Pending w.storage id) : Step chain w (callback msg seed id) (fulfilledWorld id (seed id) w) := by
  have hok : call chain msg (.rawFulfillRandomness id (seed id)) w = .ok (fulfilledWorld id (seed id) w) :=
    rawFulfillRandomness_ok_iff.2 ⟨⟨hv, hs, h.1, h.2⟩, rfl⟩
  exact step_of_call hok

/-- An answer leaves the other requests open. -/
theorem pending_fulfilledWorld {id' : Bytes32} {r : Uint256} (hne : id' ≠ id) (h : Pending w.storage id') :
    Pending (fulfilledWorld id r w).storage id' := by
  unfold Pending fulfilledWorld
  dsimp only
  rw [Function.update_of_ne hne]
  exact h

theorem settledWorld_nil : settledWorld seed [] w = w := by
  simp [settledWorld, settled]

/-- One answer and then the others. -/
theorem settledWorld_cons (hid : id ∉ ids) :
    settledWorld seed ids (fulfilledWorld id (seed id) w) = settledWorld seed (id :: ids) w := by
  have hrequests : (settledWorld seed ids (fulfilledWorld id (seed id) w)).storage.mintRequests =
      (settledWorld seed (id :: ids) w).storage.mintRequests := by
    funext id'
    simp only [settledWorld, settled, fulfilledWorld, List.mem_cons]
    by_cases hself : id' = id
    · subst hself
      rw [if_neg hid, if_pos (.inl rfl), Function.update_self]
    · rw [Function.update_of_ne hself]
      simp [hself]
  have hlogs : (settledWorld seed ids (fulfilledWorld id (seed id) w)).logs =
      (settledWorld seed (id :: ids) w).logs := by
    simp [settledWorld, fulfilledWorld]
  show ({ w with
    storage := { w.storage with
      mintRequests := (settledWorld seed ids (fulfilledWorld id (seed id) w)).storage.mintRequests }
    logs := (settledWorld seed ids (fulfilledWorld id (seed id) w)).logs } : World X) = _
  rw [hrequests, hlogs]
  rfl

/-- **The coordinator can answer open requests one after the other.** -/
theorem run_settled (hv : msg.value = 0) (hs : msg.sender = w.storage.vrf.vrfCoordinator) (hnodup : ids.Nodup)
    (hids : ∀ id ∈ ids, Pending w.storage id) :
    Lts.Run (Step chain) w (ids.map (callback msg seed)) (settledWorld seed ids w) := by
  induction ids generalizing w with
  | nil =>
    rw [settledWorld_nil]
    exact .nil w
  | cons id ids ih =>
    obtain ⟨hid, hnodup⟩ := List.nodup_cons.1 hnodup
    refine .cons (callback_step hv hs (hids id List.mem_cons_self)) ?_
    rw [← settledWorld_cons hid]
    refine ih hs hnodup ?_
    intro id' hid'
    exact pending_fulfilledWorld (fun he => hid (he ▸ hid')) (hids id' (List.mem_cons_of_mem _ hid'))

/-- The order of the answers does not matter. -/
theorem settled_perm (h : order.Perm ids) (s : Storage) : settled seed order s = settled seed ids s := by
  simp only [settled, h.mem_iff]

/-! ## The open requests -/

/-- Finitely many requests are open. -/
theorem exists_pending (h : Reachable chain w) :
    ∃ ids : List Bytes32, ids.Nodup ∧ ∀ id, id ∈ ids ↔ Pending w.storage id := by
  refine ⟨((paidIds w.logs).filter fun id => Pending w.storage id).dedup, List.nodup_dedup _, fun id => ?_⟩
  rw [List.mem_dedup, List.mem_filter, mem_paidIds, (ledger_reachable h).recorded, decide_eq_true_iff]
  exact and_iff_right_of_imp fun hp => hp.1

/-! ## Results -/

/-- The result of a record is the same wherever its tables are. -/
theorem mintResult_congr {keccak256 : Keccak} {s s' : Storage} {r : MintRequest} (h : AgreeOn r s s')
    (hs : s.tables.Consistent) (hr : r.Fits) : mintResult keccak256 s' r = mintResult keccak256 s r := by
  obtain ⟨res, hok, hflat⟩ := mintResult_flat keccak256 hs hr
  obtain ⟨res', hok', hflat'⟩ := mintResult_flat keccak256 (s := s') (h.tables ▸ hs) hr
  have heq : res = res' := hflat.unique (.refl _) h hflat'
  rw [hok, hok', heq]

/-- The answers leave the tables as they are. -/
theorem agreeOn_settled (r : MintRequest) (s : Storage) (seed : Bytes32 → Uint256) (ids : List Bytes32) :
    AgreeOn r s (settled seed ids s) := ⟨rfl, fun _ _ _ => rfl, fun _ _ _ => rfl, fun _ _ _ => rfl⟩

theorem settled_of_mem (h : id ∈ ids) (s : Storage) :
    (settled seed ids s).mintRequests id = { s.mintRequests id with randomNumber := seed id } := if_pos h

theorem settled_of_notMem (h : id ∉ ids) (s : Storage) : (settled seed ids s).mintRequests id = s.mintRequests id :=
  if_neg h

/-- After answers to all open requests, every recorded request has a seed. -/
theorem seeded_settled (hseed : ∀ id, seed id ≠ 0) (hids : ∀ id, id ∈ ids ↔ Pending w.storage id)
    (hk : Recorded w.storage k) : Seeded (settled seed ids w.storage) k := by
  cases k with
  | paid id =>
    by_cases hid : id ∈ ids
    · refine ⟨?_, ?_⟩
      · show ((settled seed ids w.storage).mintRequests id).requester ≠ 0
        rw [settled_of_mem hid]
        exact hk
      · rw [settled_of_mem hid]
        exact hseed id
    · refine ⟨?_, ?_⟩
      · show ((settled seed ids w.storage).mintRequests id).requester ≠ 0
        rw [settled_of_notMem hid]
        exact hk
      · rw [settled_of_notMem hid]
        exact fun hzero => hid ((hids id).2 ⟨hk, hzero⟩)
  | free idx => exact hk

/-- **Everything open can be settled**: the coordinator can answer all open requests in any order, the storage it leaves
does not depend on the order, every request can be read then, those with a seed as before, and the others by their own
seed alone. -/
theorem requests_settle (h : Reachable chain w) (hv : msg.value = 0) (hs : msg.sender = w.storage.vrf.vrfCoordinator)
    (hseed : ∀ id, seed id ≠ 0) :
    ∃ ids : List Bytes32, ids.Nodup ∧ (∀ id, id ∈ ids ↔ Pending w.storage id) ∧
      (∀ order : List Bytes32, order.Perm ids →
        Lts.Run (Step chain) w (order.map (callback msg seed)) (settledWorld seed order w) ∧
          (settledWorld seed order w).storage = settled seed ids w.storage) ∧
      (∀ k, Recorded w.storage k → Readable chain.keccak256 (settled seed ids w.storage) k) ∧
      (∀ k, Seeded w.storage k → getMintResult chain.keccak256 (settled seed ids w.storage) k =
        getMintResult chain.keccak256 w.storage k) ∧
      ∀ id ∈ ids, getMintResult chain.keccak256 (settled seed ids w.storage) (.paid id) =
        mintResult chain.keccak256 w.storage { w.storage.mintRequests id with randomNumber := seed id } := by
  obtain ⟨ids, hnodup, hids⟩ := exists_pending h
  have hL := ledger_reachable h
  have htables : w.storage.tables.Consistent := by
    rw [(Reachable.fixed h).2]
    exact initialTables_consistent
  have hrun : ∀ order : List Bytes32, order.Perm ids →
      Lts.Run (Step chain) w (order.map (callback msg seed)) (settledWorld seed order w) :=
    fun order hperm => run_settled hv hs (hperm.nodup_iff.2 hnodup) fun id hid => (hids id).1 (hperm.mem_iff.1 hid)
  refine ⟨ids, hnodup, hids, ?_, ?_, ?_, ?_⟩
  · intro order hperm
    exact ⟨hrun order hperm, settled_perm hperm w.storage⟩
  · intro k hk
    have hreach : Reachable chain (settledWorld seed ids w) := h.run (hrun ids (List.Perm.refl _))
    have hk' := seeded_settled hseed hids hk
    exact readable_of_fits hk' htables ((ledger_reachable hreach).fits hk'.recorded)
  · intro k hk
    have hreq : (settled seed ids w.storage).request k = w.storage.request k := by
      cases k with
      | paid id => exact settled_of_notMem (fun hid => hk.2 ((hids id).1 hid).2) w.storage
      | free idx => rfl
    rw [getMintResult_seeded (seeded_settled hseed hids hk.recorded), getMintResult_seeded hk, hreq]
    exact mintResult_congr (agreeOn_settled _ _ _ _) htables (hL.fits hk.recorded)
  · intro id hid
    have hk : Recorded w.storage (.paid id) := ((hids id).1 hid).1
    have hfits := hL.fits hk
    rw [getMintResult_seeded (seeded_settled hseed hids hk)]
    show mintResult chain.keccak256 (settled seed ids w.storage) ((settled seed ids w.storage).mintRequests id) = _
    rw [settled_of_mem hid]
    exact mintResult_congr (agreeOn_settled _ _ _ _) htables
      ⟨hfits.portraitAmount, hfits.accessoryAmount, hfits.portraitIds, hfits.accessoryIds⟩

/-- Two users buy a box, and the later request is answered first. -/
def Deployment.twoBoxes : List (Msg × Op) :=
  [(user 5, .paidMint [] [] [⟨.bronze, 1⟩] false), (user 6, .paidMint [⟨.bronze, 2⟩] [] [] false)]

def Deployment.twoOpen : World Outside := transactions Deployment.chain twoBoxes sale

theorem requests_settle_two : ∃ ids : List Bytes32, 0 ∈ ids ∧ 1 ∈ ids ∧
    Lts.Run (Step Deployment.chain) Deployment.twoOpen (ids.reverse.map (callback Deployment.coordinator fun _ => 7))
      (settledWorld (fun _ => 7) ids.reverse Deployment.twoOpen) ∧
    Readable Deployment.lastWord (settled (fun _ => 7) ids Deployment.twoOpen.storage) (.paid 1) := by
  have hreach : Reachable Deployment.chain Deployment.twoOpen :=
    reachable_transactions Deployment.twoBoxes Deployment.sale_reachable
  have hseed : ∀ _ : Bytes32, (7 : Uint256) ≠ 0 := fun _ => by decide
  have hsender : Deployment.coordinator.sender = Deployment.twoOpen.storage.vrf.vrfCoordinator := by decide
  obtain ⟨ids, -, hids, hrun, hread, -⟩ := requests_settle hreach (show Deployment.coordinator.value = 0 from rfl)
    hsender hseed
  have hfirst : Pending Deployment.twoOpen.storage 0 := by decide
  have hsecond : Pending Deployment.twoOpen.storage 1 := by decide
  exact ⟨ids, (hids 0).2 hfirst, (hids 1).2 hsecond, (hrun _ ids.reverse_perm).1, hread (.paid 1) hsecond.1⟩

end Minter
end Illuvitars
