import Illuvitars.Lib.Journal
import Illuvitars.Minter.Authority

/-!
# The event log

What an observer of the events knows of the Minter (`View`): its owner, its treasury, who has requested what, and the
seeds that have come in. `View.read` takes one event into account, and refuses the ones that cannot happen.
`log_of_run`: the events of every run are legal and tell what the run has done to the view.
-/

namespace Illuvitars
namespace Minter

open Evm

variable {X : Type} {chain : Chain X} {msg : Msg} {op : Op} {w w' : World X}

/-- What the events tell. -/
structure View where
  owner : Address
  treasury : Address
  requesters : Bytes32 → Address
  seeds : Bytes32 → Uint256
  freeRequesters : Uint256 → Address
  freeRequestCount : Uint256

def Storage.view (s : Storage) : View where
  owner := s.owner
  treasury := s.treasury
  requesters id := (s.mintRequests id).requester
  seeds id := (s.mintRequests id).randomNumber
  freeRequesters idx := (s.freeRequests idx).requester
  freeRequestCount := s.freeRequestCount

/-- The view after an event. A request is made once, by somebody; a free request takes the next index; a request that
was made is fulfilled while it has no seed, and zero counts as none; ownership passes on from the owner. -/
def View.read (v : View) : Event → Option View
  | .treasurySet treasury => if treasury ≠ 0 then some { v with treasury } else none
  | .mintRequested requester id =>
    if requester ≠ 0 ∧ v.requesters id = 0 then
      some { v with requesters := Function.update v.requesters id requester }
    else none
  | .freeMintRequested requester idx =>
    if requester ≠ 0 ∧ idx = v.freeRequestCount ∧ idx.toNat + 1 < 2 ^ 256 then
      some { v with
        freeRequesters := Function.update v.freeRequesters idx requester
        freeRequestCount := idx + 1 }
    else none
  | .requestFulfilled id seed =>
    if v.requesters id ≠ 0 ∧ v.seeds id = 0 then some { v with seeds := Function.update v.seeds id seed } else none
  | .ownershipTransferred previousOwner newOwner =>
    if previousOwner = v.owner then some { v with owner := newOwner } else none

/-- The new events of a step. -/
def Emits (w : World X) (_ : Label) (w' : World X) (es : List Event) : Prop := w'.logs = w.logs ++ es

/-- What an owner's function announces. -/
theorem OwnerEffect.read (h : OwnerEffect chain w op w') :
    ∃ es, w'.logs = w.logs ++ es ∧ Lts.replay View.read w.storage.view es = some w'.storage.view := by
  cases h with
  | treasury ht =>
    refine ⟨[_], rfl, ?_⟩
    rw [Lts.replay, View.read, if_pos ht]
    rfl
  | transfer hne => exact ⟨[_], rfl, by simp [Lts.replay, View.read, Storage.view, setOwner]⟩
  | renounce => exact ⟨[_], rfl, by simp [Lts.replay, View.read, Storage.view, setOwner]⟩
  | _ => exact ⟨[], (List.append_nil _).symm, rfl⟩

/-- **The events of a call tell what the call does to the view.** -/
theorem Acts.read (h : Acts chain msg w op w') :
    ∃ es, w'.logs = w.logs ++ es ∧ Lts.replay View.read w.storage.view es = some w'.storage.view := by
  cases h with
  | @paidMint ps ss fs useSIlv x₁ x₂ hc hpay =>
    refine ⟨[_], rfl, ?_⟩
    have hfresh : w.storage.view.requesters (nextRequestId chain w.storage) = 0 := hc.fresh
    rw [Lts.replay, View.read, if_pos ⟨msg.sender_ne_zero, hfresh⟩]
    -- the record of a request keeps the seed of its slot
    have hseeds : (paidWorld chain msg ps ss fs w x₂).storage.view.seeds = w.storage.view.seeds := by
      refine (Function.comp_update MintRequest.randomNumber w.storage.mintRequests _ _).trans ?_
      exact Function.update_eq_self _ _
    have hrequesters : (paidWorld chain msg ps ss fs w x₂).storage.view.requesters =
        Function.update w.storage.view.requesters (nextRequestId chain w.storage) msg.sender :=
      Function.comp_update MintRequest.requester w.storage.mintRequests _ _
    simp only [Option.bind_some, Lts.replay, ← hrequesters]
    rw [← hseeds]
    rfl
  | @freeMint ps ss fs hv hp ha hn =>
    refine ⟨[_], rfl, ?_⟩
    rw [Lts.replay, View.read, if_pos ⟨msg.sender_ne_zero, rfl, hn⟩]
    have hrequesters : (freeWorld chain msg ps ss fs w).storage.view.freeRequesters =
        Function.update w.storage.view.freeRequesters w.storage.freeRequestCount msg.sender :=
      Function.comp_update MintRequest.requester w.storage.freeRequests _ _
    have hcount : w.storage.freeRequestCount + 1 = BitVec.ofNat 256 (w.storage.freeRequestCount.toNat + 1) := by
      apply BitVec.eq_of_toNat_eq
      simp
    simp only [Option.bind_some, Lts.replay, ← hrequesters, hcount]
    rfl
  | @fulfil id r hc =>
    refine ⟨[_], rfl, ?_⟩
    have hopen : w.storage.view.requesters id ≠ 0 ∧ w.storage.view.seeds id = 0 := ⟨hc.exist, hc.unfulfilled⟩
    rw [Lts.replay, View.read, if_pos hopen]
    have hrequesters : (fulfilledWorld id r w).storage.view.requesters = w.storage.view.requesters := by
      refine (Function.comp_update MintRequest.requester w.storage.mintRequests _ _).trans ?_
      exact Function.update_eq_self _ _
    have hseeds : (fulfilledWorld id r w).storage.view.seeds = Function.update w.storage.view.seeds id r :=
      Function.comp_update MintRequest.randomNumber w.storage.mintRequests _ _
    simp only [Option.bind_some, Lts.replay, ← hseeds]
    rw [← hrequesters]
    rfl
  | owner _ _ ho => exact ho.read

/-- A step tells by its events what it does. -/
theorem Transition.read {l : Label} (h : Transition chain w l w') :
    ∃ es, Emits w l w' es ∧ Lts.replay View.read w.storage.view es = some w'.storage.view := by
  cases h with
  | acts _ ha => exact ha.read
  | reverts => exact ⟨[], (List.append_nil _).symm, rfl⟩
  | outside => exact ⟨[], (List.append_nil _).symm, rfl⟩

/-- The journal of a run is what its log gains. -/
theorem journal_logs {ls : List Label} {es : List Event} (h : Lts.Journal (Step chain) Emits w ls w' es) :
    w'.logs = w.logs ++ es := by
  induction h with
  | nil => exact (List.append_nil _).symm
  | cons _ hes _ ih => rw [ih, hes, List.append_assoc]

/-- The events of a run are legal, and tell what it does to the view. -/
theorem run_reads {ls : List Label} (h : Reachable chain w) (hrun : Lts.Run (Step chain) w ls w') :
    ∃ es, w'.logs = w.logs ++ es ∧ Lts.replay View.read w.storage.view es = some w'.storage.view := by
  have hread : ∀ {u l u'}, Reachable chain u → Step chain u l u' →
      ∃ es, Emits u l u' es ∧ Lts.replay View.read u.storage.view es = some u'.storage.view :=
    fun hu hs => (step_transition hs (Reachable.fixed hu).1).read
  have hjournal : ∃ es, Lts.Journal (Step chain) Emits w ls w' es :=
    hrun.journal (I := Reachable chain) (P := fun _ => True) (fun hu hs => hu.snoc hs)
      (fun _ hu hs => (hread hu hs).imp fun _ h => h.1) (fun _ _ => trivial) h
  obtain ⟨es, hjournal⟩ := hjournal
  refine ⟨es, journal_logs hjournal, hjournal.replay (fun u => u.storage.view) (I := Reachable chain)
    (fun hu hs => hu.snoc hs) ?_ h⟩
  intro u l u' es hu hs hes
  obtain ⟨es', hes', hreplay⟩ := hread hu hs
  rw [List.append_cancel_left (hes.symm.trans hes')]
  exact hreplay

/-- **The log tells the run**: whoever knows the view before a run and reads the events that the run adds to the log
finds them legal one after the other and knows the view after it. So runs with the same log lead to the same view. -/
theorem log_of_run {ls : List Label} (h : Reachable chain w) (hrun : Lts.Run (Step chain) w ls w') :
    (∃ es, w'.logs = w.logs ++ es ∧ Lts.replay View.read w.storage.view es = some w'.storage.view) ∧
      ∀ ks u, Lts.Run (Step chain) w ks u → u.logs = w'.logs → u.storage.view = w'.storage.view := by
  obtain ⟨es, hes, hreplay⟩ := run_reads h hrun
  refine ⟨⟨es, hes, hreplay⟩, ?_⟩
  intro ks u hks hlogs
  obtain ⟨fs, hfs, hreplay'⟩ := run_reads h hks
  obtain rfl : es = fs := List.append_cancel_left (hes.symm.trans (hlogs.symm.trans hfs))
  exact Option.some.inj (hreplay'.symm.trans hreplay)

/-- The opening of the sale, a purchase, its seed, and a new treasury. -/
def Deployment.history : List (Msg × Op) := opening ++
  [(user 5, .paidMint [] [] [⟨.bronze, 1⟩] false), (coordinator, .rawFulfillRandomness 0 5), (owner, .setTreasury 0x51)]

theorem log_of_run_history : ∃ es, es = [.mintRequested 2 0, .requestFulfilled 0 5, .treasurySet 0x51] ∧
    Lts.replay View.read Deployment.genesis.storage.view es =
      some (transactions Deployment.chain Deployment.history Deployment.genesis).storage.view := by
  obtain ⟨⟨es, hes, hreplay⟩, -⟩ := log_of_run (Lts.Reachable.of_start Deployment.genesis_deployed)
    (run_transactions Deployment.chain Deployment.history Deployment.genesis)
  refine ⟨es, ?_, hreplay⟩
  have hlogs : (transactions Deployment.chain Deployment.history Deployment.genesis).logs =
      Deployment.genesis.logs ++ [.mintRequested 2 0, .requestFulfilled 0 5, .treasurySet 0x51] := by decide
  exact List.append_cancel_left (hes.symm.trans hlogs)

end Minter
end Illuvitars
