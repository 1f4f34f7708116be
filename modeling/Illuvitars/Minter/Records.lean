import Mathlib.Data.List.Nodup
import Illuvitars.Minter.Readable

/-!
# The records of requests

A record is what one call of `paidMint` or `freeMint` stored, under the conditions in force at that call, and nothing
changes it afterwards but its seed.

* `Creates`: a call that creates a record; `Effect.creates` reads it off the effect of a call;
* `Effect.keeps`, `run_keeps`: one call and a run keep the records that exist;
* `stored_of_run`: all records of a run.
-/

namespace Illuvitars
namespace Minter

open Evm

variable {X : Type} {chain : Chain X} {msg : Msg} {op : Op} {w w' w₀ : World X} {k : RequestKey}

/-! ## Creating a record -/

/-- The call that requests the lists, for a record of the kind of `k`. -/
def RequestOp (ps : List PortraitMintParams) (ss : List AccessorySemiRandomMintParams)
    (fs : List AccessoryFullRandomMintParams) : RequestKey → Op → Prop
  | .paid _, op => ∃ useSIlv, op = .paidMint ps ss fs useSIlv
  | .free _, op => op = .freeMint ps ss fs

/-- The record `r` is the one that `msg` makes of the lists. -/
structure Holds (msg : Msg) (ps : List PortraitMintParams) (ss : List AccessorySemiRandomMintParams)
    (fs : List AccessoryFullRandomMintParams) (r : MintRequest) : Prop where
  requester : r.requester = msg.sender
  portraitMintParams : r.portraitMintParams = ps
  accessorySemiRandomMintParams : r.accessorySemiRandomMintParams = ss
  accessoryFullRandomMintParams : r.accessoryFullRandomMintParams = fs

/-- The call creates the record of `k` from the lists, within the sale window and the free limits in force. -/
structure Creates (msg : Msg) (op : Op) (w w' : World X) (k : RequestKey) (ps : List PortraitMintParams)
    (ss : List AccessorySemiRandomMintParams) (fs : List AccessoryFullRandomMintParams) : Prop where
  op : RequestOp ps ss fs k op
  fresh : ¬Recorded w.storage k
  recorded : Recorded w'.storage k
  holds : Holds msg ps ss fs (w'.storage.request k)
  window : ps ≠ [] → InSaleWindow w.storage msg.timestamp
  portraitLimit : k.isFree = true → total ps ≤ w.storage.freePortraitLimitPerTx.toNat
  accessoryLimit : k.isFree = true → total ss + total fs ≤ w.storage.freeAccessoryLimitPerTx.toNat

/-- A request creates its record. -/
theorem Ledger.creates {ps ss fs seed} (hL : Ledger w) (h : Requests msg w w' k ps ss fs seed)
    (hop : RequestOp ps ss fs k op) : Creates msg op w w' k ps ss fs := by
  refine
    { op := hop
      fresh := hL.opens_empty h.opens
      recorded := hL.recorded_opened h
      holds := ?_
      window := h.portraits.window
      portraitLimit := h.portraits.limit
      accessoryLimit := h.accessories.limit }
  rw [hL.opened h]
  exact ⟨rfl, rfl, rfl, rfl⟩

/-- In a request no other record appears. -/
theorem Requests.eq_of_new {k' : RequestKey} {ps ss fs seed} (h : Requests msg w w' k' ps ss fs seed)
    (hk : ¬Recorded w.storage k) (hk' : Recorded w'.storage k) : k = k' := by
  by_contra hne
  exact hk ((h.recorded_of_ne hne).1 hk')

/-- The callback makes no record. -/
theorem recorded_fulfilledWorld {id : Bytes32} {r : Uint256} :
    Recorded (fulfilledWorld id r w).storage k ↔ Recorded w.storage k := by
  rw [Recorded, Recorded, fulfilledWorld, request_updatePaid]
  by_cases he : k = .paid id
  · subst he
    rw [Function.update_self]
    rfl
  · rw [Function.update_of_ne he]

/-- **A record that appears in a call is created by it.** -/
theorem Effect.creates (h : Effect chain msg w op w') (hL : Ledger w) (hk : ¬Recorded w.storage k)
    (hk' : Recorded w'.storage k) : ∃ ps ss fs, Creates msg op w w' k ps ss fs := by
  cases h with
  | paidMint hc _ =>
    have hr := requests_paidWorld hc
    cases (hr _).eq_of_new hk hk'
    exact ⟨_, _, _, hL.creates (hr _) ⟨_, rfl⟩⟩
  | freeMint hp ha hn =>
    have hr := @requests_freeWorld _ chain _ _ _ _ _ hp ha hn
    cases hr.eq_of_new hk hk'
    exact ⟨_, _, _, hL.creates hr rfl⟩
  | fulfil hc => exact absurd (recorded_fulfilledWorld.1 hk') hk
  | setPortraitMintInfo => exact absurd hk' hk
  | setAccessoryMintInfo => exact absurd hk' hk
  | admin _ hs =>
    obtain ⟨_, _, _, _, _, hs⟩ := hs
    rw [hs] at hk'
    exact absurd hk' hk

/-! ## Keeping a record -/

/-- The same record, except perhaps for its seed. -/
def SameButSeed (r r' : MintRequest) : Prop := ∃ seed, r' = { r with randomNumber := seed }

theorem SameButSeed.refl (r : MintRequest) : SameButSeed r r := ⟨r.randomNumber, rfl⟩

theorem SameButSeed.trans {r r' r'' : MintRequest} (h : SameButSeed r r') (h' : SameButSeed r' r'') :
    SameButSeed r r'' := by
  obtain ⟨seed, rfl⟩ := h
  obtain ⟨seed', rfl⟩ := h'
  exact ⟨seed', rfl⟩

theorem SameButSeed.recorded {s s' : Storage} (h : SameButSeed (s.request k) (s'.request k)) (hk : Recorded s k) :
    Recorded s' k := by
  obtain ⟨seed, h⟩ := h
  rw [Recorded, h]
  exact hk

theorem SameButSeed.holds {ps ss fs} {r r' : MintRequest} (h : SameButSeed r r') (hr : Holds msg ps ss fs r) :
    Holds msg ps ss fs r' := by
  obtain ⟨seed, rfl⟩ := h
  exact ⟨hr.requester, hr.portraitMintParams, hr.accessorySemiRandomMintParams, hr.accessoryFullRandomMintParams⟩

/-- A call keeps every record, except perhaps for its seed. -/
theorem Effect.keeps (h : Effect chain msg w op w') (hL : Ledger w) (hk : Recorded w.storage k) :
    SameButSeed (w.storage.request k) (w'.storage.request k) := by
  rcases request_cases h with ⟨k', ps, ss, fs, seed, hr⟩ | ⟨id, seed, hc, -, hr⟩ | ⟨-, hr⟩
  · have hne : k ≠ k' := fun e => hL.opens_empty hr.opens (e ▸ hk)
    rw [hr.request_of_ne hne]
    exact .refl _
  · by_cases he : k = .paid id
    · subst he
      rw [hr, Function.update_self]
      exact ⟨seed, rfl⟩
    · rw [hr, Function.update_of_ne he]
      exact .refl _
  · rw [hr]
    exact .refl _

/-- **A run keeps every record, except perhaps for its seed.** -/
theorem run_keeps {ls : List Label} (h : Reachable chain w) (hk : Recorded w.storage k)
    (hrun : Lts.Run (Step chain) w ls w') : SameButSeed (w.storage.request k) (w'.storage.request k) := by
  have hI := hrun.invariant (P := fun _ => True)
    (I := fun u => Reachable chain u ∧ SameButSeed (w.storage.request k) (u.storage.request k)) ?_
    (fun _ _ => trivial) ⟨h, .refl _⟩
  · exact hI.2
  intro u l u' _ hu hs
  obtain ⟨hreach, hsame⟩ := hu
  refine ⟨hreach.snoc hs, ?_⟩
  rcases step_cases hs (Reachable.fixed hreach).1 with ⟨_, _, -, -, he⟩ | ⟨hst, -, -⟩
  · exact hsame.trans (he.keeps (ledger_reachable hreach) (hsame.recorded hk))
  · rw [hst]
    exact hsame

/-! ## The records of a run -/

/-- The record of `k` after the run `ls` from the deployment `w₀` to `w`. -/
structure Stored (chain : Chain X) (w₀ : World X) (ls : List Label) (w : World X) (k : RequestKey) : Prop where
  portraitAmount : (w.storage.request k).portraitAmount.toNat = total (w.storage.request k).portraitMintParams
  accessoryAmount : (w.storage.request k).accessoryAmount.toNat =
    total (w.storage.request k).accessorySemiRandomMintParams +
      total (w.storage.request k).accessoryFullRandomMintParams
  portraits : ∀ p ∈ (w.storage.request k).portraitMintParams,
    1 ≤ p.amount.toNat ∧ (p.boxType = .virtual ↔ k.isFree = true)
  semi : ∀ p ∈ (w.storage.request k).accessorySemiRandomMintParams,
    1 ≤ p.amount.toNat ∧ (p.boxType = .virtual ↔ k.isFree = true)
  full : ∀ p ∈ (w.storage.request k).accessoryFullRandomMintParams,
    1 ≤ p.amount.toNat ∧ (p.boxType = .virtual ↔ k.isFree = true)
  /-- One call of the run created the record from its lists, which are those it holds now. -/
  source : ∃ js msg op u u' ks ps ss fs, ls = js ++ .call msg op :: ks ∧ Lts.Run (Step chain) w₀ js u ∧
    Step chain u (.call msg op) u' ∧ Lts.Run (Step chain) u' ks w ∧ Creates msg op u u' k ps ss fs ∧
    Holds msg ps ss fs (w.storage.request k)
  /-- There is one such call only. -/
  once : (created w.logs).count k = 1
  kept : ∀ ks w', Lts.Run (Step chain) w ks w' → SameButSeed (w.storage.request k) (w'.storage.request k)

/-- The checks on a list of parameters, with the amounts as numbers. -/
theorem ParamsOk.pos {P : Type} [MintParams P] {isFree : Bool} {ps : List P} (h : ParamsOk isFree ps) {p : P}
    (hp : p ∈ ps) :
    1 ≤ (MintParams.amount p).toNat ∧ (MintParams.boxType p = .virtual ↔ isFree = true) := by
  obtain ⟨hne, hbox⟩ := h p hp
  refine ⟨Nat.one_le_iff_ne_zero.2 fun h0 => hne ?_, hbox.symm⟩
  simpa [BitVec.toNat_eq] using h0

/-- **Every recorded request of a run is well formed, and is what one call of the run stored.** -/
theorem stored_of_recorded {ls : List Label} (h : Deployed chain w₀) (hrun : Lts.Run (Step chain) w₀ ls w)
    (hk : Recorded w.storage k) : Stored chain w₀ ls w k := by
  have hreach : Reachable chain w := Lts.Reachable.run (Lts.Reachable.of_start h) hrun
  have hL := ledger_reachable hreach
  have hwf := hL.wellFormed k hk
  have h0 : ¬Recorded w₀.storage k := by
    intro h0
    obtain ⟨msg, p, x, -, hw⟩ := h
    rw [Recorded, (initializeMinter_ok hw).1] at h0
    cases k <;> exact h0 rfl
  refine
    { portraitAmount := hwf.portraitAmount
      accessoryAmount := hwf.accessoryAmount
      portraits := fun p hp => hwf.portraits.pos hp
      semi := fun p hp => hwf.semi.pos hp
      full := fun p hp => hwf.full.pos hp
      source := ?_
      once := List.count_eq_one_of_mem hL.nodup ((hL.recorded k).2 hk)
      kept := fun ks w' hks => run_keeps hreach hk hks }
  -- the step in which the record appears
  obtain ⟨js, u, l, u', ks, rfl, hjs, hs, hks, hu, hu'⟩ := hrun.exists_step (P := fun u => Recorded u.storage k) h0 hk
  have hreachu : Reachable chain u := Lts.Reachable.run (Lts.Reachable.of_start h) hjs
  rcases step_cases hs (Reachable.fixed hreachu).1 with ⟨msg, op, rfl, -, he⟩ | ⟨hst, -, -⟩
  · obtain ⟨ps, ss, fs, hc⟩ := he.creates (ledger_reachable hreachu) hu hu'
    have hsame := run_keeps (hreachu.snoc hs) hu' hks
    exact ⟨js, msg, op, u, u', ks, ps, ss, fs, rfl, hjs, hs, hks, hc, hsame.holds hc.holds⟩
  · rw [hst] at hu'
    exact absurd hu' hu

/-- **The records of a run**: the recorded requests are well formed, the other slots are empty, and the free ones are
those below the count. -/
theorem stored_of_run {ls : List Label} (h : Deployed chain w₀) (hrun : Lts.Run (Step chain) w₀ ls w) :
    (∀ k, Recorded w.storage k → Stored chain w₀ ls w k) ∧
    (∀ k, ¬Recorded w.storage k → w.storage.request k = .zero) ∧
    (∀ idx, Recorded w.storage (.free idx) ↔ idx.toNat < w.storage.freeRequestCount.toNat) ∧
    ∀ idx res, getFreeMintResult chain.keccak256 w.storage idx = .ok res →
      idx.toNat < w.storage.freeRequestCount.toNat := by
  have hL := ledger_reachable (Lts.Reachable.run (Lts.Reachable.of_start h) hrun)
  refine ⟨fun k hk => stored_of_recorded h hrun hk, hL.empty, hL.free, ?_⟩
  intro idx res hok
  simp only [getFreeMintResult, bind_ok_iff, require_ok_iff, exists_const] at hok
  exact (hL.free idx).1 hok.1

/-- A paid and a free request, and a callback. -/
def Deployment.requests : List (Msg × Op) := opening ++
  [(user 18, .paidMint [⟨.bronze, 2⟩] [⟨.props, .bronze, 1⟩] [⟨.bronze, 1⟩] false),
   (user 0, .freeMint [⟨.virtual, 1⟩] [] [⟨.virtual, 1⟩]), (coordinator, .rawFulfillRandomness 0 5)]

theorem stored_of_two_requests :
    Stored Deployment.chain Deployment.genesis (Deployment.requests.map fun t => .call t.1 t.2)
        (transactions Deployment.chain Deployment.requests Deployment.genesis) (.paid 0) ∧
      Stored Deployment.chain Deployment.genesis (Deployment.requests.map fun t => .call t.1 t.2)
        (transactions Deployment.chain Deployment.requests Deployment.genesis) (.free 0) := by
  have h := stored_of_run Deployment.genesis_deployed
    (run_transactions Deployment.chain Deployment.requests Deployment.genesis)
  exact ⟨h.1 (.paid 0) (by decide), h.1 (.free 0) (by decide)⟩

end Minter
end Illuvitars
