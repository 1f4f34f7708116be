import Illuvitars.Lib.Postpone
import Illuvitars.Minter.EventLog

/-!
# When the seeds come in

The coordinator may answer a request at any time, before or after any other call. What everybody else does never depends
on it: the callbacks of a run can be made after everything else, and each other call has the outcome it had
(`callbacks_last`).

* `Core`: the world without its log, which no function reads (`Acts.relog`);
* `Acts.before_seed`, `Acts.after_seed`: a call can be made after a callback iff it can be made before it;
* `TracedStep`: a step with its outcome; `CoreStep`: the same for the core, without the callbacks that revert;
* `callbacks_wait`: callbacks wait for all other steps.
-/

namespace Illuvitars
namespace Minter

open Evm

variable {X : Type} {chain : Chain X} {msg msg' : Msg} {op : Op} {w w' : World X} {id : Bytes32} {r : Uint256}

/-! ## The world without its log -/

structure Core (X : Type) where
  storage : Storage
  balance : ℕ
  outside : X

def World.core (w : World X) : Core X := ⟨w.storage, w.balance, w.outside⟩

def Core.world (c : Core X) (logs : List Event) : World X := ⟨c.storage, c.balance, logs, c.outside⟩

/-- A function of the owner that emits nothing. -/
theorem OwnerEffect.quiet (hlogs : w'.logs = w.logs)
    (h : ∀ logs, OwnerEffect chain (w.core.world logs) op (w'.core.world logs)) : ∃ es, w'.logs = w.logs ++ es ∧
      ∀ logs, OwnerEffect chain (w.core.world logs) op (w'.core.world (logs ++ es)) := by
  refine ⟨[], by rw [hlogs, List.append_nil], fun logs => ?_⟩
  rw [List.append_nil]
  exact h logs

theorem OwnerEffect.relog (h : OwnerEffect chain w op w') : ∃ es, w'.logs = w.logs ++ es ∧
    ∀ logs, OwnerEffect chain (w.core.world logs) op (w'.core.world (logs ++ es)) := by
  cases h with
  | saleWindow h => exact OwnerEffect.quiet rfl fun _ => .saleWindow h
  | limits => exact OwnerEffect.quiet rfl fun _ => .limits
  | treasury h => exact ⟨[_], rfl, fun logs => .treasury (w := w.core.world logs) h⟩
  | withdraw h₁ h₂ => exact OwnerEffect.quiet rfl fun logs => .withdraw (w := w.core.world logs) h₁ h₂
  | portraitMintInfo hb ht => exact OwnerEffect.quiet rfl fun _ => .portraitMintInfo hb ht
  | accessoryMintInfo hb ht => exact OwnerEffect.quiet rfl fun _ => .accessoryMintInfo hb ht
  | transfer h => exact ⟨[_], rfl, fun logs => .transfer (w := w.core.world logs) h⟩
  | renounce => exact ⟨[_], rfl, fun logs => .renounce (w := w.core.world logs)⟩

/-- The checks of a callback read the coordinator and the record alone. -/
theorem FulfilChecks.congr (h : FulfilChecks msg id w)
    (hcoordinator : w'.storage.vrf.vrfCoordinator = w.storage.vrf.vrfCoordinator)
    (hrecord : w'.storage.mintRequests id = w.storage.mintRequests id) : FulfilChecks msg id w' := by
  refine ⟨h.value, ?_, ?_, ?_⟩
  · rw [hcoordinator]
    exact h.coordinator
  · rw [hrecord]
    exact h.exist
  · rw [hrecord]
    exact h.unfulfilled

/-- No function reads the log. -/
theorem Acts.relog (h : Acts chain msg w op w') : ∃ es, w'.logs = w.logs ++ es ∧
    ∀ logs, Acts chain msg (w.core.world logs) op (w'.core.world (logs ++ es)) := by
  cases h with
  | paidMint hc hpay =>
    refine ⟨[_], rfl, fun logs => ?_⟩
    exact .paidMint (w := w.core.world logs)
      ⟨hc.request, hc.nonce, hc.fresh, hc.portraits, hc.accessories, hc.price⟩ hpay
  | freeMint hv hp ha hn => exact ⟨[_], rfl, fun logs => .freeMint (w := w.core.world logs) hv hp ha hn⟩
  | fulfil hc => exact ⟨[_], rfl, fun logs => .fulfil (w := w.core.world logs) (hc.congr rfl rfl)⟩
  | owner hs hv ho =>
    obtain ⟨es, hes, hrelog⟩ := ho.relog
    exact ⟨es, hes, fun logs => .owner hs hv (hrelog logs)⟩

/-! ## Seeds -/

/-- The world after a seed has come in, without the event. -/
def seeded (id : Bytes32) (r : Uint256) (w : World X) : World X :=
  { w with storage := { w.storage with
    mintRequests := Function.update w.storage.mintRequests id { w.storage.mintRequests id with randomNumber := r } } }

/-- Another record is the same after a seed has come in, -/
theorem seeded_of_ne {id' : Bytes32} (h : id' ≠ id) :
    (seeded id r w).storage.mintRequests id' = w.storage.mintRequests id' := Function.update_of_ne h _ _

/-- and so is the requester of every record. -/
theorem seeded_requester (id' : Bytes32) :
    ((seeded id r w).storage.mintRequests id').requester = (w.storage.mintRequests id').requester := by
  by_cases h : id' = id
  · subst h
    simp [seeded]
  · rw [seeded_of_ne h]

/-- The other checks of a request do not see seeds. -/
theorem portraitChecks_seeded_iff {timestamp : Uint256} {isFree : Bool} {ps : List PortraitMintParams} :
    PortraitChecks (seeded id r w).storage timestamp isFree ps ↔ PortraitChecks w.storage timestamp isFree ps :=
  ⟨fun h => ⟨h.window, h.params, h.limit, h.ids⟩, fun h => ⟨h.window, h.params, h.limit, h.ids⟩⟩

theorem accessoryChecks_seeded_iff {isFree : Bool} {ss : List AccessorySemiRandomMintParams}
    {fs : List AccessoryFullRandomMintParams} :
    AccessoryChecks (seeded id r w).storage isFree ss fs ↔ AccessoryChecks w.storage isFree ss fs :=
  ⟨fun h => ⟨h.semi, h.full, h.limit, h.ids⟩, fun h => ⟨h.semi, h.full, h.limit, h.ids⟩⟩

theorem paidChecks_seeded_iff {ps ss fs} {x : X} :
    PaidChecks chain msg ps ss fs (seeded id r w) x ↔ PaidChecks chain msg ps ss fs w x := by
  have hfresh : ((seeded id r w).storage.mintRequests (nextRequestId chain w.storage)).requester = 0 ↔
      (w.storage.mintRequests (nextRequestId chain w.storage)).requester = 0 := by rw [seeded_requester]
  constructor
  · intro h
    exact ⟨h.request, h.nonce, hfresh.1 h.fresh, portraitChecks_seeded_iff.1 h.portraits,
      accessoryChecks_seeded_iff.1 h.accessories, h.price⟩
  · intro h
    exact ⟨h.request, h.nonce, hfresh.2 h.fresh, portraitChecks_seeded_iff.2 h.portraits,
      accessoryChecks_seeded_iff.2 h.accessories, h.price⟩

/-- The world with other records of paid requests. -/
def World.withRequests (requests : Bytes32 → MintRequest) (w : World X) : World X :=
  { w with storage := { w.storage with mintRequests := requests } }

/-- The functions of the owner neither see nor change them, and the coordinator stays. -/
theorem OwnerEffect.withRequests (requests : Bytes32 → MintRequest) (h : OwnerEffect chain w op w') :
    OwnerEffect chain (w.withRequests requests) op (w'.withRequests requests) ∧
      w'.storage.mintRequests = w.storage.mintRequests ∧ w'.storage.vrf = w.storage.vrf := by
  cases h with
  | saleWindow h => exact ⟨.saleWindow h, rfl, rfl⟩
  | limits => exact ⟨.limits, rfl, rfl⟩
  | treasury h => exact ⟨.treasury h, rfl, rfl⟩
  | withdraw h₁ h₂ => exact ⟨.withdraw h₁ h₂, rfl, rfl⟩
  | portraitMintInfo hb ht => exact ⟨.portraitMintInfo hb ht, rfl, rfl⟩
  | accessoryMintInfo hb ht => exact ⟨.accessoryMintInfo hb ht, rfl, rfl⟩
  | transfer h => exact ⟨.transfer h, rfl, rfl⟩
  | renounce => exact ⟨.renounce, rfl, rfl⟩

/-- A request that is recorded after a seed for another one has come in. -/
theorem paidWorld_seeded {ps ss fs} {x : X} (hne : nextRequestId chain w.storage ≠ id) :
    paidWorld chain msg ps ss fs (seeded id r w) x = seeded id r (paidWorld chain msg ps ss fs w x) := by
  have hself : (paidWorld chain msg ps ss fs w x).storage.mintRequests id = w.storage.mintRequests id :=
    Function.update_of_ne hne.symm _ _
  have hrequests : (paidWorld chain msg ps ss fs (seeded id r w) x).storage.mintRequests =
      (seeded id r (paidWorld chain msg ps ss fs w x)).storage.mintRequests := by
    show Function.update (Function.update w.storage.mintRequests id _) (nextRequestId chain w.storage)
        (recordFor msg ps ss fs ((seeded id r w).storage.mintRequests (nextRequestId chain w.storage)) _) =
      Function.update (Function.update w.storage.mintRequests (nextRequestId chain w.storage) _) id
        { (paidWorld chain msg ps ss fs w x).storage.mintRequests id with randomNumber := r }
    rw [hself, seeded_of_ne hne, Function.update_comm hne.symm]
    rfl
  show ({ paidWorld chain msg ps ss fs w x with
    storage := { (paidWorld chain msg ps ss fs w x).storage with
      mintRequests := (paidWorld chain msg ps ss fs (seeded id r w) x).storage.mintRequests } } : World X) = _
  rw [hrequests]
  rfl

/-- **A call that is made after a callback can be made before it.** -/
theorem Acts.before_seed (hc : FulfilChecks msg id w) (h : Acts chain msg' (seeded id r w) op w')
    (hop : ∀ id' r', op ≠ .rawFulfillRandomness id' r') :
    ∃ w₁, Acts chain msg' w op w₁ ∧ FulfilChecks msg id w₁ ∧ w' = seeded id r w₁ := by
  cases h with
  | @paidMint ps ss fs useSIlv x₁ x₂ hp hpay =>
    have hpaid : PaidChecks chain msg' ps ss fs w x₁ := paidChecks_seeded_iff.1 hp
    -- the id of a new request is not the one that has been fulfilled
    have hne : nextRequestId chain w.storage ≠ id := fun he => hc.exist (he ▸ hpaid.fresh)
    have hself : (paidWorld chain msg' ps ss fs w x₂).storage.mintRequests id = w.storage.mintRequests id :=
      Function.update_of_ne hne.symm _ _
    exact ⟨paidWorld chain msg' ps ss fs w x₂, .paidMint hpaid hpay, hc.congr rfl hself, paidWorld_seeded hne⟩
  | freeMint hv hp ha hn =>
    have hfree := @Acts.freeMint X chain _ _ _ _ _ hv (portraitChecks_seeded_iff.1 hp)
      (accessoryChecks_seeded_iff.1 ha) hn
    exact ⟨_, hfree, hc.congr rfl rfl, rfl⟩
  | fulfil => exact absurd rfl (hop _ _)
  | owner hs hv ho =>
    obtain ⟨hwithout, hrequests, hvrf⟩ := ho.withRequests w.storage.mintRequests
    have hact : Acts chain msg' w op (w'.withRequests w.storage.mintRequests) := .owner hs hv hwithout
    have hseeded : w' = seeded id r (w'.withRequests w.storage.mintRequests) :=
      congrArg (fun requests => w'.withRequests requests) hrequests
    exact ⟨_, hact, hc.congr (congrArg _ hvrf) rfl, hseeded⟩

/-- A call that can be made before a callback can be made after it. -/
theorem Acts.after_seed (id : Bytes32) (r : Uint256) (h : Acts chain msg w op w')
    (hop : ∀ id' r', op ≠ .rawFulfillRandomness id' r') :
    ∃ w₁, Acts chain msg (seeded id r w) op w₁ := by
  cases h with
  | paidMint hp hpay => exact ⟨_, .paidMint (paidChecks_seeded_iff.2 hp) hpay⟩
  | freeMint hv hp ha hn =>
    exact ⟨_, .freeMint hv (portraitChecks_seeded_iff.2 hp) (accessoryChecks_seeded_iff.2 ha) hn⟩
  | fulfil => exact absurd rfl (hop _ _)
  | owner hs hv ho => exact ⟨_, .owner hs hv (ho.withRequests _).1⟩

/-! ## Steps with their outcomes -/

/-- The step is a callback of the coordinator. -/
def Label.isCallback : Label → Bool
  | .call _ (.rawFulfillRandomness _ _) => true
  | _ => false

/-- A step with its outcome: `true` if it has an effect, `false` for a call that reverts. -/
inductive TracedStep (chain : Chain X) : World X → Label × Bool → World X → Prop
  | acts {msg : Msg} {op : Op} {w w' : World X} : call chain msg op w = .ok w' →
      TracedStep chain w (.call msg op, true) w'
  | reverts {msg : Msg} {op : Op} {w : World X} {e : Revert} : call chain msg op w = .error e →
      TracedStep chain w (.call msg op, false) w
  | outside {w : World X} {x : X} {balance : ℕ} : chain.evolves w.outside x → w.balance ≤ balance →
      TracedStep chain w (.outside, true) { w with outside := x, balance }

/-- Every step has an outcome. -/
theorem step_iff_traced {l : Label} : Step chain w l w' ↔ ∃ b, TracedStep chain w (l, b) w' := by
  constructor
  · intro h
    cases h with
    | call msg op =>
      unfold transact
      cases hc : call chain msg op w with
      | ok w' => exact ⟨true, .acts hc⟩
      | error e => exact ⟨false, .reverts hc⟩
    | outside he hb => exact ⟨true, .outside he hb⟩
  · rintro ⟨b, h⟩
    cases h with
    | acts h => exact step_of_call h
    | @reverts msg op _ e h =>
      have hstep : Step chain w (.call msg op) (transact chain msg op w) := .call msg op w
      rwa [transact, h] at hstep
    | outside he hb => exact .outside he hb

/-- Every run is one with outcomes. -/
theorem run_iff_traced {ls : List Label} :
    Lts.Run (Step chain) w ls w' ↔ ∃ ts, ts.map Prod.fst = ls ∧ Lts.Run (TracedStep chain) w ts w' := by
  constructor
  · intro h
    induction h with
    | nil w => exact ⟨[], rfl, .nil w⟩
    | cons hs _ ih =>
      obtain ⟨ts, rfl, hts⟩ := ih
      obtain ⟨b, hb⟩ := step_iff_traced.1 hs
      exact ⟨(_, b) :: ts, rfl, .cons hb hts⟩
  · rintro ⟨ts, rfl, h⟩
    induction h with
    | nil w => exact .nil w
    | cons hs _ ih => exact .cons (step_iff_traced.2 ⟨_, hs⟩) ih

/-- A step of the world without its log, with the events that it emits. Callbacks that revert are left out. -/
inductive CoreStep (chain : Chain X) : Core X → (Label × Bool) × List Event → Core X → Prop
  | acts {c c' : Core X} {msg : Msg} {op : Op} {es : List Event} : c.storage.initialized = true →
      Acts chain msg (c.world []) op (c'.world es) → CoreStep chain c ((.call msg op, true), es) c'
  | reverts {c : Core X} {msg : Msg} {op : Op} : c.storage.initialized = true →
      (∀ id r, op ≠ .rawFulfillRandomness id r) → (∀ w', ¬Acts chain msg (c.world []) op w') →
      CoreStep chain c ((.call msg op, false), []) c
  | outside {c : Core X} {x : X} {balance : ℕ} : chain.evolves c.outside x → c.balance ≤ balance →
      CoreStep chain c ((.outside, true), []) { c with outside := x, balance }

/-- The step is left out if it is a callback that reverts. -/
def kept (t : Label × Bool) : Bool := !t.1.isCallback || t.2

theorem filter_kept_others (ts : List (Label × Bool)) :
    (ts.filter kept).filter (fun t => !t.1.isCallback) = ts.filter fun t => !t.1.isCallback := by
  rw [List.filter_filter]
  refine List.filter_congr fun t _ => ?_
  cases h : t.1.isCallback <;> simp [kept, h]

theorem filter_kept_callbacks (ts : List (Label × Bool)) :
    (ts.filter kept).filter (fun t => t.1.isCallback) = ts.filter fun t => t.1.isCallback && t.2 := by
  rw [List.filter_filter]
  refine List.filter_congr fun t _ => ?_
  cases h : t.1.isCallback <;> simp [kept, h]

/-- A step of the world is one of its core, or is left out and changes nothing. -/
theorem TracedStep.core {t : Label × Bool} (h : TracedStep chain w t w') (hw : w.storage.initialized = true) :
    kept t = true ∧ (∃ es, CoreStep chain w.core (t, es) w'.core ∧ w'.logs = w.logs ++ es) ∨
      kept t = false ∧ w' = w := by
  cases h with
  | acts hc =>
    obtain ⟨es, hes, hrelog⟩ := (call_acts hc hw).relog
    exact .inl ⟨by simp [kept], es, .acts hw (hrelog []), hes⟩
  | @reverts msg op _ e hc =>
    cases hcallback : (Label.call msg op).isCallback with
    | true => exact .inr ⟨by simp [kept, hcallback], rfl⟩
    | false =>
      refine .inl ⟨by simp [kept, hcallback], [], .reverts hw ?_ ?_, (List.append_nil _).symm⟩
      · rintro id r rfl
        cases hcallback
      · intro w' ha
        obtain ⟨es, -, hrelog⟩ := ha.relog
        have hok : call chain msg op w = .ok _ := (hrelog w.logs).succeeds
        rw [hok] at hc
        cases hc
  | outside he hb => exact .inl ⟨rfl, [], .outside he hb, (List.append_nil _).symm⟩

/-- A step of the core is one of the world, with any log. -/
theorem CoreStep.world {c c' : Core X} {t : Label × Bool} {es : List Event} (h : CoreStep chain c (t, es) c')
    (logs : List Event) : TracedStep chain (c.world logs) t (c'.world (logs ++ es)) := by
  cases h with
  | acts hc ha =>
    rename_i msg op
    obtain ⟨fs, hfs, hrelog⟩ := ha.relog
    obtain rfl : es = fs := hfs
    exact .acts (hrelog logs).succeeds
  | @reverts msg op hc _ hno =>
    rw [List.append_nil]
    cases hcall : call chain msg op (c.world logs) with
    | ok w' =>
      obtain ⟨es, -, hrelog⟩ := (call_acts hcall hc).relog
      exact absurd (hrelog []) (hno _)
    | error e => exact .reverts hcall
  | outside he hb =>
    rw [List.append_nil]
    exact .outside (w := c.world logs) he hb

/-! ## Callbacks wait -/

theorem Acts.initialized (h : Acts chain msg w op w') : w'.storage.initialized = w.storage.initialized := by
  cases h with
  | owner _ _ ho => cases ho <;> rfl
  | _ => rfl

/-- What a callback does to the core. -/
theorem CoreStep.callback {c c' : Core X} {b : Bool} {es : List Event}
    (h : CoreStep chain c ((.call msg (.rawFulfillRandomness id r), b), es) c') : b = true ∧
      c.storage.initialized = true ∧ FulfilChecks msg id (c.world []) ∧ c' = (seeded id r (c.world [])).core ∧
      es = [.requestFulfilled id r] := by
  cases h with
  | acts hinit ha =>
    obtain ⟨hc, hw⟩ := rawFulfillRandomness_ok_iff.1 ha.succeeds
    exact ⟨rfl, hinit, hc, congrArg World.core hw, congrArg World.logs hw⟩
  | reverts _ hop => exact absurd rfl (hop _ _)

/-- **Callbacks wait for all other steps.** -/
theorem callbacks_wait : Lts.Waits (CoreStep chain) fun i => i.1.1.isCallback := by
  rintro c ⟨⟨l, b⟩, es⟩ c₁ ⟨⟨l', b'⟩, es'⟩ c₂ hl hl' h₁ h₂
  obtain ⟨msg, id, r, rfl⟩ : ∃ msg id r, l = .call msg (.rawFulfillRandomness id r) := by
    cases l with
    | outside => cases hl
    | call msg op => cases op <;> first | exact ⟨_, _, _, rfl⟩ | cases hl
  obtain ⟨rfl, hinit, hc, rfl, rfl⟩ := h₁.callback
  cases h₂ with
  | acts hinit₁ ha =>
    rename_i msg' op
    have hop : ∀ id' r', op ≠ .rawFulfillRandomness id' r' := by
      rintro id' r' rfl
      cases hl'
    obtain ⟨w₁, ha₁, hc₁, hw₁⟩ := Acts.before_seed (r := r) hc ha hop
    have hlogs : es' = w₁.logs := congrArg World.logs hw₁
    have hcore : c₂ = (seeded id r w₁).core := congrArg World.core hw₁
    subst hlogs hcore
    refine ⟨w₁.core, .acts hinit ha₁, .acts ?_ ?_⟩
    · exact ha₁.initialized.trans hinit
    · exact .fulfil (w := w₁.core.world []) (hc₁.congr rfl rfl)
  | reverts hinit₁ hop hno =>
    -- a call that reverts after the seed has come in reverts before
    refine ⟨c, .reverts hinit hop ?_, .acts hinit (.fulfil (hc.congr rfl rfl))⟩
    intro w' ha
    obtain ⟨w₁, ha₁⟩ := ha.after_seed id r hop
    exact hno w₁ ha₁
  | outside he hb =>
    exact ⟨_, .outside he hb, .acts hinit (.fulfil (w := (Core.mk c.storage _ _).world []) (hc.congr rfl rfl))⟩

/-! ## Runs -/

/-- A run is one of the core, without the callbacks that revert. -/
theorem run_core {ts : List (Label × Bool)} (h : Reachable chain w) (hrun : Lts.Run (TracedStep chain) w ts w') :
    ∃ is : List ((Label × Bool) × List Event), is.map Prod.fst = ts.filter kept ∧
      Lts.Run (CoreStep chain) w.core is w'.core ∧ w'.logs = w.logs ++ is.flatMap Prod.snd := by
  induction hrun with
  | nil => exact ⟨[], rfl, .nil _, (List.append_nil _).symm⟩
  | cons hs _ ih =>
    obtain ⟨is, hmap, hcore, hlogs⟩ := ih (h.snoc (step_iff_traced.2 ⟨_, hs⟩))
    rcases hs.core (Reachable.fixed h).1 with ⟨hkept, es, hstep, hes⟩ | ⟨hkept, rfl⟩
    · refine ⟨(_, es) :: is, ?_, .cons hstep hcore, ?_⟩
      · rw [List.map_cons, hmap, List.filter_cons_of_pos hkept]
      · rw [hlogs, hes, List.flatMap_cons, List.append_assoc]
    · exact ⟨is, by rw [hmap, List.filter_cons_of_neg (by simp [hkept])], hcore, hlogs⟩

/-- A run of the core is a run of the world, with any log. -/
theorem run_world {c c' : Core X} {is : List ((Label × Bool) × List Event)} (h : Lts.Run (CoreStep chain) c is c')
    (logs : List Event) :
    Lts.Run (TracedStep chain) (c.world logs) (is.map Prod.fst) (c'.world (logs ++ is.flatMap Prod.snd)) := by
  induction h generalizing logs with
  | nil =>
    rw [List.flatMap_nil, List.append_nil]
    exact .nil _
  | cons hs _ ih =>
    rw [List.flatMap_cons, ← List.append_assoc]
    exact .cons (hs.world logs) (ih _)

/-- **Seeds can come in last**: every run is one of steps with outcomes, and if its callbacks are moved behind all other
steps, each of these has the outcome it had, the callbacks that succeeded do so again, in their order, and the run has
the same end and the same events in another order. -/
theorem callbacks_last (h : Reachable chain w) :
    (∀ ls w', Lts.Run (Step chain) w ls w' ↔ ∃ ts, ts.map Prod.fst = ls ∧ Lts.Run (TracedStep chain) w ts w') ∧
    ∀ ts w', Lts.Run (TracedStep chain) w ts w' → ∃ u u',
      Lts.Run (TracedStep chain) w (ts.filter fun t => !t.1.isCallback) u ∧
      Lts.Run (TracedStep chain) u (ts.filter fun t => t.1.isCallback && t.2) u' ∧
      u'.storage = w'.storage ∧ u'.balance = w'.balance ∧ u'.outside = w'.outside ∧ u'.logs.Perm w'.logs := by
  refine ⟨fun _ _ => run_iff_traced, ?_⟩
  intro ts w' hrun
  obtain ⟨is, hmap, hcore, hlogs⟩ := run_core h hrun
  obtain ⟨c, hks, hcs⟩ := Lts.Run.postpone callbacks_wait hcore
  have hothers : (is.filter fun i => !i.1.1.isCallback).map Prod.fst = ts.filter fun t => !t.1.isCallback := by
    rw [← filter_kept_others, ← hmap, List.filter_map]
    rfl
  have hcallbacks : (is.filter fun i => i.1.1.isCallback).map Prod.fst = ts.filter fun t => t.1.isCallback && t.2 := by
    rw [← filter_kept_callbacks, ← hmap, List.filter_map]
    rfl
  have hks' := run_world hks w.logs
  have hcs' := run_world hcs (w.logs ++ (is.filter fun i => !i.1.1.isCallback).flatMap Prod.snd)
  rw [hothers] at hks'
  rw [hcallbacks] at hcs'
  refine ⟨_, _, hks', hcs', rfl, rfl, rfl, ?_⟩
  rw [hlogs, List.append_assoc, ← List.flatMap_append]
  have hperm : ((is.filter fun i => !i.1.1.isCallback) ++ is.filter fun i => i.1.1.isCallback).Perm is :=
    List.perm_append_comm.trans (List.filter_append_perm (fun i => i.1.1.isCallback) is)
  exact (hperm.flatMap_right Prod.snd).append_left w.logs

/-- A seed that comes in before the treasury is changed could have come in after that. -/
theorem callbacks_last_history : ∃ (ts : List (Label × Bool)) (u u' : World Outside),
    ts.map Prod.fst = Deployment.history.map (fun t => .call t.1 t.2) ∧
    Lts.Run (TracedStep Deployment.chain) Deployment.genesis (ts.filter fun t => !t.1.isCallback) u ∧
    Lts.Run (TracedStep Deployment.chain) u (ts.filter fun t => t.1.isCallback && t.2) u' ∧
    (u'.storage.mintRequests 0).randomNumber = 5 ∧ u'.storage.treasury = 0x51 := by
  obtain ⟨htraced, hlast⟩ := callbacks_last (Lts.Reachable.of_start Deployment.genesis_deployed)
  obtain ⟨ts, hts, hrun⟩ := (htraced _ _).1
    (run_transactions Deployment.chain Deployment.history Deployment.genesis)
  obtain ⟨u, u', hrun₁, hrun₂, hstorage, -⟩ := hlast ts _ hrun
  refine ⟨ts, u, u', hts, hrun₁, hrun₂, ?_, ?_⟩
  · rw [hstorage]
    decide
  · rw [hstorage]
    decide

end Minter
end Illuvitars
