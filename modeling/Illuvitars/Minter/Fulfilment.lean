import Illuvitars.Minter.FlatResults

/-!
# Fulfilment happens once

A request counts as fulfilled when its random number is not zero. So the callback is final exactly when neither it nor
an earlier one for the request delivers zero (`fulfilledOnce_iff`): after a zero the request is still open, unreadable,
and can be fulfilled again (`fulfilled_twice`).

* `deliveries` reads the values delivered for an id off the events;
* `Effect.deliveries`, `Step.delivered`: what one step does to them;
* `Delivered` holds wherever no zero has been delivered (`delivered_reachable`).
-/

namespace Illuvitars
namespace Minter

open Evm

variable {X : Type} {chain : Chain X} {w w' w₀ w₁ : World X} {id : Bytes32} {r : Uint256}

/-- The value that an event delivers for `id`. -/
def Event.delivery (id : Bytes32) : Event → Option Uint256
  | .requestFulfilled id' r => if id' = id then some r else none
  | _ => none

/-- The values delivered for `id`, in order. -/
def deliveries (id : Bytes32) (logs : List Event) : List Uint256 := logs.filterMap (Event.delivery id)

theorem deliveries_append (l l' : List Event) : deliveries id (l ++ l') = deliveries id l ++ deliveries id l' :=
  List.filterMap_append

theorem deliveries_admin {evs : List Event} (h : ∀ e ∈ evs, e.Admin) : deliveries id evs = [] := by
  rw [deliveries, List.filterMap_eq_nil_iff]
  intro e he
  have := h e he
  cases e <;> simp_all [Event.Admin, Event.delivery]

/-! ## One step -/

/-- A call delivers a value for `id` to a request whose random number is zero, or leaves its random number alone. -/
theorem Effect.deliveries {msg : Msg} {op : Op} (h : Effect chain msg w op w') (id : Bytes32) :
    (∃ r, op = .rawFulfillRandomness id r ∧ (w.storage.mintRequests id).randomNumber = 0 ∧
      Minter.deliveries id w'.logs = Minter.deliveries id w.logs ++ [r] ∧
      (w'.storage.mintRequests id).randomNumber = r) ∨
    (Minter.deliveries id w'.logs = Minter.deliveries id w.logs ∧
      (w'.storage.mintRequests id).randomNumber = (w.storage.mintRequests id).randomNumber) := by
  cases h with
  | @paidMint ps ss fs useSIlv x₁ x₂ hc hpay =>
    refine .inr ⟨by simp [paidWorld, Minter.deliveries, Event.delivery], ?_⟩
    -- the new record keeps the random number of its slot
    by_cases he : id = nextRequestId chain w.storage
    · subst he
      simp [paidWorld, recordFor, MintRequest.withPortraits, MintRequest.withAccessories]
    · simp [paidWorld, advance, he]
  | freeMint => exact .inr ⟨by simp [freeWorld, Minter.deliveries, Event.delivery], rfl⟩
  | @fulfil id' r hc =>
    by_cases he : id' = id
    · subst he
      exact .inl ⟨r, rfl, hc.unfulfilled, by simp [fulfilledWorld, Minter.deliveries, Event.delivery],
        by simp [fulfilledWorld]⟩
    · refine .inr ⟨by simp [fulfilledWorld, Minter.deliveries, Event.delivery, he], ?_⟩
      simp [fulfilledWorld, Function.update_of_ne (Ne.symm he)]
  | setPortraitMintInfo => exact .inr ⟨rfl, rfl⟩
  | setAccessoryMintInfo => exact .inr ⟨rfl, rfl⟩
  | admin _ hs _ hl he =>
    obtain ⟨_, _, _, _, _, hs⟩ := hs
    refine .inr ⟨?_, by rw [hs]⟩
    rw [hl, deliveries_append, deliveries_admin he, List.append_nil]

/-- The same for a step. -/
theorem Step.delivered {l : Label} (h : Step chain w l w') (hw : w.storage.initialized = true) (id : Bytes32) :
    (∃ msg r, l = .call msg (.rawFulfillRandomness id r) ∧ (w.storage.mintRequests id).randomNumber = 0 ∧
      deliveries id w'.logs = deliveries id w.logs ++ [r] ∧ (w'.storage.mintRequests id).randomNumber = r) ∨
    (deliveries id w'.logs = deliveries id w.logs ∧
      (w'.storage.mintRequests id).randomNumber = (w.storage.mintRequests id).randomNumber) := by
  rcases step_cases h hw with ⟨msg, op, rfl, -, he⟩ | ⟨hs, hl, -⟩
  · rcases he.deliveries id with ⟨r, rfl, h0, hd, hr⟩ | hsame
    · exact .inl ⟨msg, r, rfl, h0, hd, hr⟩
    · exact .inr hsame
  · exact .inr ⟨by rw [hl], by rw [hs]⟩

/-! ## Runs -/

/-- Nothing has been delivered for `id` and its random number is zero, or one value has and it is not zero. -/
def Delivered (id : Bytes32) (w : World X) : Prop :=
  (deliveries id w.logs = [] ∧ (w.storage.mintRequests id).randomNumber = 0) ∨
    ∃ r, r ≠ 0 ∧ deliveries id w.logs = [r] ∧ (w.storage.mintRequests id).randomNumber = r

theorem delivered_deployed (h : Deployed chain w) (id : Bytes32) : Delivered id w := by
  obtain ⟨msg, p, x, -, hw⟩ := h
  obtain ⟨hs, hl, -⟩ := initializeMinter_ok hw
  exact .inl ⟨by rw [hl]; rfl, by rw [hs]; rfl⟩

/-- A step after which no zero has been delivered keeps the invariant. -/
theorem Step.keeps_delivered {l : Label} (h : Step chain w l w') (hw : w.storage.initialized = true)
    (hzero : 0 ∉ deliveries id w'.logs) (hI : 0 ∉ deliveries id w.logs → Delivered id w) : Delivered id w' := by
  rcases h.delivered hw id with ⟨msg, r, -, h0, hd, hr⟩ | ⟨hd, hr⟩
  · rw [hd, List.mem_append, not_or] at hzero
    have hne : r ≠ 0 := fun he => hzero.2 (he ▸ List.mem_singleton_self r)
    refine .inr ⟨r, hne, ?_, hr⟩
    -- a value that is not zero would have closed the request
    rcases hI hzero.1 with ⟨hnil, -⟩ | ⟨r', hr', -, hrn⟩
    · rw [hd, hnil, List.nil_append]
    · exact absurd (hrn.symm.trans h0) hr'
  · have hold := hI (hd ▸ hzero)
    rwa [Delivered, ← hd, ← hr] at hold

/-- Where no zero has been delivered for an id, at most one value has. -/
theorem delivered_reachable (h : Reachable chain w) (hzero : 0 ∉ deliveries id w.logs) : Delivered id w := by
  refine Lts.Reachable.invariant (I := fun u => 0 ∉ deliveries id u.logs → Delivered id u) ?_ ?_ h hzero
  · intro u hu _
    exact delivered_deployed hu id
  · intro u l u' hu hI hs hzero'
    exact hs.keeps_delivered (Reachable.fixed hu).1 hzero' hI

/-- As long as nothing has been delivered for an id, its random number is zero. -/
theorem undelivered_zero (h : Reachable chain w) (hnil : deliveries id w.logs = []) :
    (w.storage.mintRequests id).randomNumber = 0 := by
  refine Lts.Reachable.invariant
    (I := fun u => deliveries id u.logs = [] → (u.storage.mintRequests id).randomNumber = 0) ?_ ?_ h hnil
  · intro u hu hnil'
    rcases delivered_deployed hu id with ⟨-, hz⟩ | ⟨r, -, hr, -⟩
    · exact hz
    · rw [hnil'] at hr
      cases hr
  · intro u l u' hu hI hs hnil'
    rcases hs.delivered (Reachable.fixed hu).1 id with ⟨_, _, _, _, hd, -⟩ | ⟨hd, hr⟩
    · rw [hd] at hnil'
      exact absurd hnil' (by simp)
    · rw [hr]
      exact hI (hd.symm.trans hnil')

/-- A nonzero random number never changes, and nothing more is delivered for its id. -/
theorem delivered_final {ls : List Label} (h : Reachable chain w) (hr : r ≠ 0)
    (hd : deliveries id w.logs = [r]) (hrn : (w.storage.mintRequests id).randomNumber = r)
    (hrun : Lts.Run (Step chain) w ls w') :
    Reachable chain w' ∧ deliveries id w'.logs = [r] ∧ (w'.storage.mintRequests id).randomNumber = r := by
  refine hrun.invariant (P := fun _ => True) (I := fun u => Reachable chain u ∧ deliveries id u.logs = [r] ∧
    (u.storage.mintRequests id).randomNumber = r) ?_ (fun _ _ => trivial) ⟨h, hd, hrn⟩
  intro u l u' _ hu hs
  obtain ⟨hreach, hdu, hru⟩ := hu
  refine ⟨hreach.snoc hs, ?_⟩
  rcases hs.delivered (Reachable.fixed hreach).1 id with ⟨_, _, _, h0, -, -⟩ | ⟨hd', hr'⟩
  · exact absurd (hru.symm.trans h0) hr
  · rw [hd', hr']
    exact ⟨hdu, hru⟩

/-! ## Fulfilled once -/

/-- The request has been fulfilled with `r`, once and for all. -/
structure FulfilledOnce (chain : Chain X) (id : Bytes32) (r : Uint256) (w : World X) : Prop where
  rejected : ∀ msg r' w', rawFulfillRandomness msg id r' w ≠ .ok w'
  randomNumber : (w.storage.mintRequests id).randomNumber = r
  emitted : deliveries id w.logs = [r]
  readable : getPaidMintResult chain.keccak256 w.storage id ≠ .error (.error "No random number generated")

theorem fulfilledOnce_of_delivered (h : Reachable chain w) (hr : r ≠ 0) (hd : deliveries id w.logs = [r])
    (hrn : (w.storage.mintRequests id).randomNumber = r) : FulfilledOnce chain id r w := by
  refine ⟨?_, hrn, hd, ?_⟩
  · intro msg r' w' hok
    have h0 := (rawFulfillRandomness_ok_iff.1 hok).1.unfulfilled
    exact hr (hrn.symm.trans h0)
  · -- a record with a random number has a requester, so the getter returns
    have hne : (w.storage.mintRequests id).randomNumber ≠ 0 := by rw [hrn]; exact hr
    have hk : Recorded w.storage (.paid id) := by
      by_contra hk
      have hzero : w.storage.mintRequests id = .zero := (ledger_reachable h).empty (.paid id) hk
      rw [hzero] at hne
      exact hne rfl
    obtain ⟨res, hok, -⟩ := Reachable.flat (k := .paid id) h ⟨hk, hne⟩ chain.keccak256
    intro herr
    have : getPaidMintResult chain.keccak256 w.storage id = .ok res := hok
    rw [this] at herr
    cases herr

/-- **A delivery is final iff neither it nor an earlier one for the id is zero**: exactly then the request stays
fulfilled with the value in every world reached afterwards. -/
theorem fulfilledOnce_iff {msg : Msg} (h : Reachable chain w) (hok : rawFulfillRandomness msg id r w = .ok w₁) :
    (∀ js w₂, Lts.Run (Step chain) w₁ js w₂ → FulfilledOnce chain id r w₂) ↔ r ≠ 0 ∧ 0 ∉ deliveries id w.logs := by
  obtain ⟨hc, hw₁⟩ := rawFulfillRandomness_ok_iff.1 hok
  have hcall : call chain msg (.rawFulfillRandomness id r) w = .ok w₁ := hok
  have hrn : (w₁.storage.mintRequests id).randomNumber = r := by
    rw [hw₁]
    simp [fulfilledWorld]
  have hd : deliveries id w₁.logs = deliveries id w.logs ++ [r] := by
    rw [hw₁, fulfilledWorld, deliveries_append]
    simp [deliveries, Event.delivery]
  constructor
  · intro hall
    have hnow := hall [] w₁ (.nil w₁)
    refine ⟨?_, ?_⟩
    · rintro rfl
      -- a request with random number zero is not readable
      have hread := hnow.readable
      rw [getPaidMintResult, require_neg (not_not.2 hrn)] at hread
      exact hread rfl
    · -- an earlier delivery would be a second event
      have hnil : deliveries id w.logs = [] := by
        have hone := hnow.emitted
        rwa [hd, List.append_left_eq_self] at hone
      rw [hnil]
      exact List.not_mem_nil
  · rintro ⟨hr, hzero⟩ js w₂ hjs
    have hnil : deliveries id w.logs = [] := by
      rcases delivered_reachable h hzero with ⟨hnil, -⟩ | ⟨r', hr', -, hrn'⟩
      · exact hnil
      · exact absurd (hrn'.symm.trans hc.unfulfilled) hr'
    rw [hnil, List.nil_append] at hd
    obtain ⟨hreach₂, hd₂, hrn₂⟩ := delivered_final (h.snoc (step_of_call hcall)) hr hd hrn hjs
    exact fulfilledOnce_of_delivered hreach₂ hr hd₂ hrn₂

/-- A request fulfilled with 5 stays fulfilled. -/
theorem fulfilledOnce_five :
    FulfilledOnce Deployment.chain 0 5 (transact Deployment.chain Deployment.coordinator (.rawFulfillRandomness 0 5)
      (transactions Deployment.chain [(Deployment.user 6, .paidMint [⟨.bronze, 2⟩] [] [] false)] Deployment.sale)) := by
  have hok : rawFulfillRandomness Deployment.coordinator 0 5
      (transactions Deployment.chain [(Deployment.user 6, .paidMint [⟨.bronze, 2⟩] [] [] false)] Deployment.sale) =
      .ok (transact Deployment.chain Deployment.coordinator (.rawFulfillRandomness 0 5)
        (transactions Deployment.chain [(Deployment.user 6, .paidMint [⟨.bronze, 2⟩] [] [] false)]
          Deployment.sale)) := rfl
  have hreach := reachable_transactions [(Deployment.user 6, .paidMint [⟨.bronze, 2⟩] [] [] false)]
    Deployment.sale_reachable
  exact (fulfilledOnce_iff hreach hok).2 ⟨by decide, by decide⟩ [] _ (.nil _)

/-- A request fulfilled with 0 is not readable and is fulfilled again. -/
theorem fulfilled_twice :
    ∃ w w₁ w₂, Reachable Deployment.chain w ∧ Recorded w.storage (.paid 0) ∧
      rawFulfillRandomness Deployment.coordinator 0 0 w = .ok w₁ ∧
      getPaidMintResult Deployment.lastWord w₁.storage 0 = .error (.error "No random number generated") ∧
      rawFulfillRandomness Deployment.coordinator 0 5 w₁ = .ok w₂ ∧
      (w₁.storage.mintRequests 0).randomNumber ≠ (w₂.storage.mintRequests 0).randomNumber ∧
      deliveries 0 w₂.logs = [0, 5] := by
  refine ⟨transactions Deployment.chain [(Deployment.user 6, .paidMint [⟨.bronze, 2⟩] [] [] false)] Deployment.sale,
    _, _, reachable_transactions _ Deployment.sale_reachable, by decide, rfl, rfl, rfl, by decide, by decide⟩

end Minter
end Illuvitars
