import Mathlib.Algebra.Order.Group.Nat
import Illuvitars.Lib.Tiling
import Illuvitars.Minter.Effects

/-!
# The ledger of requests

Paid and free requests live in two mappings; `RequestKey` names a slot of either, `Storage.request` reads it, and the
events give the keys in order of creation (`created`). `Ledger` is the invariant that ties the records, the events and
the counters together:

* the created keys are distinct and are exactly the keys of the records, and a slot without a requester is empty;
* every record is well formed (`WellFormed`): its totals are those of its lists;
* the blocks of token ids, in order of creation, tile the ids handed out so far.

`request_cases` says once what a call can do to the ledger; `ledger_reachable` is the invariant of all runs.
-/

namespace Illuvitars
namespace Minter

open Evm Tiling

/-- A slot of `mintRequests` or of `freeRequests`. -/
inductive RequestKey
  | paid (requestId : Bytes32)
  | free (idx : Uint256)
deriving DecidableEq, Repr

def RequestKey.isFree : RequestKey → Bool
  | .paid _ => false
  | .free _ => true

def Storage.request (s : Storage) : RequestKey → MintRequest
  | .paid id => s.mintRequests id
  | .free idx => s.freeRequests idx

/-- The request that an event announces. -/
def Event.key : Event → Option RequestKey
  | .mintRequested _ id => some (.paid id)
  | .freeMintRequested _ idx => some (.free idx)
  | _ => none

/-- The keys of the requests, in order of creation. -/
def created (logs : List Event) : List RequestKey := logs.filterMap Event.key

/-- The slot holds a request. -/
def Recorded (s : Storage) (k : RequestKey) : Prop := (s.request k).requester ≠ 0

instance (s : Storage) (k : RequestKey) : Decidable (Recorded s k) := inferInstanceAs (Decidable (_ ≠ _))

theorem created_append (l l' : List Event) : created (l ++ l') = created l ++ created l' := List.filterMap_append

theorem created_admin {evs : List Event} (h : ∀ e ∈ evs, e.Admin) : created evs = [] := by
  rw [created, List.filterMap_eq_nil_iff]
  intro e he
  have := h e he
  cases e <;> simp_all [Event.Admin, Event.key]

theorem request_updatePaid (s : Storage) (id : Bytes32) (r : MintRequest) :
    Storage.request { s with mintRequests := Function.update s.mintRequests id r } =
      Function.update s.request (.paid id) r := by
  funext k
  cases k with
  | paid id' =>
    by_cases h : id' = id
    · subst h; simp [Storage.request]
    · simp [Storage.request, h]
  | free idx => simp [Storage.request]

theorem request_updateFree (s : Storage) (idx : Uint256) (r : MintRequest) :
    Storage.request { s with freeRequests := Function.update s.freeRequests idx r } =
      Function.update s.request (.free idx) r := by
  funext k
  cases k with
  | paid id => simp [Storage.request]
  | free idx' =>
    by_cases h : idx' = idx
    · subst h; simp [Storage.request]
    · simp [Storage.request, h]

/-! ## What a call does to the ledger -/

section Cases

variable {X : Type} {chain : Chain X} {msg : Msg} {op : Op} {w w' : World X}

/-- The slot that a new request opens: a paid one without requester, or the next free one. -/
def Opens (s : Storage) : RequestKey → Prop
  | .paid id => (s.mintRequests id).requester = 0
  | .free idx => idx = s.freeRequestCount ∧ s.freeRequestCount.toNat + 1 < 2 ^ 256

/-- A new request with key `k`. -/
structure Requests (msg : Msg) (w w' : World X) (k : RequestKey) (ps : List PortraitMintParams)
    (ss : List AccessorySemiRandomMintParams) (fs : List AccessoryFullRandomMintParams) (seed : Uint256) : Prop where
  opens : Opens w.storage k
  portraits : PortraitChecks w.storage msg.timestamp k.isFree ps
  accessories : AccessoryChecks w.storage k.isFree ss fs
  request : w'.storage.request = Function.update w.storage.request k
    { recordFor msg ps ss fs (w.storage.request k) w.storage with randomNumber := seed }
  created : created w'.logs = created w.logs ++ [k]
  nextPortrait : w'.storage.nextPortraitTokenId.toNat = w.storage.nextPortraitTokenId.toNat + 6 * total ps
  nextAccessory :
    w'.storage.nextAccessoryTokenId.toNat = w.storage.nextAccessoryTokenId.toNat + (total ss + total fs)
  freeCount : w'.storage.freeRequestCount.toNat = w.storage.freeRequestCount.toNat + if k.isFree then 1 else 0

/-- The counters and the created keys are the same. -/
def SameCounters (w w' : World X) : Prop :=
  created w'.logs = created w.logs ∧ w'.storage.nextPortraitTokenId = w.storage.nextPortraitTokenId ∧
    w'.storage.nextAccessoryTokenId = w.storage.nextAccessoryTokenId ∧
    w'.storage.freeRequestCount = w.storage.freeRequestCount

theorem advance_nextPortrait {isFree : Bool} {s : Storage} (ps ss fs) (h : PortraitChecks s msg.timestamp isFree ps) :
    (advance ps ss fs s).nextPortraitTokenId.toNat = s.nextPortraitTokenId.toNat + 6 * total ps := by
  rw [advance, BitVec.toNat_ofNat, Nat.mod_eq_of_lt h.ids]

theorem advance_nextAccessory {isFree : Bool} {s : Storage} (ps ss fs) (h : AccessoryChecks s isFree ss fs) :
    (advance ps ss fs s).nextAccessoryTokenId.toNat = s.nextAccessoryTokenId.toNat + (total ss + total fs) := by
  rw [advance, BitVec.toNat_ofNat, Nat.mod_eq_of_lt h.ids]

/-- A `paidMint` opens the slot of the next request id. -/
theorem requests_paidWorld {ps ss fs} {x₁ : X} (hc : PaidChecks chain msg ps ss fs w x₁) (x₂ : X) :
    Requests msg w (paidWorld chain msg ps ss fs w x₂) (.paid (nextRequestId chain w.storage)) ps ss fs
      (w.storage.mintRequests (nextRequestId chain w.storage)).randomNumber where
  opens := hc.fresh
  portraits := hc.portraits
  accessories := hc.accessories
  request := request_updatePaid (advance ps ss fs w.storage) _ _
  created := created_append _ _
  nextPortrait := advance_nextPortrait ps ss fs hc.portraits
  nextAccessory := advance_nextAccessory ps ss fs hc.accessories
  freeCount := rfl

/-- A `freeMint` opens the next free slot. -/
theorem requests_freeWorld {ps ss fs} (hp : PortraitChecks w.storage msg.timestamp true ps)
    (ha : AccessoryChecks w.storage true ss fs) (hn : w.storage.freeRequestCount.toNat + 1 < 2 ^ 256) :
    Requests msg w (freeWorld chain msg ps ss fs w) (.free w.storage.freeRequestCount) ps ss fs
      (chain.keccak256 [BitVec.ofNat 256 (w.storage.freeRequestCount.toNat + 1), msg.timestamp]) where
  opens := ⟨rfl, hn⟩
  portraits := hp
  accessories := ha
  request := request_updateFree (advance ps ss fs w.storage) _ _
  created := created_append _ _
  nextPortrait := advance_nextPortrait ps ss fs hp
  nextAccessory := advance_nextAccessory ps ss fs ha
  freeCount := by
    show (BitVec.ofNat 256 _).toNat = _
    rw [BitVec.toNat_ofNat, Nat.mod_eq_of_lt hn]; rfl

/-- **A call opens one request, fulfils one, or leaves all requests alone.** -/
theorem request_cases (h : Effect chain msg w op w') :
    (∃ k ps ss fs seed, Requests msg w w' k ps ss fs seed) ∨
    (∃ id r, FulfilChecks msg id w ∧ SameCounters w w' ∧
      w'.storage.request = Function.update w.storage.request (.paid id)
        { w.storage.request (.paid id) with randomNumber := r }) ∨
    (SameCounters w w' ∧ w'.storage.request = w.storage.request) := by
  cases h with
  | paidMint hc _ => exact .inl ⟨_, _, _, _, _, requests_paidWorld hc _⟩
  | freeMint hp ha hn => exact .inl ⟨_, _, _, _, _, requests_freeWorld hp ha hn⟩
  | @fulfil id r hc =>
    exact .inr (.inl ⟨id, r, hc, ⟨by simp [fulfilledWorld, created, Event.key], rfl, rfl, rfl⟩,
      request_updatePaid w.storage _ _⟩)
  | setPortraitMintInfo => exact .inr (.inr ⟨⟨rfl, rfl, rfl, rfl⟩, rfl⟩)
  | setAccessoryMintInfo => exact .inr (.inr ⟨⟨rfl, rfl, rfl, rfl⟩, rfl⟩)
  | admin _ hs _ hl he =>
    obtain ⟨_, _, _, _, _, hs⟩ := hs
    refine .inr (.inr ⟨⟨?_, ?_⟩, ?_⟩)
    · rw [hl, created_append, created_admin he, List.append_nil]
    · rw [hs]; exact ⟨rfl, rfl, rfl⟩
    · rw [hs]; rfl

end Cases

/-! ## The invariant -/

/-- A record whose totals are those of its lists, with virtual boxes exactly in free requests. -/
structure WellFormed (isFree : Bool) (r : MintRequest) : Prop where
  portraits : ParamsOk isFree r.portraitMintParams
  semi : ParamsOk isFree r.accessorySemiRandomMintParams
  full : ParamsOk isFree r.accessoryFullRandomMintParams
  portraitAmount : r.portraitAmount.toNat = total r.portraitMintParams
  accessoryAmount :
    r.accessoryAmount.toNat = total r.accessorySemiRandomMintParams + total r.accessoryFullRandomMintParams

/-- The ids reserved for the portraits of a request. -/
def portraitBlock (r : MintRequest) : ℕ × ℕ := (r.portraitStartTokenId.toNat, 6 * r.portraitAmount.toNat)

/-- The ids reserved for the accessories of a request. -/
def accessoryBlock (r : MintRequest) : ℕ × ℕ := (r.accessoryStartTokenId.toNat, r.accessoryAmount.toNat)

structure Ledger {X : Type} (w : World X) : Prop where
  nodup : (created w.logs).Nodup
  recorded : ∀ k, k ∈ created w.logs ↔ Recorded w.storage k
  empty : ∀ k, ¬Recorded w.storage k → w.storage.request k = .zero
  wellFormed : ∀ k, Recorded w.storage k → WellFormed k.isFree (w.storage.request k)
  free : ∀ idx, Recorded w.storage (.free idx) ↔ idx.toNat < w.storage.freeRequestCount.toNat
  portraits : Tiles 1 ((created w.logs).map (fun k => portraitBlock (w.storage.request k)))
    w.storage.nextPortraitTokenId.toNat
  accessories : Tiles 1 ((created w.logs).map (fun k => accessoryBlock (w.storage.request k)))
    w.storage.nextAccessoryTokenId.toNat

section Invariant

variable {X : Type} {chain : Chain X} {msg : Msg} {w w' : World X}

/-- The ids of a recorded request have been handed out. -/
theorem Ledger.ids_le (hL : Ledger w) {k : RequestKey} (hk : Recorded w.storage k) :
    (w.storage.request k).portraitStartTokenId.toNat + 6 * (w.storage.request k).portraitAmount.toNat ≤
        w.storage.nextPortraitTokenId.toNat ∧
      (w.storage.request k).accessoryStartTokenId.toNat + (w.storage.request k).accessoryAmount.toNat ≤
        w.storage.nextAccessoryTokenId.toNat := by
  have hmem := (hL.recorded k).2 hk
  constructor
  · exact hL.portraits.end_le _ (List.mem_map_of_mem hmem)
  · exact hL.accessories.end_le _ (List.mem_map_of_mem hmem)

theorem ledger_deployed (h : Deployed chain w) : Ledger w := by
  obtain ⟨msg, p, x, -, hw⟩ := h
  obtain ⟨hs, hl, -⟩ := initializeMinter_ok hw
  have hlogs : created w.logs = [] := by rw [hl]; rfl
  have hreq : ∀ k, w.storage.request k = .zero := by
    intro k
    rw [hs]
    cases k <;> rfl
  have hrec : ∀ k, ¬Recorded w.storage k := fun k => by simp [Recorded, hreq k, MintRequest.zero]
  refine ⟨by simp [hlogs], fun k => ?_, fun k _ => hreq k, fun k hk => absurd hk (hrec k), fun idx => ?_, ?_, ?_⟩
  · simp [hlogs, hrec k]
  · rw [hs]
    exact ⟨fun h => absurd rfl h, fun h => absurd h (Nat.not_lt_zero _)⟩
  · rw [hlogs, hs]; rfl
  · rw [hlogs, hs]; rfl

/-- A slot that a request opens is empty. -/
theorem Ledger.opens_empty (hL : Ledger w) {k : RequestKey} (h : Opens w.storage k) : ¬Recorded w.storage k := by
  cases k with
  | paid id => exact fun hk => hk h
  | free idx =>
    rw [hL.free idx, h.1]
    exact lt_irrefl _

/-- The record of a request opened in an empty slot. -/
def opened (msg : Msg) (ps : List PortraitMintParams) (ss : List AccessorySemiRandomMintParams)
    (fs : List AccessoryFullRandomMintParams) (seed : Uint256) (s : Storage) : MintRequest where
  requester := msg.sender
  portraitMintParams := ps
  portraitAmount := BitVec.ofNat 256 (total ps)
  accessorySemiRandomMintParams := ss
  accessoryFullRandomMintParams := fs
  accessoryAmount := BitVec.ofNat 256 (total ss + total fs)
  randomNumber := seed
  portraitStartTokenId := s.nextPortraitTokenId
  accessoryStartTokenId := s.nextAccessoryTokenId

section Requests

variable {k k' : RequestKey} {ps : List PortraitMintParams} {ss : List AccessorySemiRandomMintParams}
  {fs : List AccessoryFullRandomMintParams} {seed : Uint256}

/-- A request leaves the other slots alone. -/
theorem Requests.request_of_ne (h : Requests msg w w' k ps ss fs seed) (hne : k' ≠ k) :
    w'.storage.request k' = w.storage.request k' := by
  rw [h.request, Function.update_of_ne hne]

theorem Requests.recorded_of_ne (h : Requests msg w w' k ps ss fs seed) (hne : k' ≠ k) :
    Recorded w'.storage k' ↔ Recorded w.storage k' := by
  rw [Recorded, Recorded, h.request_of_ne hne]

/-- Its totals fit. -/
theorem Requests.portraitTotal (h : Requests msg w w' k ps ss fs seed) :
    (BitVec.ofNat 256 (total ps)).toNat = total ps := by
  have := h.portraits.ids
  rw [BitVec.toNat_ofNat, Nat.mod_eq_of_lt (by omega)]

theorem Requests.accessoryTotal (h : Requests msg w w' k ps ss fs seed) :
    (BitVec.ofNat 256 (total ss + total fs)).toNat = total ss + total fs := by
  have := h.accessories.ids
  rw [BitVec.toNat_ofNat, Nat.mod_eq_of_lt (by omega)]

/-- In its own slot, which was empty, a request leaves its own data only. -/
theorem Ledger.opened (hL : Ledger w) (h : Requests msg w w' k ps ss fs seed) :
    w'.storage.request k = Minter.opened msg ps ss fs seed w.storage := by
  rw [h.request, Function.update_self, hL.empty k (hL.opens_empty h.opens)]
  rfl

theorem Ledger.recorded_opened (hL : Ledger w) (h : Requests msg w w' k ps ss fs seed) : Recorded w'.storage k := by
  rw [Recorded, hL.opened h]
  exact msg.sender_ne_zero

/-- The free records stay those below the count. -/
theorem Ledger.free_requests (hL : Ledger w) (h : Requests msg w w' k ps ss fs seed) (idx : Uint256) :
    Recorded w'.storage (.free idx) ↔ idx.toNat < w'.storage.freeRequestCount.toNat := by
  rw [h.freeCount]
  cases k with
  | paid id =>
    rw [h.recorded_of_ne (by simp), hL.free idx]
    simp [RequestKey.isFree]
  | free idx₀ =>
    obtain ⟨rfl, -⟩ := h.opens
    simp only [RequestKey.isFree, if_true]
    by_cases he : idx = w.storage.freeRequestCount
    · subst he
      exact ⟨fun _ => Nat.lt_succ_self _, fun _ => hL.recorded_opened h⟩
    · rw [h.recorded_of_ne (by simpa using he), hL.free idx]
      have : idx.toNat ≠ w.storage.freeRequestCount.toNat := fun e => he (BitVec.eq_of_toNat_eq e)
      omega

/-- Opening a request keeps the ledger. -/
theorem Ledger.requests (hL : Ledger w) (h : Requests msg w w' k ps ss fs seed) : Ledger w' := by
  have hk : ¬Recorded w.storage k := hL.opens_empty h.opens
  have hself := hL.opened h
  have hrec := hL.recorded_opened h
  have hmem : k ∉ created w.logs := fun hm => hk ((hL.recorded k).1 hm)
  have hmap : ∀ f : MintRequest → ℕ × ℕ, (created w.logs).map (fun k' => f (w'.storage.request k')) =
      (created w.logs).map (fun k' => f (w.storage.request k')) := fun f =>
    List.map_congr_left fun k' hk' => by rw [h.request_of_ne (fun e => hmem (e ▸ hk'))]
  refine ⟨?_, fun k' => ?_, fun k' hk' => ?_, fun k' hk' => ?_, hL.free_requests h, ?_, ?_⟩
  · rw [h.created, List.nodup_append]
    exact ⟨hL.nodup, by simp, fun a ha b hb => by
      rw [List.mem_singleton.1 hb]; exact fun e => hmem (e ▸ ha)⟩
  · rw [h.created, List.mem_append, List.mem_singleton]
    by_cases he : k' = k
    · subst he; simp [hrec]
    · simp [he, h.recorded_of_ne he, hL.recorded k']
  · have he : k' ≠ k := fun e => hk' (e ▸ hrec)
    rw [h.request_of_ne he]
    exact hL.empty k' (fun hr => hk' ((h.recorded_of_ne he).2 hr))
  · by_cases he : k' = k
    · subst he
      rw [hself]
      exact ⟨h.portraits.params, h.accessories.semi, h.accessories.full, h.portraitTotal, h.accessoryTotal⟩
    · rw [h.request_of_ne he]
      exact hL.wellFormed k' ((h.recorded_of_ne he).1 hk')
  · rw [h.created, List.map_append, hmap portraitBlock, h.nextPortrait]
    have hb : portraitBlock (w'.storage.request k) = (w.storage.nextPortraitTokenId.toNat, 6 * total ps) := by
      rw [hself]; exact congrArg (fun n => (w.storage.nextPortraitTokenId.toNat, 6 * n)) h.portraitTotal
    simpa [hb] using hL.portraits.snoc (n := 6 * total ps)
  · rw [h.created, List.map_append, hmap accessoryBlock, h.nextAccessory]
    have hb : accessoryBlock (w'.storage.request k) =
        (w.storage.nextAccessoryTokenId.toNat, total ss + total fs) := by
      rw [hself]; exact congrArg (fun n => (w.storage.nextAccessoryTokenId.toNat, n)) h.accessoryTotal
    simpa [hb] using hL.accessories.snoc (n := total ss + total fs)

end Requests

/-- Requests that differ in their seeds only. -/
theorem Ledger.seeds (hL : Ledger w) (hc : SameCounters w w')
    (h : ∀ k, ∃ seed, w'.storage.request k = { w.storage.request k with randomNumber := seed })
    (he : ∀ k, ¬Recorded w.storage k → w'.storage.request k = w.storage.request k) : Ledger w' := by
  obtain ⟨hl, hp, ha, hf⟩ := hc
  have hrec : ∀ k, Recorded w'.storage k ↔ Recorded w.storage k := fun k => by
    obtain ⟨seed, hk⟩ := h k
    rw [Recorded, Recorded, hk]
  have hblock : ∀ f : MintRequest → ℕ × ℕ, (∀ r seed, f { r with randomNumber := seed } = f r) →
      (created w'.logs).map (fun k => f (w'.storage.request k)) =
        (created w.logs).map (fun k => f (w.storage.request k)) := fun f hf => by
    rw [hl]
    refine List.map_congr_left fun k _ => ?_
    obtain ⟨seed, hk⟩ := h k
    rw [hk, hf]
  refine ⟨by rw [hl]; exact hL.nodup, fun k => by rw [hl, hL.recorded k, hrec k], fun k hk => ?_, fun k hk => ?_,
    fun idx => by rw [hrec, hL.free idx, hf], ?_, ?_⟩
  · rw [hrec k] at hk
    rw [he k hk, hL.empty k hk]
  · obtain ⟨seed, hs⟩ := h k
    have hw := hL.wellFormed k ((hrec k).1 hk)
    rw [hs]
    exact ⟨hw.portraits, hw.semi, hw.full, hw.portraitAmount, hw.accessoryAmount⟩
  · rw [hblock portraitBlock (fun _ _ => rfl), hp]; exact hL.portraits
  · rw [hblock accessoryBlock (fun _ _ => rfl), ha]; exact hL.accessories

/-- Every successful call keeps the ledger. -/
theorem Ledger.effect {op : Op} (hL : Ledger w) (h : Effect chain msg w op w') : Ledger w' := by
  rcases request_cases h with ⟨k, ps, ss, fs, seed, hr⟩ | ⟨id, r, hc, hcount, hr⟩ | ⟨hcount, hr⟩
  · exact hL.requests hr
  · refine hL.seeds hcount (fun k => ?_) (fun k hk => ?_)
    · by_cases hk : k = .paid id
      · subst hk; exact ⟨r, by rw [hr, Function.update_self]⟩
      · exact ⟨_, by rw [hr, Function.update_of_ne hk]⟩
    · have hne : k ≠ .paid id := fun e => hk (e ▸ hc.exist)
      rw [hr, Function.update_of_ne hne]
  · exact hL.seeds hcount (fun k => ⟨_, by rw [hr]⟩) (fun k _ => by rw [hr])

/-- **The ledger invariant of all runs.** -/
theorem ledger_reachable (h : Reachable chain w) : Ledger w := by
  refine Lts.Reachable.invariant (I := Ledger) (fun hd => ledger_deployed hd) ?_ h
  intro w l w' hw hL hs
  rcases step_cases hs (Reachable.fixed hw).1 with ⟨_, _, _, _, he⟩ | ⟨hst, hl, -⟩
  · exact hL.effect he
  · exact hL.seeds ⟨by rw [hl], by rw [hst], by rw [hst], by rw [hst]⟩ (fun k => ⟨_, by rw [hst]⟩)
      (fun k _ => by rw [hst])

end Invariant

end Minter
end Illuvitars
