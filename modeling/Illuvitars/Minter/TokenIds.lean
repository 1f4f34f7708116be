import Illuvitars.Minter.Ledger
import Illuvitars.Minter.Outside

/-!
# Token ids

Token ids are neither handed out twice nor skipped: in every reachable world the blocks of the recorded requests, paid
and free together in order of creation, tile the ids below the counters (`TokenIds`). The arithmetic is that of ℕ, so
no counter has wrapped.
-/

namespace Illuvitars
namespace Minter

open Evm Tiling

variable {X : Type} {chain : Chain X} {w w' : World X}

/-- The ids of the `i`-th portrait of a request. -/
def portraitIds (r : MintRequest) (i : ℕ) : Set ℕ :=
  Set.Ico (r.portraitStartTokenId.toNat + 6 * i) (r.portraitStartTokenId.toNat + 6 * i + 6)

/-- The ids of a portrait lie in the block of its request. -/
theorem portraitIds_subset {r : MintRequest} {i : ℕ} (hi : i < r.portraitAmount.toNat) :
    portraitIds r i ⊆ block (portraitBlock r) := by
  intro id hid
  obtain ⟨h1, h2⟩ := hid
  constructor
  · exact le_trans (Nat.le_add_right _ _) h1
  · show id < r.portraitStartTokenId.toNat + 6 * r.portraitAmount.toNat
    omega

/-- What holds of the token ids in every reachable world. -/
structure TokenIds (chain : Chain X) (w : World X) : Prop where
  /-- The keys in order of creation are those of the recorded requests. -/
  nodup : (created w.logs).Nodup
  recorded : ∀ k, k ∈ created w.logs ↔ Recorded w.storage k
  portraits : Tiles 1 ((created w.logs).map fun k => portraitBlock (w.storage.request k))
    w.storage.nextPortraitTokenId.toNat
  portraits_disjoint : ∀ k k', Recorded w.storage k → Recorded w.storage k' → k ≠ k' →
    Disjoint (block (portraitBlock (w.storage.request k))) (block (portraitBlock (w.storage.request k')))
  portraits_cover : ∀ id : ℕ, (1 ≤ id ∧ id < w.storage.nextPortraitTokenId.toNat) ↔
    ∃ k, Recorded w.storage k ∧ id ∈ block (portraitBlock (w.storage.request k))
  base : ∀ k, Recorded w.storage k → ∀ i < (w.storage.request k).portraitAmount.toNat,
    (w.storage.request k).portraitStartTokenId.toNat + 6 * i ≡ 1 [MOD 6]
  alone : ∀ k k' i i' id, Recorded w.storage k → Recorded w.storage k' →
    i < (w.storage.request k).portraitAmount.toNat → i' < (w.storage.request k').portraitAmount.toNat →
    id ∈ portraitIds (w.storage.request k) i → id ∈ portraitIds (w.storage.request k') i' → k = k' ∧ i = i'
  accessories : Tiles 1 ((created w.logs).map fun k => accessoryBlock (w.storage.request k))
    w.storage.nextAccessoryTokenId.toNat
  accessories_disjoint : ∀ k k', Recorded w.storage k → Recorded w.storage k' → k ≠ k' →
    Disjoint (block (accessoryBlock (w.storage.request k))) (block (accessoryBlock (w.storage.request k')))
  accessories_cover : ∀ id : ℕ, (1 ≤ id ∧ id < w.storage.nextAccessoryTokenId.toNat) ↔
    ∃ k, Recorded w.storage k ∧ id ∈ block (accessoryBlock (w.storage.request k))
  /-- The sums are those of ℕ, and the counters only grow. -/
  amounts : ∀ k, Recorded w.storage k → WellFormed k.isFree (w.storage.request k)
  nextPortrait : w.storage.nextPortraitTokenId.toNat =
    1 + ((created w.logs).map fun k => 6 * (w.storage.request k).portraitAmount.toNat).sum
  nextAccessory : w.storage.nextAccessoryTokenId.toNat =
    1 + ((created w.logs).map fun k => (w.storage.request k).accessoryAmount.toNat).sum
  grows : ∀ l w', Step chain w l w' →
    w.storage.nextPortraitTokenId.toNat ≤ w'.storage.nextPortraitTokenId.toNat ∧
      w.storage.nextAccessoryTokenId.toNat ≤ w'.storage.nextAccessoryTokenId.toNat

/-- No step lowers a counter. -/
theorem Step.counters_le {l : Label} (h : Step chain w l w') (hw : w.storage.initialized = true) :
    w.storage.nextPortraitTokenId.toNat ≤ w'.storage.nextPortraitTokenId.toNat ∧
      w.storage.nextAccessoryTokenId.toNat ≤ w'.storage.nextAccessoryTokenId.toNat := by
  rcases step_cases h hw with ⟨_, _, _, _, he⟩ | ⟨hs, -, -⟩
  · rcases request_cases he with ⟨k, ps, ss, fs, seed, hr⟩ | ⟨_, _, _, ⟨-, hp, ha, -⟩, -⟩ | ⟨⟨-, hp, ha, -⟩, -⟩
    · rw [hr.nextPortrait, hr.nextAccessory]
      exact ⟨Nat.le_add_right _ _, Nat.le_add_right _ _⟩
    · rw [hp, ha]
      exact ⟨le_rfl, le_rfl⟩
    · rw [hp, ha]
      exact ⟨le_rfl, le_rfl⟩
  · rw [hs]
    exact ⟨le_rfl, le_rfl⟩

/-- Every portrait starts at an id congruent to 1. -/
theorem Ledger.base (hL : Ledger w) {k : RequestKey} (hk : Recorded w.storage k) (i : ℕ) :
    (w.storage.request k).portraitStartTokenId.toNat + 6 * i ≡ 1 [MOD 6] := by
  have hmem := List.mem_map_of_mem (f := fun k => portraitBlock (w.storage.request k)) ((hL.recorded k).2 hk)
  have hdvd : ∀ p ∈ (created w.logs).map (fun k => portraitBlock (w.storage.request k)), 6 ∣ p.2 := by
    intro p hp
    obtain ⟨k', -, rfl⟩ := List.mem_map.1 hp
    exact Nat.dvd_mul_right _ _
  have hstart := hL.portraits.modEq hdvd _ hmem
  have h6 : 6 * i ≡ 0 [MOD 6] := Nat.modEq_zero_iff_dvd.2 (Nat.dvd_mul_right 6 i)
  exact hstart.add h6

/-- An id belongs to one portrait only. -/
theorem Ledger.alone (hL : Ledger w) {k k' : RequestKey} {i i' id : ℕ} (hk : Recorded w.storage k)
    (hk' : Recorded w.storage k') (hi : i < (w.storage.request k).portraitAmount.toNat)
    (hi' : i' < (w.storage.request k').portraitAmount.toNat) (hid : id ∈ portraitIds (w.storage.request k) i)
    (hid' : id ∈ portraitIds (w.storage.request k') i') : k = k' ∧ i = i' := by
  have hkk : k = k' := by
    by_contra hne
    have hd := hL.portraits.disjoint_of_ne ((hL.recorded k).2 hk) ((hL.recorded k').2 hk') hne
    exact Set.disjoint_left.1 hd (portraitIds_subset hi hid) (portraitIds_subset hi' hid')
  subst hkk
  obtain ⟨h1, h2⟩ := hid
  obtain ⟨h3, h4⟩ := hid'
  exact ⟨rfl, by omega⟩

/-- **Token ids are never handed out twice and never skipped.** -/
theorem tokenIds_of_reachable (h : Reachable chain w) : TokenIds chain w := by
  have hL := ledger_reachable h
  have hmem : ∀ (p : RequestKey → Prop), (∃ k ∈ created w.logs, p k) ↔ ∃ k, Recorded w.storage k ∧ p k := by
    intro p
    simp only [hL.recorded]
  refine
    { nodup := hL.nodup
      recorded := hL.recorded
      portraits := hL.portraits
      portraits_disjoint := fun k k' hk hk' hne =>
        hL.portraits.disjoint_of_ne ((hL.recorded k).2 hk) ((hL.recorded k').2 hk') hne
      portraits_cover := fun id => (hL.portraits.cover id).trans (hmem _)
      base := fun k hk i _ => hL.base hk i
      alone := fun k k' i i' id hk hk' hi hi' hid hid' => hL.alone hk hk' hi hi' hid hid'
      accessories := hL.accessories
      accessories_disjoint := fun k k' hk hk' hne =>
        hL.accessories.disjoint_of_ne ((hL.recorded k).2 hk) ((hL.recorded k').2 hk') hne
      accessories_cover := fun id => (hL.accessories.cover id).trans (hmem _)
      amounts := hL.wellFormed
      nextPortrait := ?_
      nextAccessory := ?_
      grows := fun l w' hs => hs.counters_le (Reachable.fixed h).1 }
  · rw [hL.portraits.eq_add_sum, List.map_map]
    rfl
  · rw [hL.accessories.eq_add_sum, List.map_map]
    rfl

/-- Two portraits and two accessories bought, then one of each for free. -/
theorem tokenIds_of_two_requests :
    TokenIds Deployment.chain (transactions Deployment.chain
      [(Deployment.user 18, .paidMint [⟨.bronze, 2⟩] [⟨.props, .bronze, 1⟩] [⟨.bronze, 1⟩] false),
       (Deployment.user 0, .freeMint [⟨.virtual, 1⟩] [] [⟨.virtual, 1⟩])] Deployment.sale) ∧
      (transactions Deployment.chain
        [(Deployment.user 18, .paidMint [⟨.bronze, 2⟩] [⟨.props, .bronze, 1⟩] [⟨.bronze, 1⟩] false),
         (Deployment.user 0, .freeMint [⟨.virtual, 1⟩] [] [⟨.virtual, 1⟩])]
        Deployment.sale).storage.nextPortraitTokenId = 19 :=
  ⟨tokenIds_of_reachable (reachable_transactions _ Deployment.sale_reachable), by decide⟩

end Minter
end Illuvitars
