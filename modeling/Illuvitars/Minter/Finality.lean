import Illuvitars.Minter.FlatResults

/-!
# A revealed result is final

A result is recomputed on every read. What it depends on is the record (`FlatResult.unique`, `AgreeOn`), and no later
operation changes that, except the owner's setters for a box of the request (`Spares`). Free requests hold virtual boxes
only, whose chances cannot be set.

* `Effect.request_seeded`, `Effect.agreeOn`: one call;
* `run_final`: a run;
* `mintResult_final`: the getters.
-/

namespace Illuvitars
namespace Minter

open Evm Fill

variable {X : Type} {chain : Chain X} {w w' : World X} {k : RequestKey} {r : MintRequest}

/-- The step does not set the tables of a box of the record. Setting the tables of virtual boxes is rejected. -/
def Spares (r : MintRequest) : Label → Prop
  | .call _ (.setPortraitMintInfo b _) => ∀ p ∈ r.portraitMintParams, p.boxType ≠ .virtual → p.boxType ≠ b
  | .call _ (.setAccessoryMintInfo b _) =>
    (∀ p ∈ r.accessorySemiRandomMintParams, p.boxType ≠ .virtual → p.boxType ≠ b) ∧
      ∀ p ∈ r.accessoryFullRandomMintParams, p.boxType ≠ .virtual → p.boxType ≠ b
  | _ => True

/-! ## One step -/

/-- A call leaves a request with a seed as it is. -/
theorem Effect.request_seeded {msg : Msg} {op : Op} (h : Effect chain msg w op w') (hL : Ledger w)
    (hk : Seeded w.storage k) : w'.storage.request k = w.storage.request k := by
  rcases request_cases h with ⟨k', ps, ss, fs, seed, hr⟩ | ⟨id, seed, hc, -, hr⟩ | ⟨-, hr⟩
  · have hne : k ≠ k' := fun e => hL.opens_empty hr.opens (e ▸ hk.recorded)
    rw [hr.request_of_ne hne]
  · have hne : k ≠ .paid id := fun e => by
      subst e
      exact hk.2 hc.unfulfilled
    rw [hr, Function.update_of_ne hne]
  · rw [hr]

theorem AgreeOn.trans {s s' s'' : Storage} (h : AgreeOn r s s') (h' : AgreeOn r s' s'') : AgreeOn r s s'' where
  tables := h'.tables.trans h.tables
  portraits p hp hb := (h'.portraits p hp hb).trans (h.portraits p hp hb)
  semi p hp hb := (h'.semi p hp hb).trans (h.semi p hp hb)
  full p hp hb := (h'.full p hp hb).trans (h.full p hp hb)

/-- A call that spares a record changes none of its tables. -/
theorem Effect.agreeOn {msg : Msg} {op : Op} (h : Effect chain msg w op w') (hr : Spares r (.call msg op)) :
    AgreeOn r w.storage w'.storage := by
  cases h with
  | setPortraitMintInfo hb _ =>
    refine ⟨rfl, fun p hp hv => ?_, fun _ _ _ => rfl, fun _ _ _ => rfl⟩
    exact Function.update_of_ne (hr p hp hv) _ _
  | setAccessoryMintInfo hb _ =>
    refine ⟨rfl, fun _ _ _ => rfl, fun p hp hv => ?_, fun p hp hv => ?_⟩
    · exact Function.update_of_ne (hr.1 p hp hv) _ _
    · exact Function.update_of_ne (hr.2 p hp hv) _ _
  | admin _ hs =>
    obtain ⟨_, _, _, _, _, hs⟩ := hs
    rw [hs]
    exact ⟨rfl, fun _ _ _ => rfl, fun _ _ _ => rfl, fun _ _ _ => rfl⟩
  | _ => exact ⟨rfl, fun _ _ _ => rfl, fun _ _ _ => rfl, fun _ _ _ => rfl⟩

/-! ## Runs -/

/-- A run that spares a request with a seed changes neither its record nor its tables. -/
theorem run_final {ls : List Label} (h : Reachable chain w) (hk : Seeded w.storage k)
    (hrun : Lts.Run (Step chain) w ls w') (hls : ∀ l ∈ ls, Spares (w.storage.request k) l) :
    w'.storage.request k = w.storage.request k ∧ Seeded w'.storage k ∧
      AgreeOn (w.storage.request k) w.storage w'.storage := by
  have hI := hrun.invariant (P := Spares (w.storage.request k))
    (I := fun u => Reachable chain u ∧ u.storage.request k = w.storage.request k ∧ Seeded u.storage k ∧
      AgreeOn (w.storage.request k) w.storage u.storage) ?_ hls ⟨h, rfl, hk, .refl _ _⟩
  · exact hI.2
  intro u l u' hl hu hs
  obtain ⟨hreach, hreq, hseed, hagree⟩ := hu
  refine ⟨hreach.snoc hs, ?_⟩
  rcases step_cases hs (Reachable.fixed hreach).1 with ⟨msg, op, rfl, -, he⟩ | ⟨hst, -, -⟩
  · have hsame := he.request_seeded (ledger_reachable hreach) hseed
    refine ⟨hsame.trans hreq, ?_, hagree.trans (he.agreeOn hl)⟩
    cases k with
    | paid id =>
      refine ⟨?_, ?_⟩
      · rw [Recorded, hsame]
        exact hseed.1
      · show (u'.storage.request (.paid id)).randomNumber ≠ 0
        rw [hsame]
        exact hseed.2
    | free idx =>
      show (u'.storage.request (.free idx)).requester ≠ 0
      rw [hsame]
      exact hseed
  · rw [hst]
    exact ⟨hreq, hseed, hagree⟩

/-- The result of a request with a seed is the same after a run that spares it. -/
theorem getMintResult_final {ls : List Label} (h : Reachable chain w) (hk : Seeded w.storage k)
    (hrun : Lts.Run (Step chain) w ls w') (hls : ∀ l ∈ ls, Spares (w.storage.request k) l) (keccak256 : Keccak) :
    ∃ res, getMintResult keccak256 w.storage k = .ok res ∧ getMintResult keccak256 w'.storage k = .ok res := by
  obtain ⟨hreq, hk', hagree⟩ := run_final h hk hrun hls
  obtain ⟨res, hok, hflat⟩ := Reachable.flat h hk keccak256
  obtain ⟨res', hok', hflat'⟩ := Reachable.flat (Lts.Reachable.run h hrun) hk' keccak256
  rw [hreq] at hflat'
  have heq : res = res' := hflat.unique (.refl _) hagree hflat'
  exact ⟨res, hok, heq ▸ hok'⟩

/-- A free request is spared by every call that succeeds, since its boxes are virtual. -/
theorem WellFormed.spares (h : WellFormed true r) (l : Label) : Spares r l := by
  unfold Spares
  split
  · exact fun p hp hv => absurd ((h.portraits p hp).2.1 rfl) hv
  · exact ⟨fun p hp hv => absurd ((h.semi p hp).2.1 rfl) hv, fun p hp hv => absurd ((h.full p hp).2.1 rfl) hv⟩
  · trivial

/-- A paid result that can be read belongs to a request with a seed. -/
theorem Ledger.seeded_of_ok {keccak256 : Keccak} {id : Bytes32} {res : MintResult} (hL : Ledger w)
    (h : getPaidMintResult keccak256 w.storage id = .ok res) : Seeded w.storage (.paid id) := by
  simp only [getPaidMintResult, bind_ok_iff, require_ok_iff, exists_const] at h
  refine ⟨?_, h.1⟩
  by_contra hk
  have hzero : w.storage.mintRequests id = .zero := hL.empty (.paid id) hk
  rw [hzero] at h
  exact h.1 rfl

/-- **A revealed result is final**: a paid one while the owner spares its boxes, a free one always. -/
theorem mintResult_final {ls : List Label} (h : Reachable chain w) (hrun : Lts.Run (Step chain) w ls w') :
    (∀ id res, getPaidMintResult chain.keccak256 w.storage id = .ok res →
      (∀ l ∈ ls, Spares (w.storage.mintRequests id) l) →
      getPaidMintResult chain.keccak256 w'.storage id = .ok res) ∧
    ∀ idx, Recorded w.storage (.free idx) → ∃ res, getFreeMintResult chain.keccak256 w.storage idx = .ok res ∧
      getFreeMintResult chain.keccak256 w'.storage idx = .ok res := by
  constructor
  · intro id res hres hls
    have hk := (ledger_reachable h).seeded_of_ok hres
    obtain ⟨res', hok, hok'⟩ := getMintResult_final h hk hrun hls chain.keccak256
    have heq : res = res' := Except.ok.inj (hres.symm.trans hok)
    rw [heq]
    exact hok'
  · intro idx hidx
    have hwf := (ledger_reachable h).wellFormed (.free idx) hidx
    exact getMintResult_final (k := .free idx) h hidx hrun (fun l _ => hwf.spares l) chain.keccak256

/-- A bronze request stays as it is while the owner changes silver boxes and others mint. -/
theorem mintResult_final_bronze :
    ∃ res, getPaidMintResult Deployment.lastWord (transactions Deployment.chain
        [(Deployment.user 6, .paidMint [⟨.bronze, 2⟩] [] [] false),
         (Deployment.coordinator, .rawFulfillRandomness 0 123456789)] Deployment.sale).storage 0 = .ok res ∧
      getPaidMintResult Deployment.lastWord (transactions Deployment.chain
        [(Deployment.owner, .setPortraitMintInfo .silver ⟨1, #v[0, 0, 0, 0], 10000⟩),
         (Deployment.user 0, .freeMint [⟨.virtual, 1⟩] [] []),
         (Deployment.coordinator, .rawFulfillRandomness 0 987654321)]
        (transactions Deployment.chain
          [(Deployment.user 6, .paidMint [⟨.bronze, 2⟩] [] [] false),
           (Deployment.coordinator, .rawFulfillRandomness 0 123456789)] Deployment.sale)).storage 0 = .ok res := by
  refine ⟨_, rfl, (mintResult_final (reachable_transactions
    [(Deployment.user 6, .paidMint [⟨.bronze, 2⟩] [] [] false),
     (Deployment.coordinator, .rawFulfillRandomness 0 123456789)] Deployment.sale_reachable)
    (run_transactions Deployment.chain _ _)).1 0 _ rfl ?_⟩
  intro l hl
  simp only [List.map_cons, List.map_nil, List.mem_cons, List.not_mem_nil, or_false] at hl
  rcases hl with rfl | rfl | rfl
  · show ∀ p ∈ [PortraitMintParams.mk .bronze 2], p.boxType ≠ .virtual → p.boxType ≠ .silver
    decide
  · trivial
  · trivial

end Minter
end Illuvitars
