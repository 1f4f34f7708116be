import Illuvitars.Minter.FlatResults

/-!
# A fulfilled request can be read

In every reachable world, and for every seed, the getters do not revert, and every item they return is declared in the
tables. The totals and token ids come from the ledger, the draws from the consistency of the tables.
-/

namespace Illuvitars
namespace Minter

open Evm Fill

variable {X : Type} {chain : Chain X} {keccak256 : Keccak} {s : Storage} {r : MintRequest} {w : World X}
  {k : RequestKey}

/-! ## The items of a flat result are declared -/

/-- The token id after an item of a list that fits. -/
theorem nextId_of_fits {start amount id : Uint256} {width i : ℕ} (hid : id.toNat = start.toNat + width * i)
    (hi : i < amount.toNat) (hfit : start.toNat + width * amount.toNat < 2 ^ 256) :
    ∃ next : Uint256, next.toNat = id.toNat + width := by
  have hle : width * (i + 1) ≤ width * amount.toNat := Nat.mul_le_mul_left width hi
  rw [Nat.mul_succ] at hle
  exact exists_toNat_eq.2 (by omega)

theorem FlatResult.portraits_declared {res : MintResult} (h : FlatResult keccak256 s r res) (hr : r.Fits)
    (hs : s.tables.Consistent) : ∀ p ∈ res.portraits, p.Declared s.tables := by
  intro p hp
  obtain ⟨i, hi, rfl⟩ := List.getElem_of_mem hp
  have hlen : res.portraits.length = (portraitUnits r).length := h.portraits.length
  obtain ⟨x, next, hx, hid, hok⟩ := h.portraits.item i _ (List.getElem?_eq_getElem (hlen ▸ hi))
  have hxi : res.portraits[i] = x := by
    rw [List.getElem?_eq_getElem hi] at hx
    exact Option.some.inj hx
  have hamount : i < r.portraitAmount.toNat := by
    rw [hr.portraitAmount, ← length_portraitUnits, ← hlen]
    exact hi
  obtain ⟨next', hnext⟩ := nextId_of_fits hid hamount hr.portraitIds
  obtain ⟨p', hp', -, -, hd⟩ := getPortraitInfo_ok keccak256 hs ((nextRandom keccak256)^[i] r.randomNumber)
    (portraitUnits r)[i] hnext
  have heq : p' = x := by
    have := hp'.symm.trans hok
    simp only [Except.ok.injEq, Prod.mk.injEq] at this
    exact this.1
  rw [hxi, ← heq]
  exact hd

theorem FlatResult.accessories_declared {res : MintResult} (h : FlatResult keccak256 s r res) (hr : r.Fits)
    (hs : s.tables.Consistent) : ∀ a ∈ res.accessories, a.Declared := by
  intro a ha
  obtain ⟨i, hi, rfl⟩ := List.getElem_of_mem ha
  have hlen : res.accessories.length = (accessoryUnits r).length := h.accessories.length
  obtain ⟨x, next, hx, hid, hok⟩ := h.accessories.item i _ (List.getElem?_eq_getElem (hlen ▸ hi))
  have hxi : res.accessories[i] = x := by
    rw [List.getElem?_eq_getElem hi] at hx
    exact Option.some.inj hx
  have hamount : i < r.accessoryAmount.toNat := by
    rw [hr.accessoryAmount, ← length_accessoryUnits, ← hlen]
    exact hi
  obtain ⟨next', hnext⟩ := nextId_of_fits hid hamount (by rw [Nat.one_mul]; exact hr.accessoryIds)
  rw [hxi]
  generalize (accessoryUnits r)[i] = u at hok
  cases u with
  | inl p =>
    obtain ⟨a', ha', -, -, -, hd⟩ := getSemiAcccessoryInfo_ok keccak256 hs
      ((nextRandom keccak256)^[i] ((nextRandom keccak256)^[r.portraitAmount.toNat] r.randomNumber)) p hnext
    have heq := ha'.symm.trans hok
    simp only [Except.ok.injEq, Prod.mk.injEq] at heq
    rw [← heq.1]
    exact hd
  | inr p =>
    obtain ⟨a', ha', -, -, hd⟩ := getFullAcccessoryInfo_ok keccak256 hs
      ((nextRandom keccak256)^[i] ((nextRandom keccak256)^[r.portraitAmount.toNat] r.randomNumber)) p hnext
    have heq := ha'.symm.trans hok
    simp only [Except.ok.injEq, Prod.mk.injEq] at heq
    rw [← heq.1]
    exact hd

/-! ## Reading -/

/-- The getter returns, and what it returns is declared. -/
def Readable (keccak256 : Keccak) (s : Storage) (k : RequestKey) : Prop :=
  ∃ res, getMintResult keccak256 s k = .ok res ∧ (∀ p ∈ res.portraits, p.Declared s.tables) ∧
    ∀ a ∈ res.accessories, a.Declared

theorem readable_of_fits (hk : Seeded s k) (hs : s.tables.Consistent) (hr : (s.request k).Fits) :
    Readable keccak256 s k := by
  obtain ⟨res, hok, hflat⟩ := mintResult_flat keccak256 hs hr
  exact ⟨res, by rw [getMintResult_seeded hk, hok], hflat.portraits_declared hr hs,
    hflat.accessories_declared hr hs⟩

/-- **A fulfilled request can always be read**: with the seed it has, and with any other seed it could have got. -/
theorem readable_of_reachable (h : Reachable chain w) (hk : Recorded w.storage k) :
    (Seeded w.storage k → Readable chain.keccak256 w.storage k) ∧
      ∀ seed : Uint256, (k.isFree = false → seed ≠ 0) → Readable chain.keccak256
        (w.storage.setRequest k { w.storage.request k with randomNumber := seed }) k := by
  have hs : w.storage.tables.Consistent := by
    rw [(Reachable.fixed h).2]
    exact initialTables_consistent
  have hfits := (ledger_reachable h).fits hk
  refine ⟨fun hseed => readable_of_fits hseed hs hfits, ?_⟩
  intro seed hseed
  have hreq := request_setRequest w.storage k { w.storage.request k with randomNumber := seed }
  refine readable_of_fits ?_ ?_ ?_
  · have hrec : Recorded (w.storage.setRequest k { w.storage.request k with randomNumber := seed }) k := by
      rw [Recorded, hreq]
      exact hk
    cases k with
    | paid id =>
      refine ⟨hrec, ?_⟩
      show ((w.storage.setRequest (.paid id) _).request (.paid id)).randomNumber ≠ 0
      rw [hreq]
      exact hseed rfl
    | free idx => exact hrec
  · rw [tables_setRequest]
    exact hs
  · rw [hreq]
    exact ⟨hfits.portraitAmount, hfits.accessoryAmount, hfits.portraitIds, hfits.accessoryIds⟩

/-- A free request, with its own seed and with the largest one. -/
theorem readable_of_free_request :
    Readable Deployment.lastWord (transactions Deployment.chain
        [(Deployment.user 0, .freeMint [⟨.virtual, 2⟩] [⟨.body, .virtual, 1⟩] [⟨.virtual, 3⟩])]
        Deployment.sale).storage (.free 0) ∧
      Readable Deployment.lastWord ((transactions Deployment.chain
        [(Deployment.user 0, .freeMint [⟨.virtual, 2⟩] [⟨.body, .virtual, 1⟩] [⟨.virtual, 3⟩])]
        Deployment.sale).storage.setRequest (.free 0) { (transactions Deployment.chain
          [(Deployment.user 0, .freeMint [⟨.virtual, 2⟩] [⟨.body, .virtual, 1⟩] [⟨.virtual, 3⟩])]
          Deployment.sale).storage.request (.free 0) with randomNumber := BitVec.allOnes 256 }) (.free 0) := by
  have h := readable_of_reachable (k := .free 0) (reachable_transactions
    [(Deployment.user 0, .freeMint [⟨.virtual, 2⟩] [⟨.body, .virtual, 1⟩] [⟨.virtual, 3⟩])] Deployment.sale_reachable)
    (by decide)
  exact ⟨h.1 (by decide), h.2 (BitVec.allOnes 256) (fun hf => absurd hf (by decide))⟩

end Minter
end Illuvitars
