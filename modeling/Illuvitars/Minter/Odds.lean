import Illuvitars.Lib.Chances
import Illuvitars.Minter.Items
import Illuvitars.Minter.Outside

/-!
# The odds of the accessories

The draws of an item are the digits of its random number, so their odds are a matter of counting. In a block of 10⁸
consecutive seeds the first two draws of a chance are independent and uniform, and a table of chances that the setters
accept gives every tier its width.

* `tierChances_reachable`: in a reachable world all tables are acceptable;
* `getTier_toNat`, `accessoryStage_iff`: a draw is the rank of the chance in its table;
* `accessory_odds`: how many seeds of a block give an accessory of a tier, a type and a stage.
-/

namespace Illuvitars
namespace Minter

open Evm Chances

variable {X : Type} {chain : Chain X} {s : Storage} {w : World X} {rand q : Uint256} {t : Vector Uint16 TIER_CHANCE_LEN}

/-! ## The tables -/

/-- The entries of a table, as numbers. -/
def entries (t : Vector Uint16 TIER_CHANCE_LEN) : List ℕ := t.toList.map BitVec.toNat

@[simp] theorem length_entries : (entries t).length = 4 := by
  rw [entries, List.length_map, Vector.length_toList]
  rfl

theorem ValidTierChances.ascending (h : ValidTierChances t) : (entries t).Pairwise (· ≤ ·) :=
  List.isChain_iff_pairwise.1 ((List.isChain_map BitVec.toNat).2 h.1)

theorem ValidTierChances.le_max (h : ValidTierChances t) : ∀ c ∈ entries t, c ≤ 10000 := by
  intro c hc
  obtain ⟨i, hi, rfl⟩ := List.mem_iff_getElem.1 hc
  have hmax : t[3].toNat ≤ 10000 := h.2
  have h3 : 3 < (entries t).length := by simp
  have hlast : (entries t)[3] ≤ 10000 := by simpa [entries] using hmax
  have hi4 : i < 4 := by simpa using hi
  refine le_trans ?_ hlast
  rcases Nat.lt_or_ge i 3 with hi3 | hi3
  · exact List.pairwise_iff_getElem.1 h.ascending i 3 hi h3 hi3
  · simp [show i = 3 by omega]

/-- All tables of chances are acceptable. -/
def ValidTables (s : Storage) : Prop :=
  ∀ b, ValidTierChances (s.portraitMintInfo b).tierChances ∧ ValidTierChances (s.accessoryMintInfo b).tierChances

theorem ValidTables.effect {msg : Msg} {op : Op} {w' : World X} (h : ValidTables w.storage)
    (he : Effect chain msg w op w') : ValidTables w'.storage := by
  intro b
  cases he with
  | setPortraitMintInfo _ hv =>
    rename_i b' info _
    by_cases hb : b = b'
    · subst hb
      simpa using ⟨hv, (h b).2⟩
    · simpa [Function.update_of_ne hb] using h b
  | setAccessoryMintInfo _ hv =>
    rename_i b' info _
    by_cases hb : b = b'
    · subst hb
      simpa using ⟨(h b).1, hv⟩
    · simpa [Function.update_of_ne hb] using h b
  | admin _ hs =>
    obtain ⟨_, _, _, _, _, hs⟩ := hs
    rw [hs]
    exact h b
  | _ => exact h b

/-- **In a reachable world all tables are acceptable**: those that the owner has set, and the empty ones. -/
theorem tierChances_reachable (h : Reachable chain w) : ValidTables w.storage := by
  refine Lts.Reachable.invariant (I := fun w => ValidTables w.storage) ?_ ?_ h
  · rintro w ⟨msg, p, x, -, hw⟩ b
    have hempty : ValidTierChances (Vector.replicate TIER_CHANCE_LEN 0) := ⟨by decide, by decide⟩
    rw [(initializeMinter_ok hw).1]
    exact ⟨hempty, hempty⟩
  · intro w l w' hr hI hs
    rcases step_cases hs (Reachable.fixed hr).1 with ⟨_, _, _, _, he⟩ | ⟨hs, -⟩
    · exact hI.effect he
    · rw [hs]
      exact hI

/-! ## Draws -/

/-- The draw of a chance. -/
theorem draw16_ok_iff {v : Uint16} :
    getQuotientAndRemainder16 rand MAX_CHANCE = .ok (q, v) ↔
      q.toNat = rand.toNat / 10000 ∧ v.toNat = rand.toNat % 10000 := by
  have hmax : MAX_CHANCE.toNat = 10000 := rfl
  rw [getQuotientAndRemainder16, checkedDivMod_ok_iff (by decide), hmax]
  simp

/-- A chance is a word of 16 bits. -/
theorem exists_chance (n : ℕ) : ∃ v : Uint16, v.toNat = n % 10000 := exists_toNat_eq.2 (by omega)

/-- The tier is drawn by rank. -/
theorem getTier_toNat (ht : ValidTierChances t) (chance : Uint16) :
    (getTier t chance).toNat = rank (entries t) chance.toNat + 1 := by
  have hsearch : firstAbove t.toList chance = (entries t).findIdx? (fun c => decide (chance.toNat < c)) := by
    rw [firstAbove, entries, List.findIdx?_map]
    rfl
  have hle : rank (entries t) chance.toNat ≤ 4 := length_entries (t := t) ▸ rank_le_length
  unfold getTier
  rw [hsearch]
  split
  · rename_i k hk
    rw [rank_of_findIdx?_some ht.ascending hk] at hle ⊢
    rw [BitVec.toNat_ofNat, Nat.mod_eq_of_lt (by omega)]
  · rename_i hk
    rw [rank_of_findIdx?_none hk, length_entries]
    rfl

/-- The tier of an accessory that is not from a virtual box. -/
theorem accessoryTier_ok_iff {tier : Uint8} {b : BoxType} (hb : b ≠ .virtual)
    (ht : ValidTierChances (s.accessoryMintInfo b).tierChances) :
    accessoryTier s rand b = .ok (q, tier) ↔ q.toNat = rand.toNat / 10000 ∧
      tier.toNat = rank (entries (s.accessoryMintInfo b).tierChances) (rand.toNat % 10000) + 1 := by
  simp only [accessoryTier, if_neg hb, bind_ok_iff, Prod.exists, draw16_ok_iff, pure_eq_ok, Except.ok.injEq,
    Prod.mk.injEq]
  constructor
  · rintro ⟨q', v, ⟨hq, hv⟩, rfl, rfl⟩
    exact ⟨hq, by rw [getTier_toNat ht, hv]⟩
  · rintro ⟨hq, htier⟩
    obtain ⟨v, hv⟩ := exists_chance rand.toNat
    refine ⟨q, v, ⟨hq, hv⟩, rfl, ?_⟩
    rw [BitVec.toNat_eq, getTier_toNat ht, hv, htier]

/-- The chances of the stages. -/
def stageChances : List ℕ := [4500, 8000, 10000]

/-- The stage of an accessory. -/
theorem getAccessoryStage_ok_iff {stage : Uint8} (hs : s.tables = initialTables) :
    getAccessoryStage s rand = .ok (q, stage) ↔ q.toNat = rand.toNat / 10000 ∧
      stage.toNat = rank stageChances (rand.toNat % 10000) + 1 := by
  have hasc : stageChances.Pairwise (· ≤ ·) := by decide
  have hsearch : ∀ v : Uint16, firstAbove s.tables.stageProbability.toList v =
      stageChances.findIdx? (fun c => decide (v.toNat < c)) := by
    intro v
    rw [hs, show stageChances = initialTables.stageProbability.toList.map BitVec.toNat from rfl, List.findIdx?_map]
    rfl
  simp only [getAccessoryStage, bind_ok_iff, Prod.exists, draw16_ok_iff, hsearch]
  have hfound : ∀ v < 10000, stageChances.findIdx? (fun c => decide (v < c)) = some (rank stageChances v) :=
    fun v hv => findIdx?_eq_rank hasc (show 10000 ∈ stageChances by decide) hv
  have hrank : ∀ v, rank stageChances v ≤ 3 := fun v => rank_le_length
  constructor
  · rintro ⟨q', v, ⟨hq, hv⟩, hstage⟩
    rw [hfound v.toNat (by omega)] at hstage
    simp only [pure_eq_ok, Except.ok.injEq, Prod.mk.injEq] at hstage
    obtain ⟨rfl, rfl⟩ := hstage
    have := hrank v.toNat
    rw [BitVec.toNat_ofNat, Nat.mod_eq_of_lt (by omega), hv]
    exact ⟨hq, rfl⟩
  · rintro ⟨hq, hstage⟩
    obtain ⟨v, hv⟩ := exists_chance rand.toNat
    refine ⟨q, v, ⟨hq, hv⟩, ?_⟩
    rw [hfound v.toNat (by omega), hv]
    dsimp only
    rw [← hstage]
    simp

/-! ## Blocks of seeds -/

/-- How many of the 10⁸ seeds from `n * 10⁸` on have a property. -/
def seedCount (n : ℕ) (P : Uint256 → Prop) [DecidablePred P] : ℕ :=
  ((Finset.Ico (n * 10 ^ 8) (n * 10 ^ 8 + 10 ^ 8)).filter (fun r => P (BitVec.ofNat 256 r))).card

/-- In a block the first two draws of a chance are independent and uniform. -/
theorem seedCount_draws {n : ℕ} (hn : (n + 1) * 10 ^ 8 ≤ 2 ^ 256) {P : Uint256 → Prop} [DecidablePred P]
    (A C : ℕ → Prop) [DecidablePred A] [DecidablePred C]
    (hP : ∀ r, P r ↔ A (r.toNat % 10000) ∧ C (r.toNat / 10000 % 10000)) :
    seedCount n P = Nat.count A 10000 * Nat.count C 10000 := by
  rw [← card_draws (show 0 < 10000 by omega) 10000 (n * 10 ^ 8), seedCount]
  refine congrArg Finset.card (Finset.filter_congr fun r hr => ?_)
  have hlt : r < 2 ^ 256 := by
    have := (Finset.mem_Ico.1 hr).2
    omega
  rw [hP, BitVec.toNat_ofNat, Nat.mod_eq_of_lt hlt]

/-- The chance of a tier in a table, out of 10000. -/
def tierWidth (t : Vector Uint16 TIER_CHANCE_LEN) (tier : ℕ) : ℕ := width 10000 (entries t) (tier - 1)

theorem count_tier (ht : ValidTierChances t) {k : ℕ} (h1 : 1 ≤ k) (h5 : k ≤ 5) :
    Nat.count (fun x => rank (entries t) x + 1 = k) 10000 = tierWidth t k := by
  rw [tierWidth, ← count_rank ht.ascending ht.le_max (by rw [length_entries]; omega)]
  exact count_congr fun x _ => by omega

/-- The chances of the stages: 45, 35 and 20 percent. -/
def stageWidth : ℕ → ℕ
  | 1 => 4500
  | 2 => 3500
  | 3 => 2000
  | _ => 0

/-- The chances of a stage are an interval whose ends are multiples of five. -/
theorem stage_interval {stage : ℕ} (h1 : 1 ≤ stage) (h3 : stage ≤ 3) : ∃ a b, b ≤ 2000 ∧
    5 * (b - a) = stageWidth stage ∧ ∀ x < 10000, rank stageChances x + 1 = stage ↔ 5 * a ≤ x ∧ x < 5 * b := by
  have hrank : ∀ x < 10000, rank stageChances x = (if 8000 ≤ x then 1 else 0) + (if 4500 ≤ x then 1 else 0) := by
    intro x hx
    simp [rank, stageChances, List.countP_cons, hx]
  obtain rfl | rfl | rfl : stage = 1 ∨ stage = 2 ∨ stage = 3 := by omega
  · refine ⟨0, 900, by omega, rfl, fun x hx => ?_⟩
    rw [hrank x hx]
    split_ifs <;> omega
  · refine ⟨900, 1600, by omega, rfl, fun x hx => ?_⟩
    rw [hrank x hx]
    split_ifs <;> omega
  · refine ⟨1600, 2000, by omega, rfl, fun x hx => ?_⟩
    rw [hrank x hx]
    split_ifs <;> omega

/-- The chances of a stage, -/
theorem count_stage {stage : ℕ} (h1 : 1 ≤ stage) (h3 : stage ≤ 3) :
    Nat.count (fun x => rank stageChances x + 1 = stage) 10000 = stageWidth stage := by
  obtain ⟨a, b, hb, hwidth, hstage⟩ := stage_interval h1 h3
  rw [count_congr hstage, count_interval (by omega), ← hwidth, Nat.mul_sub]

/-- and of a stage together with a type: the residue by five is independent of the stage. -/
theorem count_type_stage {stage : ℕ} (h1 : 1 ≤ stage) (h3 : stage ≤ 3) (t : AccessoryType) :
    Nat.count (fun x => x % 5 = t.encoding ∧ rank stageChances x + 1 = stage) 10000 = stageWidth stage / 5 := by
  obtain ⟨a, b, hb, hwidth, hstage⟩ := stage_interval h1 h3
  rw [← hwidth, Nat.mul_div_cancel_left _ (by omega), ← count_residue t.encoding_lt hb]
  refine count_congr fun x hx => ?_
  rw [hstage x hx]

/-! ## Accessories -/

section Accessories

variable (keccak256 : Keccak) (rand : Uint256) {tokenId : Uint256}

/-- The draws of an accessory: its tier and its stage. -/
theorem accessory_draws {b : BoxType} (hs : s.tables = initialTables) (hb : b ≠ .virtual)
    (ht : ValidTierChances (s.accessoryMintInfo b).tierChances) :
    ∃ q tier q' stage, accessoryTier s rand b = .ok (q, tier) ∧ getAccessoryStage s q = .ok (q', stage) ∧
      q.toNat = rand.toNat / 10000 ∧
      tier.toNat = rank (entries (s.accessoryMintInfo b).tierChances) (rand.toNat % 10000) + 1 ∧
      stage.toNat = rank stageChances (rand.toNat / 10000 % 10000) + 1 := by
  obtain ⟨q, tier, htier⟩ := accessoryTier_ok s rand b
  obtain ⟨q', stage, hstage, -, -⟩ := getAccessoryStage_ok (hs ▸ initialTables_consistent) q
  obtain ⟨hq, hk⟩ := (accessoryTier_ok_iff hb ht).1 htier
  refine ⟨q, tier, q', stage, htier, hstage, hq, hk, ?_⟩
  rw [← hq]
  exact ((getAccessoryStage_ok_iff hs).1 hstage).2

/-- A full-random accessory takes its type from the draw of its stage. -/
theorem full_drawn {p : AccessoryFullRandomMintParams} (hs : s.tables = initialTables) (hb : p.boxType ≠ .virtual)
    (ht : ValidTierChances (s.accessoryMintInfo p.boxType).tierChances) (hid : tokenId.toNat + 1 < 2 ^ 256) :
    ∃ x, getFullAcccessoryInfo keccak256 s rand p tokenId = .ok x ∧
      x.1.tokenId = tokenId ∧ x.1.boxType = p.boxType ∧
      x.1.tier.toNat = rank (entries (s.accessoryMintInfo p.boxType).tierChances) (rand.toNat % 10000) + 1 ∧
      x.1.accessoryType.encoding = rand.toNat / 10000 % 10000 % 5 ∧
      x.1.stage.toNat = rank stageChances (rand.toNat / 10000 % 10000) + 1 := by
  obtain ⟨q, tier, q', stage, htier, hstage, hq, hk, hst⟩ := accessory_draws rand hs hb ht
  obtain ⟨next, hnext, -⟩ := checkedAdd_of_lt (show tokenId.toNat + (1 : Uint256).toNat < 2 ^ 256 from hid)
  have hmod : ((q % 5 : Uint256).setWidth 8 : Uint8).toNat = rand.toNat / 10000 % 10000 % 5 := by
    have h5 : (q % 5 : Uint256).toNat = q.toNat % 5 := rfl
    rw [toNat_narrow (by omega), h5, hq, Nat.mod_mod_of_dvd _ (by omega)]
  obtain ⟨t, htype⟩ := AccessoryType.ofUint8_ok.2 (show ((q % 5 : Uint256).setWidth 8 : Uint8).toNat < 5 by omega)
  refine ⟨(⟨tokenId, p.boxType, t, tier, stage⟩, nextRandom keccak256 rand, next), ?_, rfl, rfl, hk, ?_, hst⟩
  · simp only [getFullAcccessoryInfo, htier, ok_bind, htype, hstage, hnext, pure_eq_ok]
  · rw [← hmod]
    exact (AccessoryType.ofUint8_ok_iff.1 htype).symm

/-- A semi-random accessory has the type asked for. -/
theorem semi_drawn {p : AccessorySemiRandomMintParams} (hs : s.tables = initialTables) (hb : p.boxType ≠ .virtual)
    (ht : ValidTierChances (s.accessoryMintInfo p.boxType).tierChances) (hid : tokenId.toNat + 1 < 2 ^ 256) :
    ∃ x, getSemiAcccessoryInfo keccak256 s rand p tokenId = .ok x ∧
      x.1.tokenId = tokenId ∧ x.1.boxType = p.boxType ∧
      x.1.tier.toNat = rank (entries (s.accessoryMintInfo p.boxType).tierChances) (rand.toNat % 10000) + 1 ∧
      x.1.accessoryType = p.accessoryType ∧
      x.1.stage.toNat = rank stageChances (rand.toNat / 10000 % 10000) + 1 := by
  obtain ⟨q, tier, q', stage, htier, hstage, hq, hk, hst⟩ := accessory_draws rand hs hb ht
  obtain ⟨next, hnext, -⟩ := checkedAdd_of_lt (show tokenId.toNat + (1 : Uint256).toNat < 2 ^ 256 from hid)
  refine ⟨(⟨tokenId, p.boxType, p.accessoryType, tier, stage⟩, nextRandom keccak256 rand, next), ?_, rfl, rfl, hk, rfl,
    hst⟩
  simp only [getSemiAcccessoryInfo, htier, ok_bind, hstage, hnext, pure_eq_ok]

end Accessories

/-- **The odds of the accessories.** In every block of seeds, and for every token id that has a successor, a tier, a
type and a stage come out with the product of their chances; a semi-random accessory always has the type asked for. -/
theorem accessory_odds (h : Reachable chain w) {n k stage : ℕ} (hn : (n + 1) * 10 ^ 8 ≤ 2 ^ 256) (hk1 : 1 ≤ k)
    (hk5 : k ≤ 5) (hs1 : 1 ≤ stage) (hs3 : stage ≤ 3) {tokenId : Uint256} (hid : tokenId.toNat + 1 < 2 ^ 256) :
    (∀ p : AccessoryFullRandomMintParams, p.boxType ≠ .virtual → ∀ t : AccessoryType,
      seedCount n (fun r => Returns (fun x => x.1.tier.toNat = k ∧ x.1.accessoryType = t ∧ x.1.stage.toNat = stage)
          (getFullAcccessoryInfo chain.keccak256 w.storage r p tokenId)) =
        tierWidth (w.storage.accessoryMintInfo p.boxType).tierChances k * stageWidth stage / 5) ∧
    (∀ p : AccessorySemiRandomMintParams, p.boxType ≠ .virtual →
      seedCount n (fun r => Returns (fun x => x.1.tier.toNat = k ∧ x.1.stage.toNat = stage)
          (getSemiAcccessoryInfo chain.keccak256 w.storage r p tokenId)) =
        tierWidth (w.storage.accessoryMintInfo p.boxType).tierChances k * stageWidth stage ∧
      ∀ r, Returns (fun x => x.1.accessoryType = p.accessoryType)
        (getSemiAcccessoryInfo chain.keccak256 w.storage r p tokenId)) := by
  have hs := (Reachable.fixed h).2
  have ht := fun b => (tierChances_reachable h b).2
  refine ⟨?_, ?_⟩
  · intro p hb t
    rw [seedCount_draws hn (fun x => rank (entries (w.storage.accessoryMintInfo p.boxType).tierChances) x + 1 = k)
      (fun x => x % 5 = t.encoding ∧ rank stageChances x + 1 = stage)]
    · rw [count_tier (ht p.boxType) hk1 hk5, count_type_stage hs1 hs3]
      obtain ⟨a, b, -, hwidth, -⟩ := stage_interval hs1 hs3
      rw [← hwidth, Nat.mul_div_cancel_left _ (by omega), ← Nat.mul_left_comm, Nat.mul_div_cancel_left _ (by omega)]
    · intro r
      obtain ⟨x, hx, -, -, htier, htype, hstage⟩ := full_drawn chain.keccak256 r hs hb (ht p.boxType) hid
      simp only [hx, Returns, htier, ← AccessoryType.encoding_inj, htype, hstage]
  · intro p hb
    refine ⟨?_, ?_⟩
    · rw [seedCount_draws hn (fun x => rank (entries (w.storage.accessoryMintInfo p.boxType).tierChances) x + 1 = k)
        (fun x => rank stageChances x + 1 = stage)]
      · rw [count_tier (ht p.boxType) hk1 hk5, count_stage hs1 hs3]
      · intro r
        obtain ⟨x, hx, -, -, htier, -, hstage⟩ := semi_drawn chain.keccak256 r hs hb (ht p.boxType) hid
        simp only [hx, Returns, htier, hstage]
    · intro r
      obtain ⟨x, hx, -, -, -, htype, -⟩ := semi_drawn chain.keccak256 r hs hb (ht p.boxType) hid
      simp only [hx, Returns, htype]

/-- In the first block of seeds, bronze accessories of tier 4 and stage 2: tier 4 has the chance 1000, stage 2 the
chance 3500. -/
theorem accessory_odds_bronze :
    seedCount 0 (fun r => Returns (fun x => x.1.tier.toNat = 4 ∧ x.1.accessoryType = .skin ∧ x.1.stage.toNat = 2)
      (getFullAcccessoryInfo Deployment.chain.keccak256 Deployment.sale.storage r ⟨.bronze, 1⟩ 1)) = 700000 ∧
    seedCount 0 (fun r => Returns (fun x => x.1.tier.toNat = 4 ∧ x.1.stage.toNat = 2)
      (getSemiAcccessoryInfo Deployment.chain.keccak256 Deployment.sale.storage r ⟨.skin, .bronze, 1⟩ 1)) =
        3500000 := by
  have h := accessory_odds Deployment.sale_reachable (show (0 + 1) * 10 ^ 8 ≤ 2 ^ 256 by omega) (show 1 ≤ 4 by omega)
    (by omega) (show 1 ≤ 2 by omega) (by omega) (show (1 : Uint256).toNat + 1 < 2 ^ 256 by decide)
  have hwidth : tierWidth (Deployment.sale.storage.accessoryMintInfo .bronze).tierChances 4 = 1000 := by decide
  refine ⟨?_, ?_⟩
  · rw [h.1 ⟨.bronze, 1⟩ (by decide) .skin, hwidth]
    rfl
  · rw [(h.2 ⟨.skin, .bronze, 1⟩ (by decide)).1, hwidth]
    rfl

end Minter
end Illuvitars
