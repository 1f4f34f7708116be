import Illuvitars.Minter.Odds

/-!
# The odds of the portraits

* `backgroundTier_iff`: the tier of a portrait is drawn from its table, but the background tier is always the last one,
  so it is the one that its table gives only for the seeds whose second chance passes the whole table;
* `holoExact_iff`: a portrait is Holo also when its finish draw is equal to the configured chance, so the chance is one
  draw too high, unless it is 10000.
-/

namespace Illuvitars
namespace Minter

open Evm Chances

variable {X : Type} {chain : Chain X} {keccak256 : Keccak} {s : Storage} {w : World X} {rand q : Uint256}
  {b : BoxType} {param : PortraitMintParams} {tokenId : Uint256} {x : PortraitInfo × Uint256 × Uint256}

/-! ## The chain of draws -/

theorem draw8_quotient {n v : Uint8} (h : getQuotientAndRemainder8 rand n = .ok (q, v)) :
    q.toNat = rand.toNat / n.toNat :=
  ((checkedDivMod_ok_iff (by decide)).1 h).2.1

theorem pick_quotient {α : Type} {xs : List α} {a : α} (h : pick xs rand = .ok (q, a)) :
    q.toNat = rand.toNat / (BitVec.ofNat 8 xs.length).toNat := by
  simp only [pick, bind_ok_iff, Prod.exists, pure_eq_ok, Except.ok.injEq, Prod.mk.injEq] at h
  obtain ⟨q', v, hdraw, a', -, rfl, -⟩ := h
  exact draw8_quotient hdraw

theorem getExpression_quotient {e : ExpressionType} (h : getExpression s rand = .ok (q, e)) :
    q.toNat = rand.toNat / 10000 := by
  simp only [getExpression, bind_ok_iff, Prod.exists, draw16_ok_iff] at h
  obtain ⟨q', v, ⟨hq, -⟩, h⟩ := h
  split at h
  · simp only [bind_ok_iff, pure_eq_ok, Except.ok.injEq, Prod.mk.injEq] at h
    obtain ⟨e', -, rfl, -⟩ := h
    exact hq
  · simp only [pure_eq_ok, Except.ok.injEq, Prod.mk.injEq] at h
    exact h.1 ▸ hq

/-- The two tiers of a portrait that is not virtual: the second is always 5. -/
theorem portraitTiers_ok_iff (hb : b ≠ .virtual) {tier backgroundTier : Uint8} :
    portraitTiers s rand b = .ok (q, tier, backgroundTier) ↔ q.toNat = rand.toNat / (10000 * 10000) ∧
      tier = getTier (s.portraitMintInfo b).tierChances (BitVec.ofNat 16 (rand.toNat % 10000)) ∧
      backgroundTier = 5 := by
  simp only [portraitTiers, getBackgroundTier, if_neg hb, bind_ok_iff, Prod.exists, draw16_ok_iff, pure_eq_ok,
    Except.ok.injEq, Prod.mk.injEq]
  have hchance : ∀ {v : Uint16}, v.toNat = rand.toNat % 10000 ↔ v = BitVec.ofNat 16 (rand.toNat % 10000) := by
    intro v
    rw [BitVec.toNat_eq, BitVec.toNat_ofNat, Nat.mod_eq_of_lt (show rand.toNat % 10000 < 2 ^ 16 by omega)]
  constructor
  · rintro ⟨q₁, v, ⟨hq₁, hv⟩, q₂, bt, ⟨q₃, v', ⟨hq₃, -⟩, rfl, rfl⟩, rfl, rfl, rfl⟩
    exact ⟨by rw [hq₃, hq₁, Nat.div_div_eq_div_mul], by rw [hchance.1 hv], rfl⟩
  · rintro ⟨hq, rfl, rfl⟩
    obtain ⟨q₁, hq₁⟩ := (exists_toNat_eq (w := 256)).2 (show rand.toNat / 10000 < 2 ^ 256 by omega)
    obtain ⟨v', hv'⟩ := exists_chance (rand.toNat / 10000)
    refine ⟨q₁, _, ⟨hq₁, hchance.2 rfl⟩, q, 5, ⟨q, v', ⟨?_, hq₁ ▸ hv'⟩, rfl, rfl⟩, rfl, rfl, rfl⟩
    rw [hq, hq₁, Nat.div_div_eq_div_mul]

theorem portraitTiers_quotient {tier backgroundTier : Uint8}
    (h : portraitTiers s rand b = .ok (q, tier, backgroundTier)) :
    q.toNat = rand.toNat / (if b = .virtual then 1 else 10000 * 10000) := by
  by_cases hb : b = .virtual
  · rw [portraitTiers, if_pos hb] at h
    cases h
    rw [if_pos hb, Nat.div_one]
  · rw [if_neg hb]
    exact ((portraitTiers_ok_iff hb).1 h).1

/-- The product of the divisors of the draws before the finish, given what they have drawn. -/
def PortraitInfo.divisor (t : Tables) (p : PortraitInfo) : ℕ :=
  (if p.boxType = .virtual then 1 else 10000 * 10000) * (t.illuvialCounts.toList.getD p.tier.toNat 0).toNat *
    (BitVec.ofNat 8 (t.backgroundLines p.backgroundTier).length).toNat *
    (BitVec.ofNat 8 (t.backgroundStages p.backgroundTier p.backgroundLine).length).toNat *
    (t.backgroundVariations p.backgroundTier p.backgroundLine p.backgroundStage).toNat * 10000

/-- A portrait has its tiers from the first draws and its finish from the quotient that all other draws leave. -/
theorem getPortraitInfo_drawn (h : getPortraitInfo keccak256 s rand param tokenId = .ok x) :
    x.1.boxType = param.boxType ∧
      (∃ q, portraitTiers s rand param.boxType = .ok (q, x.1.tier, x.1.backgroundTier)) ∧
      ∃ q q', getFinish s q param.boxType = .ok (q', x.1.finish) ∧ q.toNat = rand.toNat / x.1.divisor s.tables := by
  simp only [getPortraitInfo, bind_ok_iff, Prod.exists, pure_eq_ok, Except.ok.injEq] at h
  obtain ⟨q₀, tier, bt, htiers, count, hcount, q₁, illuvial, h₁, q₂, line, h₂, q₃, stage, h₃, q₄, variation, h₄,
    q₅, e, h₅, q₆, f, h₆, next, -, rfl⟩ := h
  have hcount' : s.tables.illuvialCounts.toList.getD tier.toNat 0 = count := by
    rw [List.getD_eq_getElem?_getD, index_ok_iff.1 hcount, Option.getD_some]
  refine ⟨rfl, ⟨q₀, htiers⟩, q₅, q₆, h₆, ?_⟩
  rw [getExpression_quotient h₅, draw8_quotient h₄, pick_quotient h₃, pick_quotient h₂, draw8_quotient h₁,
    portraitTiers_quotient htiers, PortraitInfo.divisor, hcount']
  simp only [Nat.div_div_eq_div_mul]

/-- Behind a portrait six token ids are left for its successor. -/
theorem getPortraitInfo_lt (h : getPortraitInfo keccak256 s rand param tokenId = .ok x) :
    tokenId.toNat + 6 < 2 ^ 256 := by
  simp only [getPortraitInfo, bind_ok_iff, Prod.exists] at h
  obtain ⟨_, _, _, -, _, -, _, _, -, _, _, -, _, _, -, _, _, -, _, _, -, _, _, -, next, hnext, -⟩ := h
  have hnext' : next.toNat = tokenId.toNat + 6 := checkedAdd_ok_iff.1 hnext
  omega

/-! ## The background tier -/

/-- Both tiers of the portrait are the ranks of the chances in their tables, the second table chosen by the first
tier. -/
def TiersDrawn (s : Storage) (rand : Uint256) (p : PortraitInfo) : Prop :=
  p.tier.toNat = rank (entries (s.portraitMintInfo p.boxType).tierChances) (rand.toNat % 10000) + 1 ∧
    p.backgroundTier.toNat =
      rank (entries (s.tables.backgroundTierChances p.tier p.boxType)) (rand.toNat / 10000 % 10000) + 1

/-- The second chance is not below the last entry of the table that the first one has chosen. -/
def LastPassed (s : Storage) (b : BoxType) (rand : Uint256) : Prop :=
  (s.tables.backgroundTierChances
    (getTier (s.portraitMintInfo b).tierChances (BitVec.ofNat 16 (rand.toNat % 10000))) b)[3].toNat ≤
    rand.toNat / 10000 % 10000

instance (s : Storage) (b : BoxType) (rand : Uint256) : Decidable (LastPassed s b rand) :=
  inferInstanceAs (Decidable (_ ≤ _))

instance (t : Vector Uint16 TIER_CHANCE_LEN) : Decidable (ValidTierChances t) :=
  inferInstanceAs (Decidable (_ ∧ _))

/-- The tables of the background tiers are ascending, and give every background tier a chance. -/
theorem backgroundTierChances_checked : ∀ k ∈ [1, 2, 3, 4, 5],
    ∀ b ∈ [BoxType.bronze, .silver, .gold, .platinum, .diamond],
      ValidTierChances (backgroundTierChances (BitVec.ofNat 8 k) b) ∧
        ∀ j ∈ [1, 2, 3, 4, 5], 0 < tierWidth (backgroundTierChances (BitVec.ofNat 8 k) b) j ∧
          tierWidth (backgroundTierChances (BitVec.ofNat 8 k) b) j < 10000 := by
  decide

theorem mem_of_ne_virtual (hb : b ≠ .virtual) : b ∈ [BoxType.bronze, .silver, .gold, .platinum, .diamond] := by
  cases b <;> simp_all

theorem backgroundTierChances_valid {tier : Uint8} (h1 : 1 ≤ tier.toNat) (h5 : tier.toNat ≤ 5) (hb : b ≠ .virtual) :
    ValidTierChances (backgroundTierChances tier b) := by
  have h := (backgroundTierChances_checked tier.toNat (by simp; omega) b (mem_of_ne_virtual hb)).1
  simpa using h

/-- The rank behind the last entry. -/
theorem rank_eq_four_iff {t : Vector Uint16 TIER_CHANCE_LEN} (ht : ValidTierChances t) {v : ℕ} :
    rank (entries t) v = 4 ↔ t[3].toNat ≤ v := by
  have hle : rank (entries t) v ≤ 4 := length_entries (t := t) ▸ rank_le_length
  have hlast : (entries t)[3]? = some t[3].toNat := by
    rw [List.getElem?_eq_getElem (by simp)]
    simp [entries]
  have hiff : 3 < rank (entries t) v ↔ t[3].toNat ≤ v := by
    rw [lt_rank_iff ht.ascending, hlast]
    simp
  omega

/-- The tiers of a portrait that is not virtual. -/
theorem tiers_of_portrait (h : Reachable chain w) (hb : param.boxType ≠ .virtual)
    (hok : getPortraitInfo keccak256 w.storage rand param tokenId = .ok x) :
    x.1.tier = getTier (w.storage.portraitMintInfo param.boxType).tierChances (BitVec.ofNat 16 (rand.toNat % 10000)) ∧
      x.1.tier.toNat =
        rank (entries (w.storage.portraitMintInfo param.boxType).tierChances) (rand.toNat % 10000) + 1 ∧
      x.1.backgroundTier = 5 := by
  obtain ⟨-, ⟨q, htiers⟩, -⟩ := getPortraitInfo_drawn hok
  obtain ⟨-, htier, hbt⟩ := (portraitTiers_ok_iff hb).1 htiers
  refine ⟨htier, ?_, hbt⟩
  rw [htier, getTier_toNat (tierChances_reachable h _).1, BitVec.toNat_ofNat,
    Nat.mod_eq_of_lt (show rand.toNat % 10000 < 2 ^ 16 by omega)]

/-- The tiers are drawn from the tables iff the last entry is passed. -/
theorem tiersDrawn_iff (h : Reachable chain w) (hb : param.boxType ≠ .virtual)
    (hok : getPortraitInfo keccak256 w.storage rand param tokenId = .ok x) :
    TiersDrawn w.storage rand x.1 ↔ LastPassed w.storage param.boxType rand := by
  obtain ⟨htier, hrank, hbt⟩ := tiers_of_portrait h hb hok
  obtain ⟨hbox, -⟩ := getPortraitInfo_drawn hok
  have htables := (Reachable.fixed h).2
  have hvalid : ValidTierChances (w.storage.tables.backgroundTierChances x.1.tier param.boxType) := by
    obtain ⟨h1, h5⟩ := getTier_range (w.storage.portraitMintInfo param.boxType).tierChances
      (BitVec.ofNat 16 (rand.toNat % 10000))
    rw [htables]
    exact backgroundTierChances_valid (htier ▸ h1) (htier ▸ h5) hb
  have hfive : x.1.backgroundTier.toNat = 5 := by rw [hbt]; rfl
  rw [TiersDrawn, LastPassed, hbox, and_iff_right hrank, hfive, ← htier, ← rank_eq_four_iff hvalid]
  omega

/-- How many seeds of a block give a tier and a background tier. -/
theorem tiers_count (h : Reachable chain w) (hb : param.boxType ≠ .virtual) {n tier backgroundTier : ℕ}
    (hn : (n + 1) * 10 ^ 8 ≤ 2 ^ 256) (hid : tokenId.toNat + 6 < 2 ^ 256) (h1 : 1 ≤ tier) (h5 : tier ≤ 5) :
    seedCount n (fun r => Returns (fun x => x.1.tier.toNat = tier ∧ x.1.backgroundTier.toNat = backgroundTier)
        (getPortraitInfo keccak256 w.storage r param tokenId)) =
      tierWidth (w.storage.portraitMintInfo param.boxType).tierChances tier *
        if backgroundTier = 5 then 10000 else 0 := by
  have ht := (tierChances_reachable h param.boxType).1
  have hconst : Nat.count (fun _ => backgroundTier = 5) 10000 = if backgroundTier = 5 then 10000 else 0 := by
    by_cases h : backgroundTier = 5
    · simp [h]
    · simp [h]
  rw [seedCount_draws hn
    (fun v => rank (entries (w.storage.portraitMintInfo param.boxType).tierChances) v + 1 = tier)
    (fun _ => backgroundTier = 5)]
  · rw [count_tier ht h1 h5, hconst]
  · intro r
    obtain ⟨next, hnext⟩ := exists_toNat_eq.2 hid
    obtain ⟨p, hp, -⟩ := getPortraitInfo_ok keccak256 ((Reachable.fixed h).2 ▸ initialTables_consistent) r param hnext
    obtain ⟨-, hrank, hbt⟩ := tiers_of_portrait h hb hp
    dsimp only at hrank hbt
    have hfive : (5 : Uint8).toNat = backgroundTier ↔ backgroundTier = 5 := eq_comm
    simp only [hp, Returns, hrank, hbt, hfive]

/-- For a token id without a successor there are no portraits. -/
theorem tiers_count_of_le (hid : 2 ^ 256 ≤ tokenId.toNat + 6) {n tier backgroundTier : ℕ} :
    seedCount n (fun r => Returns (fun x => x.1.tier.toNat = tier ∧ x.1.backgroundTier.toNat = backgroundTier)
        (getPortraitInfo keccak256 s r param tokenId)) = 0 := by
  refine Finset.card_eq_zero.2 (Finset.filter_eq_empty_iff.2 fun r _ h => ?_)
  obtain ⟨x, hok, -⟩ := returns_iff.1 h
  have := getPortraitInfo_lt hok
  omega

/-- Some tier has a chance. -/
theorem exists_tierWidth_pos (t : Vector Uint16 TIER_CHANCE_LEN) : ∃ k, 1 ≤ k ∧ k ≤ 5 ∧ tierWidth t k ≠ 0 := by
  by_contra hno
  have hzero : ∀ k, 1 ≤ k → k ≤ 5 → tierWidth t k = 0 := by
    intro k h1 h5
    by_contra hne
    exact hno ⟨k, h1, h5, hne⟩
  obtain ⟨a, b, c, d, habcd⟩ : ∃ a b c d, entries t = [a, b, c, d] := by
    have hlen := length_entries (t := t)
    match entries t, hlen with
    | [a, b, c, d], _ => exact ⟨a, b, c, d, rfl⟩
  -- the widths are the gaps between 0, the entries and 10000
  have h1 := hzero 1 (by omega) (by omega)
  have h2 := hzero 2 (by omega) (by omega)
  have h3 := hzero 3 (by omega) (by omega)
  have h4 := hzero 4 (by omega) (by omega)
  have h5 := hzero 5 (by omega) (by omega)
  simp [tierWidth, width, habcd] at h1 h2 h3 h4 h5
  omega

/-- A pair of tiers is as frequent in a block of seeds as the tables say. -/
def TiersCounted (chain : Chain X) (w : World X) (param : PortraitMintParams) (tokenId : Uint256)
    (n tier backgroundTier : ℕ) : Prop :=
  seedCount n (fun r => Returns (fun x => x.1.tier.toNat = tier ∧ x.1.backgroundTier.toNat = backgroundTier)
      (getPortraitInfo chain.keccak256 w.storage r param tokenId)) =
    tierWidth (w.storage.portraitMintInfo param.boxType).tierChances tier *
      tierWidth (w.storage.tables.backgroundTierChances (BitVec.ofNat 8 tier) param.boxType) backgroundTier

/-- The pair is as frequent as it should be iff its first tier has no chance. -/
theorem tiersCounted_iff (h : Reachable chain w) (hb : param.boxType ≠ .virtual) {n tier backgroundTier : ℕ}
    (hn : (n + 1) * 10 ^ 8 ≤ 2 ^ 256) (h1 : 1 ≤ tier) (h5 : tier ≤ 5) (hb1 : 1 ≤ backgroundTier)
    (hb5 : backgroundTier ≤ 5) : TiersCounted chain w param tokenId n tier backgroundTier ↔
      tierWidth (w.storage.portraitMintInfo param.boxType).tierChances tier = 0 := by
  obtain ⟨-, hwidths⟩ := backgroundTierChances_checked tier (by simp; omega) _ (mem_of_ne_virtual hb)
  obtain ⟨hpos, hlt⟩ := hwidths backgroundTier (by simp; omega)
  have hne : (if backgroundTier = 5 then 10000 else 0) ≠
      tierWidth (backgroundTierChances (BitVec.ofNat 8 tier) param.boxType) backgroundTier := by
    split <;> omega
  rw [TiersCounted, (Reachable.fixed h).2]
  rcases Nat.lt_or_ge (tokenId.toNat + 6) (2 ^ 256) with hid | hid
  · rw [tiers_count h hb hn hid h1 h5, mul_eq_mul_left_iff]
    exact or_iff_right hne
  · rw [tiers_count_of_le hid, eq_comm, Nat.mul_eq_zero]
    exact or_iff_left hpos.ne'

/-- **The background tier.** The tiers of a portrait are those of the tables exactly for the seeds whose second chance
passes the whole table; in a block of seeds a pair of tiers is as frequent as the tables say exactly if its first tier
has no chance at all, and so not for all pairs. -/
theorem backgroundTier_iff (h : Reachable chain w) (hb : param.boxType ≠ .virtual) :
    (∀ rand tokenId x, getPortraitInfo chain.keccak256 w.storage rand param tokenId = .ok x →
      (TiersDrawn w.storage rand x.1 ↔ LastPassed w.storage param.boxType rand)) ∧
    ∀ n tokenId, (n + 1) * 10 ^ 8 ≤ 2 ^ 256 →
      (∀ tier backgroundTier, 1 ≤ tier → tier ≤ 5 → 1 ≤ backgroundTier → backgroundTier ≤ 5 →
        (TiersCounted chain w param tokenId n tier backgroundTier ↔
          tierWidth (w.storage.portraitMintInfo param.boxType).tierChances tier = 0)) ∧
      ∃ tier, 1 ≤ tier ∧ tier ≤ 5 ∧ ∀ backgroundTier, 1 ≤ backgroundTier → backgroundTier ≤ 5 →
        ¬TiersCounted chain w param tokenId n tier backgroundTier := by
  refine ⟨fun rand tokenId x hok => tiersDrawn_iff h hb hok, fun n tokenId hn => ⟨?_, ?_⟩⟩
  · intro tier backgroundTier h1 h5 hb1 hb5
    exact tiersCounted_iff h hb hn h1 h5 hb1 hb5
  · obtain ⟨tier, h1, h5, hne⟩ := exists_tierWidth_pos (w.storage.portraitMintInfo param.boxType).tierChances
    refine ⟨tier, h1, h5, fun backgroundTier hb1 hb5 hcount => ?_⟩
    exact hne ((tiersCounted_iff h hb hn h1 h5 hb1 hb5).1 hcount)

/-- The seed 99190000 passes the table of bronze backgrounds of tier 1, and no background tier is as frequent as it
should be. -/
theorem backgroundTier_bronze :
    (∃ x, getPortraitInfo Deployment.chain.keccak256 Deployment.sale.storage 99190000 ⟨.bronze, 1⟩ 1 = .ok x ∧
      TiersDrawn Deployment.sale.storage 99190000 x.1) ∧
    ∃ tier, 1 ≤ tier ∧ tier ≤ 5 ∧ ∀ backgroundTier, 1 ≤ backgroundTier → backgroundTier ≤ 5 →
      ¬TiersCounted Deployment.chain Deployment.sale ⟨.bronze, 1⟩ 1 0 tier backgroundTier := by
  have h := backgroundTier_iff Deployment.sale_reachable (show (⟨.bronze, 1⟩ : PortraitMintParams).boxType ≠ .virtual by
    decide)
  have hs : Deployment.sale.storage.tables.Consistent := initialTables_consistent
  obtain ⟨p, hp, -⟩ := getPortraitInfo_ok Deployment.chain.keccak256 hs 99190000 ⟨.bronze, 1⟩
    (show (7 : Uint256).toNat = (1 : Uint256).toNat + 6 from rfl)
  exact ⟨⟨_, hp, (h.1 _ _ _ hp).2 (by decide)⟩, (h.2 0 1 (by omega)).2⟩

/-- The seed 0 gives a bronze portrait of tier 1 the background tier 5, while the tables give it 1. -/
theorem backgroundTier_overwritten :
    Reachable Deployment.chain Deployment.sale ∧
      ∃ x, getPortraitInfo Deployment.chain.keccak256 Deployment.sale.storage 0 ⟨.bronze, 1⟩ 1 = .ok x ∧
        x.1.tier = 1 ∧ x.1.backgroundTier = 5 ∧
        rank (entries (Deployment.sale.storage.tables.backgroundTierChances 1 .bronze)) 0 + 1 = 1 ∧
        ¬TiersDrawn Deployment.sale.storage 0 x.1 := by
  refine ⟨Deployment.sale_reachable, _, rfl, rfl, rfl, by decide, ?_⟩
  intro h
  exact absurd h.2 (by decide)

/-! ## The finish -/

/-- The configured chance of a Holo portrait. -/
def holoChance (s : Storage) (b : BoxType) : ℕ :=
  if b = .virtual then 200 else (s.portraitMintInfo b).holoProbability.toNat

/-- The last draw of a portrait, from the quotient that its other draws leave. -/
def finishDraw (t : Tables) (rand : Uint256) (p : PortraitInfo) : ℕ := rand.toNat / p.divisor t % 10000

/-- The finish of a quotient. -/
theorem getFinish_ok_iff {f : FinishType} :
    getFinish s rand b = .ok (q, f) ↔ q.toNat = rand.toNat / 10000 ∧
      f = if rand.toNat % 10000 ≤ holoChance s b then .holo else .normal := by
  have hchance : holoChance s b =
      (if b = .virtual then 200 else (s.portraitMintInfo b).holoProbability : Uint16).toNat := by
    rw [holoChance]
    split
    · rfl
    · rfl
  simp only [getFinish, bind_ok_iff, Prod.exists, draw16_ok_iff, pure_eq_ok, Except.ok.injEq, Prod.mk.injEq, hchance]
  constructor
  · rintro ⟨q', v, ⟨hq, hv⟩, rfl, rfl⟩
    exact ⟨hq, by rw [hv]⟩
  · rintro ⟨hq, rfl⟩
    obtain ⟨v, hv⟩ := exists_chance rand.toNat
    exact ⟨q, v, ⟨hq, hv⟩, rfl, by rw [hv]⟩

/-- A portrait is Holo iff its finish draw is at most the chance. -/
theorem holo_iff {amount : Uint64} (hok : getPortraitInfo keccak256 s rand ⟨b, amount⟩ tokenId = .ok x) :
    x.1.finish = .holo ↔ finishDraw s.tables rand x.1 ≤ holoChance s b := by
  obtain ⟨-, -, q, q', hfinish, hq⟩ := getPortraitInfo_drawn hok
  obtain ⟨-, hf⟩ := getFinish_ok_iff.1 hfinish
  rw [hf, hq, ← finishDraw]
  split
  · simp_all
  · simp_all

/-- The Holo portraits of a box type occur with the configured chance. -/
structure HoloExact (keccak256 : Keccak) (s : Storage) (b : BoxType) : Prop where
  drawn : ∀ rand amount tokenId x, getPortraitInfo keccak256 s rand ⟨b, amount⟩ tokenId = .ok x →
    (x.1.finish = .holo ↔ finishDraw s.tables rand x.1 < holoChance s b)
  counted : Nat.count (fun v => Returns (fun x => x.2 = .holo) (getFinish s (BitVec.ofNat 256 v) b)) 10000 =
    holoChance s b
  never : holoChance s b = 0 → ∀ rand amount tokenId x,
    getPortraitInfo keccak256 s rand ⟨b, amount⟩ tokenId = .ok x → x.1.finish ≠ .holo
  always : holoChance s b = 10000 → ∀ rand amount tokenId x,
    getPortraitInfo keccak256 s rand ⟨b, amount⟩ tokenId = .ok x → x.1.finish = .holo

/-- The finish draws that give Holo are one too many. -/
theorem count_holo :
    Nat.count (fun v => Returns (fun x => x.2 = .holo) (getFinish s (BitVec.ofNat 256 v) b)) 10000 =
      min (holoChance s b + 1) 10000 := by
  rw [count_congr (B := fun v => 0 ≤ v ∧ v < min (holoChance s b + 1) 10000), count_interval (Nat.min_le_right _ _),
    Nat.sub_zero]
  intro v hv
  obtain ⟨q, f, hok⟩ := getFinish_ok s (BitVec.ofNat 256 v) b
  have hv' : (BitVec.ofNat 256 v).toNat % 10000 = v := by
    rw [BitVec.toNat_ofNat, Nat.mod_eq_of_lt (show v < 2 ^ 256 by omega), Nat.mod_eq_of_lt hv]
  rw [hok, Returns, (getFinish_ok_iff.1 hok).2, hv']
  by_cases hle : v ≤ holoChance s b
  · simp [hle]
    omega
  · simp [hle]

/-- **The finish.** In every storage: a portrait is Holo iff its draw is below the chance, unless the draw is equal to
the chance; so the Holo portraits of a box type occur with the configured chance iff this is 10000. -/
theorem holoExact_iff (keccak256 : Keccak) (hb : holoChance s b ≤ 10000) :
    (∀ rand amount tokenId x, getPortraitInfo keccak256 s rand ⟨b, amount⟩ tokenId = .ok x →
      ((x.1.finish = .holo ↔ finishDraw s.tables rand x.1 < holoChance s b) ↔
        finishDraw s.tables rand x.1 ≠ holoChance s b)) ∧
    (HoloExact keccak256 s b ↔ holoChance s b = 10000) := by
  refine ⟨?_, ?_, ?_⟩
  · intro rand amount tokenId x hok
    rw [holo_iff hok]
    omega
  · intro h
    have hcount := h.counted
    rw [count_holo] at hcount
    omega
  · intro h
    have hlt : ∀ (rand : Uint256) (p : PortraitInfo), finishDraw s.tables rand p < 10000 :=
      fun rand p => Nat.mod_lt _ (by omega)
    refine ⟨?_, ?_, ?_, ?_⟩
    · intro rand amount tokenId x hok
      have := hlt rand x.1
      rw [holo_iff hok]
      omega
    · rw [count_holo]
      omega
    · intro h0
      omega
    · intro _ rand amount tokenId x hok
      have := hlt rand x.1
      rw [holo_iff hok]
      omega

/-- A bronze portrait that is Holo for the draws 0 to 100 has the chance 100. -/
theorem holoExact_bronze :
    holoChance Deployment.sale.storage .bronze = 100 ∧
      ¬HoloExact Deployment.chain.keccak256 Deployment.sale.storage .bronze := by
  have hchance : holoChance Deployment.sale.storage .bronze = 100 := by decide
  have h := holoExact_iff Deployment.chain.keccak256 (show holoChance Deployment.sale.storage .bronze ≤ 10000 by omega)
  refine ⟨hchance, ?_⟩
  rw [h.2, hchance]
  omega

/-- Silver boxes have no chance of Holo portraits, but the seed 0 gives one. -/
theorem holo_at_zero :
    Reachable Deployment.chain Deployment.sale ∧ holoChance Deployment.sale.storage .silver = 0 ∧
      (∃ x, getPortraitInfo Deployment.chain.keccak256 Deployment.sale.storage 0 ⟨.silver, 1⟩ 1 = .ok x ∧
        x.1.finish = .holo ∧ finishDraw Deployment.sale.storage.tables 0 x.1 = 0) ∧
      ¬HoloExact Deployment.chain.keccak256 Deployment.sale.storage .silver := by
  obtain ⟨x, hx, hholo, hdraw⟩ : ∃ x, getPortraitInfo Deployment.chain.keccak256 Deployment.sale.storage 0
      ⟨.silver, 1⟩ 1 = .ok x ∧ x.1.finish = .holo ∧ finishDraw Deployment.sale.storage.tables 0 x.1 = 0 :=
    ⟨_, rfl, rfl, rfl⟩
  have hchance : holoChance Deployment.sale.storage .silver = 0 := by decide
  refine ⟨Deployment.sale_reachable, hchance, ⟨x, hx, hholo, hdraw⟩, ?_⟩
  intro h
  exact h.never hchance 0 1 1 x hx hholo

end Minter
end Illuvitars
