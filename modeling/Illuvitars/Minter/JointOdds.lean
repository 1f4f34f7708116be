import Mathlib.Tactic.Ring
import Illuvitars.Lib.Draws
import Illuvitars.Reference.Draws

/-!
# The joint odds of the portraits

A portrait of a box that is not virtual is drawn from its random number by eight draws, one after the other: the tier,
the background tier, the illuvial, the background, the expression (two digits that do not matter and two that do) and
the finish. The number of illuvials depends on the tier; everything else is independent.

* `getPortraitInfo_hits`: a portrait has given attributes iff its draws have the outcomes of `portraitDraws`;
* `portrait_odds`: how many random numbers of a block give a portrait.
-/

namespace Illuvitars
namespace Minter

open Evm Chances
open IlluvitarsMintResults (Background illuvialCounts)

variable {X : Type} {chain : Chain X} {keccak256 : Keccak} {s : Storage} {w : World X} {rand : Uint256}
  {param : PortraitMintParams}

/-! ## The attributes -/

/-- What is drawn for a portrait. The background is one of four, since the background tier is always the last one. -/
structure PortraitDraw where
  tier : ℕ
  illuvial : ℕ
  background : ℕ
  expression : ℕ
  finish : FinishType
deriving DecidableEq, Repr

namespace PortraitDraw

/-- The number of illuvials of the tier. -/
def illuvials (d : PortraitDraw) : ℕ := illuvialCounts.getD d.tier 0

/-- An outcome that some random number may have. -/
structure Possible (d : PortraitDraw) : Prop where
  tier_pos : 1 ≤ d.tier
  tier_le : d.tier ≤ 5
  illuvial : d.illuvial < d.illuvials
  background : d.background < 4
  expression : d.expression < 3

/-- The portrait with these attributes. -/
def portrait (d : PortraitDraw) (tokenId : ℕ) (b : BoxType) : IlluvitarsMintResults.Portrait where
  tokenId := tokenId
  boxType := b
  tier := d.tier
  illuvial := d.illuvial
  backgroundTier := 5
  backgroundLine := (lastBackground d.background).line
  backgroundStage := (lastBackground d.background).stage
  backgroundVariation := (lastBackground d.background).variation
  expression := d.expression
  finish := d.finish

/-- The draws that give them. -/
def draws (d : PortraitDraw) (s : Storage) (b : BoxType) : List Draw :=
  [⟨10000, fun x => rank (entries (s.portraitMintInfo b).tierChances) x + 1 = d.tier, inferInstance⟩,
   .any 10000,
   .one d.illuvials d.illuvial,
   .one 4 d.background,
   .any 100,
   ⟨100, fun x => rank expressionChances x = d.expression, inferInstance⟩,
   ⟨10000, fun x => chanceFinish s b x = d.finish, inferInstance⟩]

/-- The chance of a finish, out of 10000: a holo has one draw more than configured. -/
def finishWidth (s : Storage) (b : BoxType) : FinishType → ℕ
  | .holo => min (holoChance s b + 1) 10000
  | .normal => 10000 - min (holoChance s b + 1) 10000

/-- How often the outcome occurs in a block of `blockSize` random numbers. -/
def weight (d : PortraitDraw) (s : Storage) (b : BoxType) : ℕ :=
  tierWidth (s.portraitMintInfo b).tierChances d.tier * 10000 * 100 * width 100 expressionChances d.expression *
    finishWidth s b d.finish * (60 / d.illuvials)

variable {d : PortraitDraw}

/-- The number of illuvials of a tier divides 60. -/
theorem illuvials_checked : ∀ tier ∈ [1, 2, 3, 4, 5], illuvialCounts.getD tier 0 ∈ [3, 4, 5, 6] := by decide

theorem Possible.illuvials_mem (h : d.Possible) : d.illuvials ∈ [3, 4, 5, 6] := by
  have h1 := h.tier_pos
  have h5 := h.tier_le
  exact illuvials_checked d.tier (by simp; omega)

theorem Possible.getElem? (h : d.Possible) : illuvialCounts[d.tier]? = some d.illuvials := by
  have h5 := h.tier_le
  have hlen : d.tier < illuvialCounts.length := show d.tier < 6 by omega
  rw [illuvials, List.getD_eq_getElem?_getD, List.getElem?_eq_getElem hlen, Option.getD_some]

end PortraitDraw

/-- Numbers below four stand for the four backgrounds. -/
theorem lastBackground_eq_iff {rest g : ℕ} (hg : g < 4) :
    ((lastBackground rest).line = (lastBackground g).line ∧ (lastBackground rest).stage = (lastBackground g).stage ∧
      (lastBackground rest).variation = (lastBackground g).variation) ↔ rest % 4 = g := by
  unfold lastBackground
  by_cases hr : rest % 2 = 0
  · by_cases h2 : g % 2 = 0
    · simp only [hr, h2, if_true, true_and, and_true]
      omega
    · simp [hr, h2]
      omega
  · by_cases h2 : g % 2 = 0
    · simp [hr, h2]
      omega
    · simp only [hr, h2, if_false, true_and]
      omega

/-! ## The draws of a portrait -/

section Draws

variable (hs : s.tables = initialTables) (ht : ValidTierChances (s.portraitMintInfo param.boxType).tierChances)
  (hb : param.boxType ≠ .virtual)
include hs ht hb

/-- **A portrait has the attributes iff its draws have.** -/
theorem getPortraitInfo_hits {d : PortraitDraw} (hd : d.Possible) {tokenId : Uint256}
    {x : PortraitInfo × Uint256 × Uint256} (h : getPortraitInfo keccak256 s rand param tokenId = .ok x) :
    formatPortrait x.1 = d.portrait tokenId.toNat param.boxType ↔ Hits (d.draws s param.boxType) rand.toNat := by
  have hquotient : ∀ rest, rest / 4 / 100 / 100 = rest / 4 / 10000 := fun rest => Nat.div_div_eq_div_mul _ 100 100
  have htens : rand.toNat / 10000 / 10000 = rand.toNat / (10000 * 10000) := Nat.div_div_eq_div_mul _ _ _
  by_cases htier : rank (entries (s.portraitMintInfo param.boxType).tierChances) (rand.toNat % 10000) + 1 = d.tier
  · rw [getPortraitInfo_formatted hs ht hb h htier hd.getElem? rfl, PortraitDraw.portrait,
      IlluvitarsMintResults.Portrait.mk.injEq]
    simp only [PortraitDraw.draws, hits_cons, hits_nil, Draw.one, Draw.any, htier, htens, hquotient, true_and, and_true,
      lastBackground_quotient, ← lastBackground_eq_iff hd.background, and_assoc]
  · -- another tier
    rw [getPortraitInfo_formatted hs ht hb h rfl (illuvialCounts_getElem? s param.boxType rand) rfl,
      PortraitDraw.portrait, IlluvitarsMintResults.Portrait.mk.injEq]
    simp only [PortraitDraw.draws, hits_cons, htier, false_and, and_false]

/-- Every portrait has attributes of that kind. -/
theorem getPortraitInfo_possible {tokenId : Uint256} {x : PortraitInfo × Uint256 × Uint256}
    (h : getPortraitInfo keccak256 s rand param tokenId = .ok x) :
    ∃ d : PortraitDraw, d.Possible ∧ formatPortrait x.1 = d.portrait tokenId.toNat param.boxType := by
  obtain ⟨h1, h5⟩ := portraitTier_le s param.boxType rand
  have hc := illuvialCounts_getElem? s param.boxType rand
  obtain ⟨hcpos, -⟩ := IlluvitarsMintResults.illuvialCounts_checked _ (List.mem_of_getElem? hc)
  obtain ⟨rest, hrest⟩ : ∃ rest, rand.toNat / (10000 * 10000) / illuvialCount s param.boxType rand = rest := ⟨_, rfl⟩
  have hexpression : rank expressionChances (rest / 4 / 100 % 100) < 3 := by
    have hlt : rest / 4 / 100 % 100 < 100 := Nat.mod_lt _ (by omega)
    have hrank : rank ([50, 80] ++ [100]) (rest / 4 / 100 % 100) = rank [50, 80] (rest / 4 / 100 % 100) :=
      rank_concat_of_lt hlt
    have hle : rank [50, 80] (rest / 4 / 100 % 100) ≤ 2 := rank_le_length
    exact lt_of_eq_of_lt hrank (by omega)
  have hg : rest % 4 < 4 := Nat.mod_lt rest (by omega)
  obtain ⟨hline, hstage, hvariation⟩ := (lastBackground_eq_iff hg).2 (Eq.refl (rest % 4))
  refine ⟨⟨portraitTier s param.boxType rand, rand.toNat / (10000 * 10000) % illuvialCount s param.boxType rand,
    rest % 4, rank expressionChances (rest / 4 / 100 % 100), chanceFinish s param.boxType (rest / 4 / 10000 % 10000)⟩,
    ⟨h1, h5, Nat.mod_lt _ hcpos, Nat.mod_lt _ (by omega), hexpression⟩, ?_⟩
  rw [getPortraitInfo_formatted hs ht hb h rfl hc rfl, hrest, lastBackground_quotient, hline, hstage, hvariation]
  rfl

end Draws

/-! ## The odds -/

/-- A number of consecutive random numbers that is a multiple of the period of every tier. -/
def blockSize : ℕ := 10000 * 10000 * 60 * 4 * 10000 * 10000

/-- The finishes of all draws. -/
theorem count_finish (s : Storage) (b : BoxType) (finish : FinishType) :
    Nat.count (fun x => chanceFinish s b x = finish) 10000 = PortraitDraw.finishWidth s b finish := by
  cases finish with
  | holo =>
    have hiff : ∀ x < 10000, chanceFinish s b x = .holo ↔ 0 ≤ x ∧ x < min (holoChance s b + 1) 10000 := by
      intro x hx
      unfold chanceFinish
      split
      · simp
        omega
      · simp
        omega
    rw [count_congr hiff, count_interval (Nat.min_le_right _ _), Nat.sub_zero, PortraitDraw.finishWidth]
  | normal =>
    have hiff : ∀ x < 10000, chanceFinish s b x = .normal ↔ min (holoChance s b + 1) 10000 ≤ x ∧ x < 10000 := by
      intro x hx
      unfold chanceFinish
      split
      · simp
        omega
      · simp
        omega
    rw [count_congr hiff, count_interval le_rfl, PortraitDraw.finishWidth]

namespace PortraitDraw

variable {d : PortraitDraw} {b : BoxType}

theorem Possible.pos (h : d.Possible) : ∀ e ∈ d.draws s b, 0 < e.choices := by
  have hmem := h.illuvials_mem
  have hpos : 0 < d.illuvials := by
    simp at hmem
    omega
  simp [draws, Draw.any, Draw.one, hpos]

/-- A block is a whole number of periods. -/
theorem Possible.blockSize_eq (h : d.Possible) : blockSize = period (d.draws s b) * (60 / d.illuvials) := by
  have hmem := h.illuvials_mem
  have h60 : d.illuvials * (60 / d.illuvials) = 60 := by
    simp only [List.mem_cons, List.not_mem_nil, or_false] at hmem
    rcases hmem with hc | hc | hc | hc
    · rw [hc]
    · rw [hc]
    · rw [hc]
    · rw [hc]
  calc blockSize = 60 * (10000 * 10000 * 4 * 10000 * 10000) := rfl
    _ = d.illuvials * (60 / d.illuvials) * (10000 * 10000 * 4 * 10000 * 10000) := by rw [h60]
    _ = period (d.draws s b) * (60 / d.illuvials) := by
      simp only [draws, period_cons, period_nil, Draw.any, Draw.one]
      ring

/-- In a period the outcome occurs with the product of its chances. -/
theorem Possible.weights (h : d.Possible) (ht : ValidTierChances (s.portraitMintInfo b).tierChances) :
    ((d.draws s b).map Draw.weight).prod * (60 / d.illuvials) = d.weight s b := by
  have htier := count_tier ht h.tier_pos h.tier_le
  have hexpression : Nat.count (fun x => rank expressionChances x = d.expression) 100 =
      width 100 expressionChances d.expression :=
    count_rank (by decide) (by decide) (show d.expression ≤ 3 from h.expression.le)
  have hfinish := count_finish s b d.finish
  simp only [draws, List.map_cons, List.map_nil, List.prod_cons, List.prod_nil, Draw.weight_any,
    Draw.weight_one h.illuvial, Draw.weight_one h.background]
  simp only [Draw.weight, htier, hexpression, hfinish, weight]
  ring

end PortraitDraw

/-- **The odds of the portraits.** Every portrait that is not from a virtual box has attributes that are possible; and
in every block of random numbers each such outcome occurs with the product of its chances: the tier as configured, the
illuvials of the tier alike, the four backgrounds of the last tier alike, the expressions 50, 30 and 20 percent, and
one holo in 10000 more than configured. -/
theorem portrait_odds (h : Reachable chain w) (hb : param.boxType ≠ .virtual) {tokenId : Uint256}
    (hid : tokenId.toNat + 6 < 2 ^ 256) :
    (∀ rand, Returns (fun x => ∃ d : PortraitDraw, d.Possible ∧
        formatPortrait x.1 = d.portrait tokenId.toNat param.boxType)
      (getPortraitInfo chain.keccak256 w.storage rand param tokenId)) ∧
    ∀ d : PortraitDraw, d.Possible → ∀ n, n + blockSize ≤ 2 ^ 256 →
      ((Finset.Ico n (n + blockSize)).filter fun r =>
        Returns (fun x => formatPortrait x.1 = d.portrait tokenId.toNat param.boxType)
          (getPortraitInfo chain.keccak256 w.storage (BitVec.ofNat 256 r) param tokenId)).card =
        d.weight w.storage param.boxType := by
  have hs := (Reachable.fixed h).2
  have ht := (tierChances_reachable h param.boxType).1
  obtain ⟨next, hnext⟩ := exists_toNat_eq.2 hid
  have hok := fun rand => getPortraitInfo_ok chain.keccak256 (hs ▸ initialTables_consistent) rand param hnext
  refine ⟨fun rand => ?_, fun d hd n hn => ?_⟩
  · obtain ⟨x, hx, -⟩ := hok rand
    rw [hx]
    exact getPortraitInfo_possible hs ht hb hx
  · have hhits : ∀ r, r < 2 ^ 256 → (Returns (fun x => formatPortrait x.1 = d.portrait tokenId.toNat param.boxType)
        (getPortraitInfo chain.keccak256 w.storage (BitVec.ofNat 256 r) param tokenId) ↔
        Hits (d.draws w.storage param.boxType) r) := by
      intro r hr
      obtain ⟨x, hx, -⟩ := hok (BitVec.ofNat 256 r)
      have hiff := getPortraitInfo_hits hs ht hb hd hx
      rw [BitVec.toNat_ofNat, Nat.mod_eq_of_lt hr] at hiff
      rw [hx]
      exact hiff
    have hsize : blockSize = period (d.draws w.storage param.boxType) * (60 / d.illuvials) := hd.blockSize_eq
    rw [← hd.weights ht, ← card_hits hd.pos n, ← hsize]
    refine congrArg Finset.card (Finset.filter_congr fun r hr => hhits r ?_)
    have := (Finset.mem_Ico.1 hr).2
    omega

/-- In a sale with 40 percent of tier 1 and a holo chance of 100, the holo of the first of six illuvials in front of the
first background: 2020 of every 24 million. -/
theorem portrait_odds_bronze :
    ((Finset.Ico 0 (0 + blockSize)).filter fun r =>
      Returns (fun x => formatPortrait x.1 = (⟨1, 0, 0, 0, .holo⟩ : PortraitDraw).portrait 1 .bronze)
        (getPortraitInfo Deployment.chain.keccak256 Deployment.sale.storage (BitVec.ofNat 256 r) ⟨.bronze, 1⟩ 1)).card =
      202 * 10 ^ 12 := by
  have hd : (⟨1, 0, 0, 0, .holo⟩ : PortraitDraw).Possible := ⟨by decide, by decide, by decide, by decide, by decide⟩
  refine ((portrait_odds Deployment.sale_reachable (show (⟨.bronze, 1⟩ : PortraitMintParams).boxType ≠ .virtual by
    decide) (show (1 : Uint256).toNat + 6 < 2 ^ 256 by decide)).2 _ hd 0 ?_).trans ?_
  · unfold blockSize
    omega
  · decide

end Minter
end Illuvitars
