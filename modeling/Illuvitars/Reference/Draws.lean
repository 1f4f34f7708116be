import Illuvitars.Minter.PortraitOdds
import Illuvitars.Reference.Generator

/-!
# The draws of a portrait

What the reference generator and the Minter draw for a portrait of a box that is not virtual. The two draw the illuvial
and the background tier in a different order, the expression and the finish out of 100 and out of 10000, and the
Minter's background tier is always the last one.

* `exists_draws`: the tables have a background for every tier and every quotient;
* `getPortraitInfo_eq`: the portrait of the generator;
* `getPortraitInfo_formatted`: the portrait of the Minter, with the numbers of the generator.
-/

namespace Illuvitars

open Evm Script Chances

/-! ## What the generator draws -/

namespace IlluvitarsMintResults

variable {getBackgroundTierChance : BackgroundTierChances}

/-- A background, and the quotient that its draws leave. -/
structure Background where
  line : BackgroundLine
  stage : ℕ
  variation : ℕ
  quotient : ℕ
deriving DecidableEq, Repr

/-- The lists of the tables have one or two entries, and every background has variations. -/
theorem backgrounds_checked : ∀ tier < 6,
    0 < (backgroundLines.getD tier []).length ∧ (backgroundLines.getD tier []).length ≤ 2 ∧
    ∀ line ∈ backgroundLines.getD tier [],
      0 < ((backgroundStages tier line).getD []).length ∧ ((backgroundStages tier line).getD []).length ≤ 2 ∧
      ∀ stage ∈ (backgroundStages tier line).getD [],
        0 < (backgroundVariations tier line stage).getD 0 ∧ (backgroundVariations tier line stage).getD 0 ≤ 10 := by
  decide

/-- A quotient draws the background from the tables of a tier: from the lines `ls`, the stages `ss` of the line, and `n`
variations. -/
structure Draws (tier rest : ℕ) (ls : List BackgroundLine) (ss : List ℕ) (n : ℕ) (B : Background) : Prop where
  lines : backgroundLines[tier]? = some ls
  line : ls[rest % ls.length]? = some B.line
  stages : backgroundStages tier B.line = some ss
  stage : ss[rest / ls.length % ss.length]? = some B.stage
  variations : backgroundVariations tier B.line B.stage = some n
  variation : B.variation = rest / ls.length / ss.length % n
  quotient : B.quotient = rest / ls.length / ss.length / n
  length_lines : 0 < ls.length ∧ ls.length ≤ 2
  length_stages : 0 < ss.length ∧ ss.length ≤ 2
  variations_le : 0 < n ∧ n ≤ 10

/-- **Every background tier has a background for every quotient.** -/
theorem exists_draws {tier : ℕ} (h : tier < 6) (rest : ℕ) :
    ∃ ls ss n B, Draws tier rest ls ss n B := by
  obtain ⟨hpos, hle, hlines⟩ := backgrounds_checked tier h
  obtain ⟨lines, hl⟩ : ∃ lines, backgroundLines[tier]? = some lines :=
    ⟨_, List.getElem?_eq_getElem (by simpa [backgroundLines] using h)⟩
  rw [List.getD_eq_getElem?_getD, hl, Option.getD_some] at hpos hle hlines
  have hline := Nat.mod_lt rest hpos
  obtain ⟨hspos, hsle, hstages⟩ := hlines _ (List.getElem_mem hline)
  obtain ⟨stages, hs⟩ : ∃ stages, backgroundStages tier lines[rest % lines.length] = some stages := by
    cases hs : backgroundStages tier lines[rest % lines.length] with
    | none => simp [hs] at hspos
    | some stages => exact ⟨stages, rfl⟩
  rw [hs, Option.getD_some] at hspos hsle hstages
  have hstage := Nat.mod_lt (rest / lines.length) hspos
  obtain ⟨hvpos, hvle⟩ := hstages _ (List.getElem_mem hstage)
  obtain ⟨variations, hv⟩ : ∃ n, backgroundVariations tier lines[rest % lines.length]
      stages[rest / lines.length % stages.length] = some n := by
    cases hv : backgroundVariations tier lines[rest % lines.length] stages[rest / lines.length % stages.length] with
    | none => simp [hv] at hvpos
    | some n => exact ⟨n, rfl⟩
  rw [hv, Option.getD_some] at hvpos hvle
  exact ⟨lines, stages, variations, ⟨_, _, _, _⟩, hl, List.getElem?_eq_getElem hline, hs,
    List.getElem?_eq_getElem hstage, hv, rfl, rfl, ⟨hpos, hle⟩, ⟨hspos, hsle⟩, ⟨hvpos, hvle⟩⟩

/-! ### The draws of a portrait -/

/-- The cast of a remainder keeps it if the divisor has 8 bits, -/
theorem getQuotientAndRemainder8_eq (a : ℕ) {b : ℕ} (hpos : 0 < b) (hb : b ≤ 2 ^ 8) :
    getQuotientAndRemainder8 a b = .ok (a / b, a % b) := by
  have hlt : a % b < 2 ^ 8 := lt_of_lt_of_le (Nat.mod_lt a hpos) hb
  simp only [getQuotientAndRemainder8, divMod_of_pos hpos, ok_bind, pure_eq_ok, toUint8_of_lt hlt]

/-- and then the remainder is a number. -/
theorem toNumber_mod (a : ℕ) {b : ℕ} (hpos : 0 < b) (hb : b ≤ 2 ^ 8) : toNumber (a % b) = .ok (a % b) := by
  have hlt : a % b < b := Nat.mod_lt a hpos
  exact if_pos (by omega)

/-- The background tier that a chance draws. -/
def drawnBackgroundTier (chances : Vector ℕ MAX_TIER) (chance : ℕ) : ℕ :=
  ((firstAbove chances chance).map (· + 1)).getD 1

theorem drawnBackgroundTier_lt (chances : Vector ℕ MAX_TIER) (chance : ℕ) : drawnBackgroundTier chances chance < 6 := by
  unfold drawnBackgroundTier
  cases hk : firstAbove chances chance with
  | none => simp
  | some k =>
    have hlt : k < chances.toList.length := (List.findIdx?_eq_some_iff_findIdx_eq.1 hk).1
    have hlen : chances.toList.length = 5 := Vector.length_toList
    rw [Option.map_some, Option.getD_some]
    omega

/-- The expression is drawn by rank, out of 100. -/
theorem getExpression_eq (rand : ℕ) :
    getExpression rand = .ok (rand / 100, rank expressionProbability.toList (rand % 100)) := by
  have hasc : expressionProbability.toList.Pairwise (· ≤ ·) := by decide
  have hmem : 100 ∈ expressionProbability.toList := by decide
  have hfound : firstAbove expressionProbability (rand % 100) = some (rank expressionProbability.toList (rand % 100)) :=
    findIdx?_eq_rank hasc hmem (Nat.mod_lt rand (by omega))
  have hdraw : getQuotientAndRemainder16 rand FULL_PERCENT = .ok (rand / 100, rand % 100) :=
    getQuotientAndRemainder16_eq rand (by decide) (by decide)
  simp only [getExpression, hdraw, ok_bind, hfound, Option.getD_some, pure_eq_ok]

/-- The finish that a percentage draws. -/
def percentFinish (b : BoxType) (value : ℕ) : FinishType :=
  if value ≤ (portraitMintInfo b).holoProbability then .holo else .normal

theorem getFinish_eq (rand : ℕ) (b : BoxType) : getFinish rand b = .ok (rand / 100, percentFinish b (rand % 100)) := by
  have hdraw : getQuotientAndRemainder16 rand FULL_PERCENT = .ok (rand / 100, rand % 100) :=
    getQuotientAndRemainder16_eq rand (by decide) (by decide)
  simp only [getFinish, hdraw, ok_bind, percentFinish, pure_eq_ok]

theorem illuvialCounts_checked : ∀ c ∈ illuvialCounts, 0 < c ∧ c ≤ 6 := by decide

/-- **A portrait of a box that is not virtual.** -/
theorem getPortraitInfo_eq (keccak256 : Keccak) (rand : Uint256) {p : PortraitMintParams} {cs : List ℕ} {tokenId : ℕ}
    (ht : (portraitMintInfo p.boxType).tierChances.toList = 0 :: cs ++ [MAX_TIER_CHANCE])
    (hasc : (portraitMintInfo p.boxType).tierChances.toList.Pairwise (· ≤ ·)) (hb : p.boxType ≠ .virtual)
    {tier c : ℕ} (htier : rank cs (rand.toNat % 10000) + 1 = tier) (hc : illuvialCounts[tier]? = some c)
    {chances : Vector ℕ MAX_TIER} (hchances : getBackgroundTierChance tier p.boxType = .ok chances)
    {ls : List BackgroundLine} {ss : List ℕ} {n : ℕ} {B : Background}
    (hB : Draws (drawnBackgroundTier chances (rand.toNat / 10000 / c % 10000)) (rand.toNat / 10000 / c / 10000)
      ls ss n B) :
    getPortraitInfo keccak256 getBackgroundTierChance rand.toNat p tokenId =
      .ok (⟨tokenId, p.boxType, tier, rand.toNat / 10000 % c,
        drawnBackgroundTier chances (rand.toNat / 10000 / c % 10000), B.line, B.stage, B.variation,
        rank expressionProbability.toList (B.quotient % 100), percentFinish p.boxType (B.quotient / 100 % 100)⟩,
        (keccak256 [rand, rand]).toNat, tokenId + 6) := by
  have hchance : getQuotientAndRemainder16 rand.toNat MAX_TIER_CHANCE =
      .ok (rand.toNat / 10000, rand.toNat % 10000) := getQuotientAndRemainder16_eq _ (by decide) (by decide)
  have htier' : getTier (portraitMintInfo p.boxType).tierChances (rand.toNat % 10000) = tier := by
    have hlt : rand.toNat % 10000 < MAX_TIER_CHANCE := Nat.mod_lt _ (by decide)
    rw [getTier_eq ht hasc hlt, htier]
  obtain ⟨hcpos, hcle⟩ := illuvialCounts_checked c (List.mem_of_getElem? hc)
  have hbt : getBackgroundTier getBackgroundTierChance tier p.boxType (rand.toNat / 10000 / c) =
      .ok (rand.toNat / 10000 / c / 10000, drawnBackgroundTier chances (rand.toNat / 10000 / c % 10000)) := by
    have hdraw : getQuotientAndRemainder16 (rand.toNat / 10000 / c) MAX_TIER_CHANCE =
        .ok (rand.toNat / 10000 / c / 10000, rand.toNat / 10000 / c % 10000) :=
      getQuotientAndRemainder16_eq _ (by decide) (by decide)
    simp only [getBackgroundTier, if_neg hb, hdraw, ok_bind, hchances, pure_eq_ok, drawnBackgroundTier]
  -- the draws of the background
  obtain ⟨hlpos, hlle⟩ := hB.length_lines
  obtain ⟨hspos, hsle⟩ := hB.length_stages
  obtain ⟨hnpos, hnle⟩ := hB.variations_le
  have hl8 : toUint8 ls.length = ls.length := toUint8_of_lt (by omega)
  have hs8 : toUint8 ss.length = ss.length := toUint8_of_lt (by omega)
  have hvariation : toNumber B.variation = .ok B.variation := by
    rw [hB.variation]
    exact toNumber_mod _ hnpos (by omega)
  simp only [getPortraitInfo, hchance, htier', hc, defined, ok_bind, getQuotientAndRemainder8_eq _ hcpos (by omega),
    toNumber_mod _ hcpos (by omega), hbt, hB.lines, hl8, getQuotientAndRemainder8_eq _ hlpos (by omega),
    toNumber_mod _ hlpos (by omega), hB.line, hB.stages, hs8, getQuotientAndRemainder8_eq _ hspos (by omega),
    toNumber_mod _ hspos (by omega), hB.stage, hB.variations, getQuotientAndRemainder8_eq _ hnpos (by omega),
    hvariation, getExpression_eq, getFinish_eq, illuvitarsHash_eq, pure_eq_ok, ← hB.variation,
    ← hB.quotient]
  rfl

end IlluvitarsMintResults

/-! ## What the Minter draws -/

namespace Minter

open IlluvitarsMintResults (Background)

variable {keccak256 : Keccak} {s : Storage} {rand q : Uint256} {p : PortraitMintParams}

/-- `formatPortraits` of the tests, on one portrait. -/
def formatPortrait (x : PortraitInfo) : IlluvitarsMintResults.Portrait where
  tokenId := x.tokenId.toNat
  boxType := x.boxType
  tier := x.tier.toNat
  illuvial := x.illuvial.toNat
  backgroundTier := x.backgroundTier.toNat
  backgroundLine := x.backgroundLine
  backgroundStage := x.backgroundStage.toNat
  backgroundVariation := x.backgroundVariation.toNat
  expression := x.expression.encoding
  finish := x.finish

/-- The background that a quotient draws from the tables of the last background tier. -/
def lastBackground (rest : ℕ) : Background :=
  if rest % 2 = 0 then ⟨.token, rest / 2 % 2 + 1, 0, rest / 4⟩ else ⟨.encounter, 3, rest / 2 % 2, rest / 4⟩

@[simp] theorem lastBackground_quotient (rest : ℕ) : (lastBackground rest).quotient = rest / 4 := by
  unfold lastBackground
  split
  · rfl
  · rfl

/-- The generator draws it for that tier. -/
theorem eq_lastBackground {rest n : ℕ} {ls : List BackgroundLine} {ss : List ℕ} {B : Background}
    (h : IlluvitarsMintResults.Draws 5 rest ls ss n B) : B = lastBackground rest := by
  obtain ⟨line, stage, variation, quotient⟩ := B
  obtain ⟨hls, hline, hss, hstage, hn, hv, hq, -, -, -⟩ := h
  dsimp only at hline hss hstage hn hv hq
  obtain rfl : [.token, .encounter] = ls := Option.some.inj hls
  have h4 : rest / 2 / 2 = rest / 4 := Nat.div_div_eq_div_mul rest 2 2
  rcases Nat.mod_two_eq_zero_or_one rest with h2 | h2
  · obtain rfl : BackgroundLine.token = line := by simpa [h2] using hline
    obtain rfl : [1, 2] = ss := Option.some.inj hss
    rcases Nat.mod_two_eq_zero_or_one (rest / 2) with h3 | h3
    · obtain rfl : 1 = stage := by simpa [h3] using hstage
      obtain rfl : 1 = n := Option.some.inj hn
      simp [lastBackground, h2, h3, hv, hq, h4, Nat.mod_one]
    · obtain rfl : 2 = stage := by simpa [h3] using hstage
      obtain rfl : 1 = n := Option.some.inj hn
      simp [lastBackground, h2, h3, hv, hq, h4, Nat.mod_one]
  · obtain rfl : BackgroundLine.encounter = line := by simpa [h2] using hline
    obtain rfl : [3] = ss := Option.some.inj hss
    obtain rfl : 3 = stage := by simpa [Nat.mod_one] using hstage
    obtain rfl : 2 = n := Option.some.inj hn
    simp [lastBackground, h2, hv, hq, h4]

/-- The draw of an element of a short list. -/
theorem pick_drawn {α : Type} {xs : List α} {a : α} (hlen : xs.length < 2 ^ 8) (h : pick xs rand = .ok (q, a)) :
    q.toNat = rand.toNat / xs.length ∧ xs[rand.toNat % xs.length]? = some a := by
  have hcast : (BitVec.ofNat 8 xs.length).toNat = xs.length := by
    rw [BitVec.toNat_ofNat, Nat.mod_eq_of_lt hlen]
  simp only [pick, bind_ok_iff, Prod.exists, pure_eq_ok, Except.ok.injEq, Prod.mk.injEq] at h
  obtain ⟨q', v, hdraw, a', hindex, rfl, rfl⟩ := h
  obtain ⟨-, hq, hv⟩ := (checkedDivMod_ok_iff (by decide)).1 hdraw
  rw [hcast] at hq hv
  rw [index_ok_iff, hv] at hindex
  exact ⟨hq, hindex⟩

/-- The Minter draws it as well. -/
theorem lastBackground_drawn (hs : s.tables = initialTables) {q₁ q₂ q₃ q₄ : Uint256} {line : BackgroundLine}
    {stage variation : Uint8} (hline : pick (s.tables.backgroundLines 5) q₁ = .ok (q₂, line))
    (hstage : pick (s.tables.backgroundStages 5 line) q₂ = .ok (q₃, stage))
    (hvariation : getQuotientAndRemainder8 q₃ (s.tables.backgroundVariations 5 line stage) = .ok (q₄, variation)) :
    lastBackground q₁.toNat = ⟨line, stage.toNat, variation.toNat, q₄.toNat⟩ := by
  rw [hs] at hline hstage hvariation
  have hlines : initialTables.backgroundLines 5 = [.token, .encounter] := rfl
  rw [hlines] at hline
  obtain ⟨hq₂, hline⟩ := pick_drawn (by simp) hline
  obtain ⟨-, hq₄, hv⟩ := (checkedDivMod_ok_iff (by decide)).1 hvariation
  have h4 : q₁.toNat / 2 / 2 = q₁.toNat / 4 := Nat.div_div_eq_div_mul q₁.toNat 2 2
  simp only [List.length_cons, List.length_nil, Nat.zero_add, Nat.reduceAdd] at hq₂ hline
  rcases Nat.mod_two_eq_zero_or_one q₁.toNat with h2 | h2
  · obtain rfl : BackgroundLine.token = line := by simpa [h2] using hline
    have hstages : initialTables.backgroundStages 5 .token = [1, 2] := rfl
    rw [hstages] at hstage
    obtain ⟨hq₃, hstage⟩ := pick_drawn (by simp) hstage
    simp only [List.length_cons, List.length_nil, Nat.zero_add, Nat.reduceAdd, hq₂] at hq₃ hstage
    have hone : (initialTables.backgroundVariations 5 .token stage).toNat = 1 ∧ stage.toNat = q₁.toNat / 2 % 2 + 1 := by
      rcases Nat.mod_two_eq_zero_or_one (q₁.toNat / 2) with h3 | h3
      · obtain rfl : 1 = stage := by simpa [h3] using hstage
        exact ⟨rfl, by rw [h3]; rfl⟩
      · obtain rfl : 2 = stage := by simpa [h3] using hstage
        exact ⟨rfl, by rw [h3]; rfl⟩
    rw [hone.1] at hq₄ hv
    simp [lastBackground, h2, hone.2, hv, hq₄, hq₃, h4, Nat.mod_one]
  · obtain rfl : BackgroundLine.encounter = line := by simpa [h2] using hline
    have hstages : initialTables.backgroundStages 5 .encounter = [3] := rfl
    rw [hstages] at hstage
    obtain ⟨hq₃, hstage⟩ := pick_drawn (by simp) hstage
    simp only [List.length_cons, List.length_nil, Nat.zero_add, Nat.div_one, hq₂] at hq₃ hstage
    obtain rfl : 3 = stage := by simpa [Nat.mod_one] using hstage
    have htwo : (initialTables.backgroundVariations 5 .encounter 3).toNat = 2 := rfl
    rw [htwo] at hq₄ hv
    simp [lastBackground, h2, hv, hq₄, hq₃, h4]

/-- The chances of the expressions, out of 100. -/
def expressionChances : List ℕ := [50, 80, 100]

/-- The expression of a portrait is drawn by rank, from the first two of four digits. -/
theorem getExpression_drawn (hs : s.tables = initialTables) {e : ExpressionType}
    (h : getExpression s rand = .ok (q, e)) :
    q.toNat = rand.toNat / 10000 ∧ e.encoding = rank expressionChances (rand.toNat / 100 % 100) := by
  have htable : initialTables.expressionProbability.toList.map BitVec.toNat = expressionChances.map (· * 100) := rfl
  have hasc : (expressionChances.map (· * 100)).Pairwise (· ≤ ·) := by decide
  have hsearch : ∀ v : Uint16, v.toNat < 10000 → firstAbove s.tables.expressionProbability.toList v =
      some (rank expressionChances (v.toNat / 100)) := by
    intro v hv
    have hfound := findIdx?_eq_rank hasc (show 10000 ∈ expressionChances.map (· * 100) by decide) hv
    rw [rank_map_mul (by omega), ← htable, List.findIdx?_map] at hfound
    rw [hs]
    exact hfound
  have hle : ∀ n, rank expressionChances n ≤ 3 := fun n => rank_le_length
  simp only [getExpression, bind_ok_iff, Prod.exists, draw16_ok_iff] at h
  obtain ⟨q', v, ⟨hq, hv⟩, h⟩ := h
  rw [hsearch v (by omega)] at h
  simp only [bind_ok_iff, pure_eq_ok, Except.ok.injEq, Prod.mk.injEq, ExpressionType.ofUint8_ok_iff] at h
  obtain ⟨e', he, rfl, rfl⟩ := h
  have := hle (v.toNat / 100)
  rw [BitVec.toNat_ofNat, Nat.mod_eq_of_lt (by omega), hv, show rand.toNat % 10000 / 100 = rand.toNat / 100 % 100 by
    omega] at he
  exact ⟨hq, he.symm⟩

/-- The finish that a chance draws. -/
def chanceFinish (s : Storage) (b : BoxType) (value : ℕ) : FinishType :=
  if value ≤ holoChance s b then .holo else .normal

/-- The tier of a portrait: the rank of its first chance. -/
def portraitTier (s : Storage) (b : BoxType) (rand : Uint256) : ℕ :=
  rank (entries (s.portraitMintInfo b).tierChances) (rand.toNat % 10000) + 1

theorem portraitTier_le (s : Storage) (b : BoxType) (rand : Uint256) :
    1 ≤ portraitTier s b rand ∧ portraitTier s b rand ≤ 5 := by
  have hle : rank (entries (s.portraitMintInfo b).tierChances) (rand.toNat % 10000) ≤ 4 :=
    length_entries (t := (s.portraitMintInfo b).tierChances) ▸ rank_le_length
  unfold portraitTier
  omega

/-- The number of illuvials of the tier. -/
def illuvialCount (s : Storage) (b : BoxType) (rand : Uint256) : ℕ :=
  IlluvitarsMintResults.illuvialCounts.getD (portraitTier s b rand) 0

theorem illuvialCounts_getElem? (s : Storage) (b : BoxType) (rand : Uint256) :
    IlluvitarsMintResults.illuvialCounts[portraitTier s b rand]? = some (illuvialCount s b rand) := by
  obtain ⟨-, hle⟩ := portraitTier_le s b rand
  have hlen : portraitTier s b rand < IlluvitarsMintResults.illuvialCounts.length := show _ < 6 by omega
  rw [illuvialCount, List.getD_eq_getElem?_getD, List.getElem?_eq_getElem hlen, Option.getD_some]

/-- **A portrait of a box that is not virtual.** -/
theorem getPortraitInfo_formatted (hs : s.tables = initialTables)
    (ht : ValidTierChances (s.portraitMintInfo p.boxType).tierChances) (hb : p.boxType ≠ .virtual) {tokenId : Uint256}
    {x : PortraitInfo} {next : Uint256 × Uint256} (h : getPortraitInfo keccak256 s rand p tokenId = .ok (x, next))
    {tier c : ℕ} (htier : rank (entries (s.portraitMintInfo p.boxType).tierChances) (rand.toNat % 10000) + 1 = tier)
    (hc : IlluvitarsMintResults.illuvialCounts[tier]? = some c) {B : Background}
    (hB : lastBackground (rand.toNat / (10000 * 10000) / c) = B) :
    formatPortrait x = ⟨tokenId.toNat, p.boxType, tier, rand.toNat / (10000 * 10000) % c, 5, B.line, B.stage,
      B.variation, rank expressionChances (B.quotient / 100 % 100),
      chanceFinish s p.boxType (B.quotient / 10000 % 10000)⟩ := by
  simp only [getPortraitInfo, bind_ok_iff, Prod.exists, pure_eq_ok, Except.ok.injEq, Prod.mk.injEq] at h
  obtain ⟨q₀, t, bt, htiers, count, hcount, q₁, illuvial, h₁, q₂, line, h₂, q₃, stage, h₃, q₄, variation, h₄,
    q₅, e, h₅, q₆, f, h₆, n, -, rfl, -⟩ := h
  obtain ⟨hq₀, rfl, rfl⟩ := (portraitTiers_ok_iff hb).1 htiers
  have ht' : (getTier (s.portraitMintInfo p.boxType).tierChances (BitVec.ofNat 16 (rand.toNat % 10000))).toNat =
      tier := by
    rw [getTier_toNat ht, BitVec.toNat_ofNat, Nat.mod_eq_of_lt (show rand.toNat % 10000 < 2 ^ 16 by omega), htier]
  -- the count of illuvials
  have hcounts : s.tables.illuvialCounts.toList.map BitVec.toNat = IlluvitarsMintResults.illuvialCounts := by
    rw [hs]
    rfl
  have hcount' : count.toNat = c := by
    rw [index_ok_iff, ht'] at hcount
    rw [← hcounts, List.getElem?_map, hcount] at hc
    exact Option.some.inj hc
  obtain ⟨-, hq₁, hilluvial⟩ := (checkedDivMod_ok_iff (by decide)).1 h₁
  rw [hcount', hq₀] at hq₁ hilluvial
  have hlast := lastBackground_drawn hs h₂ h₃ h₄
  rw [hq₁, hB] at hlast
  subst hlast
  obtain ⟨hq₅, he⟩ := getExpression_drawn hs h₅
  obtain ⟨-, hf⟩ := getFinish_ok_iff.1 h₆
  simp only [formatPortrait, ht', hilluvial, he, hf, hq₅, chanceFinish]
  rfl

end Minter
end Illuvitars
