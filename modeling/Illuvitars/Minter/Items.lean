import Illuvitars.Minter.Results
import Illuvitars.Minter.Tables

/-!
# Drawing one item

Every draw succeeds with consistent tables (`Tables.Consistent`), for every random number, and what it draws is declared
in the tables:

* `pick_ok`, `getAccessoryStage_ok`, `portraitTiers_ok`: the single draws;
* `getPortraitInfo_ok`, `getSemiAcccessoryInfo_ok`, `getFullAcccessoryInfo_ok`: an item is generated unless its token id
  overflows, and it is `Declared`.
-/

namespace Illuvitars
namespace Minter

open Evm

variable {s : Storage} {rand : Uint256}

/-! ## Single draws -/

/-- The draw of a chance. -/
theorem draw16_ok (rand : Uint256) :
    ∃ q v, getQuotientAndRemainder16 rand MAX_CHANCE = .ok (q, v) ∧ v.toNat < MAX_CHANCE.toNat := by
  obtain ⟨q, v, hok, -, -⟩ := checkedDivMod_spec (show 16 ≤ 256 by decide) rand (b := MAX_CHANCE) (by decide)
  exact ⟨q, v, hok, checkedDivMod_lt (by decide) hok⟩

/-- The draw below a nonzero count. -/
theorem draw8_ok (rand : Uint256) {b : Uint8} (hb : b ≠ 0) :
    ∃ q v, getQuotientAndRemainder8 rand b = .ok (q, v) ∧ v.toNat < b.toNat := by
  obtain ⟨q, v, hok, -, -⟩ := checkedDivMod_spec (show 8 ≤ 256 by decide) rand hb
  exact ⟨q, v, hok, checkedDivMod_lt (by decide) hok⟩

/-- The draw of an element. -/
theorem pick_ok {α : Type} {xs : List α} (h : Drawable xs) (rand : Uint256) :
    ∃ q x, pick xs rand = .ok (q, x) ∧ x ∈ xs := by
  obtain ⟨hne, hlen⟩ := h
  have hpos : 0 < xs.length := List.length_pos_of_ne_nil hne
  have hcast : (BitVec.ofNat 8 xs.length).toNat = xs.length := by
    rw [BitVec.toNat_ofNat, Nat.mod_eq_of_lt hlen]
  have hb : BitVec.ofNat 8 xs.length ≠ 0 := by
    intro h0
    rw [h0] at hcast
    exact absurd hcast (by simpa using hpos.ne)
  obtain ⟨q, v, hok, hv⟩ := draw8_ok rand hb
  rw [hcast] at hv
  refine ⟨q, xs[v.toNat], ?_, List.getElem_mem hv⟩
  have hindex : index xs v.toNat = .ok xs[v.toNat] := index_of_lt hv
  simp only [pick, hok, ok_bind, hindex, pure_eq_ok]

/-- The index that a search returns lies inside the table. -/
theorem firstAbove_lt {chances : List Uint16} {chance : Uint16} {i : ℕ} (h : firstAbove chances chance = some i) :
    i < chances.length := by
  have := List.findIdx?_eq_some_iff_getElem.1 h
  exact this.1

/-- A search in a table with the chance `MAX_CHANCE` finds something. -/
theorem firstAbove_some {chances : List Uint16} {chance : Uint16} (hmax : MAX_CHANCE ∈ chances)
    (h : chance.toNat < MAX_CHANCE.toNat) : ∃ i, firstAbove chances chance = some i ∧ i < chances.length := by
  cases hf : firstAbove chances chance with
  | some i => exact ⟨i, rfl, firstAbove_lt hf⟩
  | none =>
    have hlast := List.findIdx?_eq_none_iff.1 hf MAX_CHANCE hmax
    simp [h] at hlast

/-- The tiers drawn from a table of chances are 1 to 5. -/
theorem getTier_range (tierChances : Vector Uint16 TIER_CHANCE_LEN) (chance : Uint16) :
    1 ≤ (getTier tierChances chance).toNat ∧ (getTier tierChances chance).toNat ≤ 5 := by
  unfold getTier
  split
  · rename_i k hk
    have hlt : k < 4 := lt_of_lt_of_eq (firstAbove_lt hk) Vector.length_toList
    rw [BitVec.toNat_ofNat, Nat.mod_eq_of_lt (by omega)]
    omega
  · exact ⟨by decide, by decide⟩

theorem getExpression_ok (s : Storage) (rand : Uint256) : ∃ q e, getExpression s rand = .ok (q, e) := by
  obtain ⟨q, v, hok, -⟩ := draw16_ok rand
  rw [getExpression, hok, ok_bind]
  dsimp only
  split
  · rename_i i hi
    have hlt : i < 3 := by simpa using firstAbove_lt hi
    obtain ⟨e, he⟩ := ExpressionType.ofUint8_ok (n := BitVec.ofNat 8 i).2 (by
      rw [BitVec.toNat_ofNat, Nat.mod_eq_of_lt (by omega)]
      exact hlt)
    exact ⟨q, e, by rw [he]; rfl⟩
  · exact ⟨q, .normal, rfl⟩

theorem getFinish_ok (s : Storage) (rand : Uint256) (boxType : BoxType) :
    ∃ q f, getFinish s rand boxType = .ok (q, f) := by
  obtain ⟨q, v, hok, -⟩ := draw16_ok rand
  rw [getFinish, hok]
  exact ⟨_, _, rfl⟩

/-- The stage of an accessory is 1 to 3. -/
theorem getAccessoryStage_ok (hs : s.tables.Consistent) (rand : Uint256) :
    ∃ q stage, getAccessoryStage s rand = .ok (q, stage) ∧ 1 ≤ stage.toNat ∧ stage.toNat ≤ 3 := by
  obtain ⟨q, v, hok, hv⟩ := draw16_ok rand
  obtain ⟨i, hi, hlt⟩ := firstAbove_some hs.maxStage_mem hv
  rw [Vector.length_toList] at hlt
  have hstage : (BitVec.ofNat 8 (i + 1)).toNat = i + 1 := by
    rw [BitVec.toNat_ofNat, Nat.mod_eq_of_lt (by omega)]
  refine ⟨q, BitVec.ofNat 8 (i + 1), ?_, by omega, by omega⟩
  rw [getAccessoryStage, hok, ok_bind]
  simp only [hi]
  rfl

/-- The tiers of a portrait: zero for virtual boxes, 1 to 5 otherwise. -/
theorem portraitTiers_ok (s : Storage) (rand : Uint256) (boxType : BoxType) :
    ∃ q tier backgroundTier, portraitTiers s rand boxType = .ok (q, tier, backgroundTier) ∧
      (tier = 0 ↔ boxType = .virtual) ∧ tier.toNat < 6 ∧ backgroundTier.toNat < 6 := by
  by_cases hb : boxType = .virtual
  · exact ⟨rand, 0, 0, if_pos hb, by simp [hb], by decide, by decide⟩
  · obtain ⟨q, v, hok, -⟩ := draw16_ok rand
    obtain ⟨q', v', hok', -⟩ := draw16_ok q
    obtain ⟨h1, h5⟩ := getTier_range (s.portraitMintInfo boxType).tierChances v
    refine ⟨q', getTier (s.portraitMintInfo boxType).tierChances v, BitVec.ofNat 8 (TIER_CHANCE_LEN + 1), ?_, ?_,
      by omega, by decide⟩
    · simp [portraitTiers, getBackgroundTier, hb, hok, hok']
    · refine iff_of_false (fun h0 => ?_) hb
      rw [h0] at h1
      exact absurd h1 (by decide)

/-- The tier of an accessory. -/
theorem accessoryTier_ok (s : Storage) (rand : Uint256) (boxType : BoxType) :
    ∃ q tier, accessoryTier s rand boxType = .ok (q, tier) := by
  by_cases hb : boxType = .virtual
  · exact ⟨rand, 0, if_pos hb⟩
  · obtain ⟨q, v, hok, -⟩ := draw16_ok rand
    exact ⟨q, getTier (s.accessoryMintInfo boxType).tierChances v, by simp [accessoryTier, hb, hok]⟩

/-! ## Portraits -/

/-- A portrait whose attributes are declared in the tables. -/
structure PortraitInfo.Declared (t : Tables) (p : PortraitInfo) : Prop where
  tier_zero : p.tier = 0 ↔ p.boxType = .virtual
  tier_lt : p.tier.toNat < 6
  illuvial : p.illuvial.toNat < t.illuvialCounts[p.tier.toNat].toNat
  line : p.backgroundLine ∈ t.backgroundLines p.backgroundTier
  stage : p.backgroundStage ∈ t.backgroundStages p.backgroundTier p.backgroundLine
  variation : p.backgroundVariation.toNat <
    (t.backgroundVariations p.backgroundTier p.backgroundLine p.backgroundStage).toNat

/-- **A portrait is generated, and declared, unless its token id overflows.** -/
theorem getPortraitInfo_ok (keccak256 : Keccak) (hs : s.tables.Consistent) (rand : Uint256)
    (mintParam : PortraitMintParams) {tokenId nextTokenId : Uint256} (hid : nextTokenId.toNat = tokenId.toNat + 6) :
    ∃ p, getPortraitInfo keccak256 s rand mintParam tokenId = .ok (p, nextRandom keccak256 rand, nextTokenId) ∧
      p.tokenId = tokenId ∧ p.boxType = mintParam.boxType ∧ p.Declared s.tables := by
  obtain ⟨q, tier, bt, htiers, h0, htier, hbt⟩ := portraitTiers_ok s rand mintParam.boxType
  have hcast : BitVec.ofNat 8 bt.toNat = bt := by simp
  -- the draws, each from the quotient of the one before
  have hcount := hs.illuvials tier.toNat htier
  obtain ⟨q₁, illuvial, hi, hillu⟩ := draw8_ok q hcount
  have hlines := hs.lines bt.toNat hbt
  rw [hcast] at hlines
  obtain ⟨q₂, line, hl, hline⟩ := pick_ok hlines q₁
  have hstages := hs.stages bt.toNat hbt line (by rw [hcast]; exact hline)
  rw [hcast] at hstages
  obtain ⟨q₃, stage, hst, hstage⟩ := pick_ok hstages q₂
  have hvars := hs.variations bt.toNat hbt line (by rw [hcast]; exact hline) stage (by rw [hcast]; exact hstage)
  rw [hcast] at hvars
  obtain ⟨q₄, variation, hv, hvar⟩ := draw8_ok q₃ hvars
  obtain ⟨q₅, expression, he⟩ := getExpression_ok s q₄
  obtain ⟨q₆, finish, hf⟩ := getFinish_ok s q₅ mintParam.boxType
  have hindex : index s.tables.illuvialCounts.toList tier.toNat = .ok s.tables.illuvialCounts[tier.toNat] := by
    rw [index_of_lt (by simpa using htier)]
    simp
  have hnext : checkedAdd tokenId (PORTRAIT_MASK.setWidth 256) = .ok nextTokenId := checkedAdd_ok_iff.2 hid
  refine ⟨⟨tokenId, mintParam.boxType, tier, illuvial, bt, line, stage, variation, expression, finish⟩, ?_, rfl, rfl,
    ⟨h0, htier, hillu, hline, hstage, hvar⟩⟩
  simp only [getPortraitInfo, htiers, ok_bind, hindex, hi, hl, hst, hv, he, hf, hnext, pure_eq_ok]

/-! ## Accessories -/

/-- An accessory with a declared stage and type. -/
structure AccessoryInfo.Declared (a : AccessoryInfo) : Prop where
  stage_pos : 1 ≤ a.stage.toNat
  stage_le : a.stage.toNat ≤ 3
  type : a.accessoryType ∈ [.skin, .body, .eyeWear, .headWear, .props]

theorem AccessoryType.mem_all (t : AccessoryType) :
    t ∈ [AccessoryType.skin, .body, .eyeWear, .headWear, .props] := by
  cases t <;> decide

/-- **A semi-random accessory is generated, and declared, unless its token id overflows.** -/
theorem getSemiAcccessoryInfo_ok (keccak256 : Keccak) (hs : s.tables.Consistent) (rand : Uint256)
    (mintParam : AccessorySemiRandomMintParams) {tokenId nextTokenId : Uint256}
    (hid : nextTokenId.toNat = tokenId.toNat + 1) :
    ∃ a, getSemiAcccessoryInfo keccak256 s rand mintParam tokenId = .ok (a, nextRandom keccak256 rand, nextTokenId) ∧
      a.tokenId = tokenId ∧ a.boxType = mintParam.boxType ∧ a.accessoryType = mintParam.accessoryType ∧ a.Declared := by
  obtain ⟨q, tier, ht⟩ := accessoryTier_ok s rand mintParam.boxType
  obtain ⟨q', stage, hst, h1, h3⟩ := getAccessoryStage_ok hs q
  have hnext : checkedAdd tokenId 1 = .ok nextTokenId := checkedAdd_ok_iff.2 hid
  refine ⟨⟨tokenId, mintParam.boxType, mintParam.accessoryType, tier, stage⟩, ?_, rfl, rfl, rfl,
    ⟨h1, h3, AccessoryType.mem_all _⟩⟩
  simp only [getSemiAcccessoryInfo, ht, hst, ok_bind, hnext, pure_eq_ok]

/-- **A full-random accessory is generated, and declared, unless its token id overflows.** -/
theorem getFullAcccessoryInfo_ok (keccak256 : Keccak) (hs : s.tables.Consistent) (rand : Uint256)
    (mintParam : AccessoryFullRandomMintParams) {tokenId nextTokenId : Uint256}
    (hid : nextTokenId.toNat = tokenId.toNat + 1) :
    ∃ a, getFullAcccessoryInfo keccak256 s rand mintParam tokenId = .ok (a, nextRandom keccak256 rand, nextTokenId) ∧
      a.tokenId = tokenId ∧ a.boxType = mintParam.boxType ∧ a.Declared := by
  obtain ⟨q, tier, ht⟩ := accessoryTier_ok s rand mintParam.boxType
  obtain ⟨q', stage, hst, h1, h3⟩ := getAccessoryStage_ok hs q
  have hnext : checkedAdd tokenId 1 = .ok nextTokenId := checkedAdd_ok_iff.2 hid
  -- the remainder by 5 is the encoding of one of the five types
  have hmod : ((q % 5 : Uint256).setWidth 8 : Uint8).toNat < 5 := by
    have hlt : (q % 5 : Uint256).toNat < 5 := Nat.mod_lt _ (by decide)
    rw [toNat_narrow (by omega)]
    exact hlt
  obtain ⟨t, htype⟩ := AccessoryType.ofUint8_ok.2 hmod
  refine ⟨⟨tokenId, mintParam.boxType, t, tier, stage⟩, ?_, rfl, rfl, ⟨h1, h3, AccessoryType.mem_all _⟩⟩
  simp only [getFullAcccessoryInfo, ht, htype, hst, ok_bind, hnext, pure_eq_ok]

end Minter
end Illuvitars
