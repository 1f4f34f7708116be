import Illuvitars.Lib.Outcomes
import Illuvitars.Minter.Finality
import Illuvitars.Minter.PortraitOdds

/-!
# What the owner can make of a revealed result

A result is recomputed on every read, and the owner may set the chances of a box at any time, also when the seed is
known. `mintResult_final` says that nothing else changes a result; here is what this can change.

* `assignable_iff`: the tiers that tables of chances can give to draws;
* `FlatResult.tiers`: the tiers of a result are given by the owner's tables;
* `FlatResult.stripped`: the tiers leave nothing else to choose but the finish of the portraits;
* `owner_power`: the tiers that a request can be given, exactly.
-/

namespace Illuvitars
namespace Minter

open Evm Fill Chances

/-! ## Tiers for draws -/

/-- The tables of chances, for each box. -/
abbrev ChanceTables := BoxType → Vector Uint16 TIER_CHANCE_LEN

/-- The tier of a draw: none for virtual boxes. -/
def tierOf (t : ChanceTables) (d : BoxType × ℕ) : ℕ :=
  if d.1 = .virtual then 0 else rank (entries (t d.1)) d.2 + 1

/-- The tiers `ts` may be given to the draws `ds`: each is one of the five, and within a box a higher draw has no lower
tier. -/
structure Assignable (ds : List (BoxType × ℕ)) (ts : List ℕ) : Prop where
  length : ts.length = ds.length
  virtual : ∀ d t, (d, t) ∈ ds.zip ts → d.1 = .virtual → t = 0
  range : ∀ d t, (d, t) ∈ ds.zip ts → d.1 ≠ .virtual → 1 ≤ t ∧ t ≤ 5
  ascending : ∀ d t e u, (d, t) ∈ ds.zip ts → (e, u) ∈ ds.zip ts → d.1 = e.1 → d.2 ≤ e.2 → t ≤ u

/-- A table with given entries. -/
theorem exists_tierChances {cs : List ℕ} (hlen : cs.length = 4) (hcs : cs.Pairwise (· ≤ ·))
    (hle : ∀ c ∈ cs, c ≤ 10000) : ∃ t : Vector Uint16 TIER_CHANCE_LEN, ValidTierChances t ∧ entries t = cs := by
  match cs, hlen with
  | [a, b, c, d], _ =>
    have hword : ∀ x ∈ [a, b, c, d], (BitVec.ofNat 16 x).toNat = x := by
      intro x hx
      have := hle x hx
      rw [BitVec.toNat_ofNat, Nat.mod_eq_of_lt (by omega)]
    simp only [List.mem_cons, List.not_mem_nil, or_false, forall_eq_or_imp, forall_eq] at hword hle
    obtain ⟨ha, hb, hc, hd⟩ := hword
    have hentries : entries #v[BitVec.ofNat 16 a, BitVec.ofNat 16 b, BitVec.ofNat 16 c, BitVec.ofNat 16 d] =
        [a, b, c, d] := by
      show [(BitVec.ofNat 16 a).toNat, (BitVec.ofNat 16 b).toNat, (BitVec.ofNat 16 c).toNat,
        (BitVec.ofNat 16 d).toNat] = _
      rw [ha, hb, hc, hd]
    refine ⟨_, ⟨?_, ?_⟩, hentries⟩
    · rw [← List.isChain_map BitVec.toNat, List.isChain_iff_pairwise]
      show (entries _).Pairwise (· ≤ ·)
      rw [hentries]
      exact hcs
    · show (BitVec.ofNat 16 d).toNat ≤ 10000
      rw [hd]
      exact hle.2.2.2

/-- The draws of a box with the ranks that are wanted for them. -/
def wishes (ds : List (BoxType × ℕ)) (ts : List ℕ) (b : BoxType) : List (ℕ × ℕ) :=
  ((ds.zip ts).filter fun x => decide (x.1.1 = b)).map fun x => (x.1.2, x.2 - 1)

theorem mem_wishes {ds : List (BoxType × ℕ)} {ts : List ℕ} {b : BoxType} {x : ℕ × ℕ} :
    x ∈ wishes ds ts b ↔ ∃ t, ((b, x.1), t) ∈ ds.zip ts ∧ x.2 = t - 1 := by
  simp only [wishes, List.mem_map, List.mem_filter, decide_eq_true_eq]
  constructor
  · rintro ⟨⟨⟨_, v⟩, t⟩, ⟨hmem, rfl⟩, rfl⟩
    exact ⟨t, hmem, rfl⟩
  · rintro ⟨t, hmem, hx⟩
    exact ⟨((b, x.1), t), ⟨hmem, rfl⟩, by rw [← hx]⟩

/-- A list is the image of another iff it has its length and the images stand next to each other. -/
theorem eq_map_iff {A B : Type} {f : A → B} {as : List A} {bs : List B} :
    bs = as.map f ↔ bs.length = as.length ∧ ∀ a b, (a, b) ∈ as.zip bs → b = f a := by
  induction as generalizing bs with
  | nil => simp
  | cons a as ih =>
    cases bs with
    | nil => simp
    | cons b bs =>
      simp only [List.map_cons, List.cons.injEq, ih, List.length_cons, Nat.add_right_cancel_iff, List.zip_cons_cons,
        List.mem_cons, Prod.mk.injEq]
      constructor
      · rintro ⟨rfl, hlen, h⟩
        refine ⟨hlen, ?_⟩
        rintro a' b' (⟨rfl, rfl⟩ | hmem)
        · rfl
        · exact h a' b' hmem
      · rintro ⟨hlen, h⟩
        exact ⟨h a b (.inl ⟨rfl, rfl⟩), hlen, fun a' b' hmem => h a' b' (.inr hmem)⟩

/-- A table for the wishes of a box. -/
theorem Assignable.exists_tierChances {ds : List (BoxType × ℕ)} {ts : List ℕ} (h : Assignable ds ts)
    (hds : ∀ d ∈ ds, d.2 < 10000) {b : BoxType} (hb : b ≠ .virtual) :
    ∃ t : Vector Uint16 TIER_CHANCE_LEN, ValidTierChances t ∧ ∀ x ∈ wishes ds ts b, rank (entries t) x.1 = x.2 := by
  have hN : ∀ x ∈ wishes ds ts b, x.1 < 10000 := by
    intro x hx
    obtain ⟨t, hmem, -⟩ := mem_wishes.1 hx
    exact hds _ (List.of_mem_zip hmem).1
  have hrange : ∀ x ∈ wishes ds ts b, x.2 ≤ 4 := by
    intro x hx
    obtain ⟨t, hmem, hxt⟩ := mem_wishes.1 hx
    have := h.range _ _ hmem hb
    omega
  have hmono : ∀ x ∈ wishes ds ts b, ∀ y ∈ wishes ds ts b, x.1 ≤ y.1 → x.2 ≤ y.2 := by
    intro x hx y hy hxy
    obtain ⟨t, hmem, hxt⟩ := mem_wishes.1 hx
    obtain ⟨u, hmem', hyu⟩ := mem_wishes.1 hy
    have := h.ascending _ _ _ _ hmem hmem' rfl hxy
    omega
  obtain ⟨cs, hlen, hcs, hle, hrank⟩ := (exists_table_iff hN).2 ⟨hrange, hmono⟩
  obtain ⟨t, ht, rfl⟩ := Minter.exists_tierChances hlen hcs hle
  exact ⟨t, ht, hrank⟩

/-- **The tiers that tables of chances can give to draws.** -/
theorem assignable_iff {ds : List (BoxType × ℕ)} {ts : List ℕ} (hds : ∀ d ∈ ds, d.2 < 10000) :
    Assignable ds ts ↔ ∃ t : ChanceTables, (∀ b, ValidTierChances (t b)) ∧ ts = ds.map (tierOf t) := by
  simp only [eq_map_iff]
  constructor
  · intro h
    have hbox : ∀ b, ∃ t : Vector Uint16 TIER_CHANCE_LEN, ValidTierChances t ∧
        (b ≠ .virtual → ∀ x ∈ wishes ds ts b, rank (entries t) x.1 = x.2) := by
      intro b
      by_cases hb : b = .virtual
      · exact ⟨Vector.replicate TIER_CHANCE_LEN 0, ⟨by decide, by decide⟩, fun h => absurd hb h⟩
      · obtain ⟨t, ht, hrank⟩ := h.exists_tierChances hds hb
        exact ⟨t, ht, fun _ => hrank⟩
    choose t ht hrank using hbox
    refine ⟨t, ht, h.length, ?_⟩
    intro d u hmem
    unfold tierOf
    split
    · rename_i hv
      exact h.virtual d u hmem hv
    · rename_i hv
      have := h.range d u hmem hv
      rw [hrank d.1 hv (d.2, u - 1) (mem_wishes.2 ⟨u, hmem, rfl⟩)]
      omega
  · rintro ⟨t, ht, hlen, htier⟩
    refine ⟨hlen, ?_, ?_, ?_⟩
    · intro d u hmem hv
      rw [htier d u hmem, tierOf, if_pos hv]
    · intro d u hmem hv
      have hle : rank (entries (t d.1)) d.2 ≤ 4 := length_entries (t := t d.1) ▸ rank_le_length
      rw [htier d u hmem, tierOf, if_neg hv]
      omega
    · intro d u e v hmem hmem' hbox hle
      rw [htier d u hmem, htier e v hmem', tierOf, tierOf, hbox]
      split
      · exact le_refl 0
      · exact Nat.succ_le_succ (rank_mono hle)

/-! ## The draws of a request -/

variable {X : Type} {chain : Chain X} {keccak256 : Keccak} {s : Storage} {w w' : World X} {r : MintRequest}
  {res res' : MintResult} {k : RequestKey}

/-- The `i`-th draw of a list of units: the last digits of the `i`-th hash. -/
def drawsOf {U : Type} (keccak256 : Keccak) (box : U → BoxType) (us : List U) (rand : Uint256) :
    List (BoxType × ℕ) :=
  us.mapIdx fun i u => (box u, ((nextRandom keccak256)^[i] rand).toNat % 10000)

/-- The draws for the tiers of the portraits, -/
def portraitDraws (keccak256 : Keccak) (r : MintRequest) : List (BoxType × ℕ) :=
  drawsOf keccak256 PortraitMintParams.boxType (portraitUnits r) r.randomNumber

/-- and those for the tiers of the accessories, which go on behind the portraits. -/
def accessoryDraws (keccak256 : Keccak) (r : MintRequest) : List (BoxType × ℕ) :=
  drawsOf keccak256 (fun u => u.kind.2) (accessoryUnits r)
    ((nextRandom keccak256)^[r.portraitAmount.toNat] r.randomNumber)

theorem drawsOf_lt {U : Type} (keccak256 : Keccak) (box : U → BoxType) (us : List U) (rand : Uint256) :
    ∀ d ∈ drawsOf keccak256 box us rand, d.2 < 10000 := by
  intro d hd
  simp only [drawsOf, List.mem_mapIdx] at hd
  obtain ⟨i, hi, rfl⟩ := hd
  exact Nat.mod_lt _ (by omega)

/-- A generator whose items have the tier of their draw gives a list the tiers of its draws. -/
theorem FlatItems.tiers {U I : Type} {gen : U → Uint256 → Uint256 → Exec (I × Uint256 × Uint256)}
    {tokenId : I → Uint256} {tier : I → Uint8} {box : U → BoxType} {t : ChanceTables} {us : List U}
    {rand start : Uint256} {width : ℕ} {items : List I}
    (hgen : ∀ u rand id x next, gen u rand id = .ok (x, next) →
      (tier x).toNat = tierOf t (box u, rand.toNat % 10000))
    (h : FlatItems keccak256 gen tokenId us rand start width items) :
    items.map (fun x => (tier x).toNat) = (drawsOf keccak256 box us rand).map (tierOf t) := by
  refine List.ext_getElem? fun i => ?_
  rcases Nat.lt_or_ge i us.length with hi | hi
  · obtain ⟨x, next, hx, -, hok⟩ := h.item i us[i] (List.getElem?_eq_getElem hi)
    simp [drawsOf, hx, hi, hgen _ _ _ _ _ hok]
  · rw [List.getElem?_eq_none (by rw [List.length_map, h.length]; exact hi),
      List.getElem?_eq_none (by simp [drawsOf, hi])]

/-- The tables of the portraits. -/
def Storage.portraitChances (s : Storage) : ChanceTables := fun b => (s.portraitMintInfo b).tierChances

/-- The tables of the accessories. -/
def Storage.accessoryChances (s : Storage) : ChanceTables := fun b => (s.accessoryMintInfo b).tierChances

/-- The tier of a portrait is the tier of its draw. -/
theorem getPortraitInfo_tier (h : Reachable chain w) {rand tokenId : Uint256} {param : PortraitMintParams}
    {x : PortraitInfo × Uint256 × Uint256} (hok : getPortraitInfo keccak256 w.storage rand param tokenId = .ok x) :
    x.1.tier.toNat = tierOf w.storage.portraitChances (param.boxType, rand.toNat % 10000) := by
  unfold tierOf
  split
  · rename_i hv
    obtain ⟨-, ⟨q, htiers⟩, -⟩ := getPortraitInfo_drawn hok
    rw [portraitTiers, if_pos hv] at htiers
    simp only [Except.ok.injEq, Prod.mk.injEq] at htiers
    rw [← htiers.2.1]
    rfl
  · rename_i hv
    exact (tiers_of_portrait h hv hok).2.1

/-- The tier of an accessory, by its draw. -/
theorem accessoryTier_tierOf (h : Reachable chain w) {rand q : Uint256} {b : BoxType} {tier : Uint8}
    (hok : accessoryTier w.storage rand b = .ok (q, tier)) :
    tier.toNat = tierOf w.storage.accessoryChances (b, rand.toNat % 10000) := by
  unfold tierOf
  split
  · rename_i hv
    rw [accessoryTier, if_pos hv] at hok
    simp only [Except.ok.injEq, Prod.mk.injEq] at hok
    rw [← hok.2]
    rfl
  · rename_i hv
    exact ((accessoryTier_ok_iff hv (tierChances_reachable h _).2).1 hok).2

/-- An accessory is drawn with its tier first. -/
theorem getAccessoryInfo_accessoryTier {u : AccessoryUnit} {rand tokenId : Uint256}
    {x : AccessoryInfo × Uint256 × Uint256} (hok : getAccessoryInfo keccak256 s u rand tokenId = .ok x) :
    ∃ q, accessoryTier s rand u.kind.2 = .ok (q, x.1.tier) := by
  cases u with
  | inl p =>
    simp only [getAccessoryInfo, getSemiAcccessoryInfo, bind_ok_iff, Prod.exists, pure_eq_ok, Except.ok.injEq] at hok
    obtain ⟨q, tier, htier, _, _, -, _, -, rfl⟩ := hok
    exact ⟨q, htier⟩
  | inr p =>
    simp only [getAccessoryInfo, getFullAcccessoryInfo, bind_ok_iff, Prod.exists, pure_eq_ok, Except.ok.injEq] at hok
    obtain ⟨q, tier, htier, _, -, _, _, -, _, -, rfl⟩ := hok
    exact ⟨q, htier⟩

/-- The tiers of a result: of its portraits and of its accessories. -/
def MintResult.tiers (res : MintResult) : List ℕ × List ℕ :=
  (res.portraits.map fun p => p.tier.toNat, res.accessories.map fun a => a.tier.toNat)

/-- **The tiers of a result are those that the owner's tables give to its draws.** -/
theorem FlatResult.tiers (h : Reachable chain w) (hflat : FlatResult keccak256 w.storage r res) :
    res.tiers = ((portraitDraws keccak256 r).map (tierOf w.storage.portraitChances),
      (accessoryDraws keccak256 r).map (tierOf w.storage.accessoryChances)) := by
  refine Prod.ext ?_ ?_
  · exact hflat.portraits.tiers fun u rand id x next hok => getPortraitInfo_tier h hok
  · refine hflat.accessories.tiers fun u rand id x next hok => ?_
    obtain ⟨q, htier⟩ := getAccessoryInfo_accessoryTier hok
    exact accessoryTier_tierOf h htier

/-! ## The rest of a result -/

/-- Lists of flat items whose generators agree on `g` wherever they agree on `f`. -/
theorem FlatItems.congr {U I F G : Type} {gen gen' : U → Uint256 → Uint256 → Exec (I × Uint256 × Uint256)}
    {tokenId : I → Uint256} {f : I → F} {g : I → G} {us : List U} {rand start : Uint256} {width : ℕ}
    {items items' : List I}
    (hgen : ∀ u rand id x x', gen u rand id = .ok x → gen' u rand id = .ok x' → f x.1 = f x'.1 → g x.1 = g x'.1)
    (h : FlatItems keccak256 gen tokenId us rand start width items)
    (h' : FlatItems keccak256 gen' tokenId us rand start width items') (hf : items.map f = items'.map f) :
    items.map g = items'.map g := by
  refine List.ext_getElem? fun i => ?_
  rcases Nat.lt_or_ge i us.length with hi | hi
  · obtain ⟨x, n, hx, hid, hok⟩ := h.item i us[i] (List.getElem?_eq_getElem hi)
    obtain ⟨x', n', hx', hid', hok'⟩ := h'.item i us[i] (List.getElem?_eq_getElem hi)
    have hsame : f x = f x' := by
      have := congrArg (fun l => l[i]?) hf
      simpa [hx, hx'] using this
    have ht : tokenId x = tokenId x' := BitVec.eq_of_toNat_eq (hid.trans hid'.symm)
    rw [← ht] at hok'
    simp [hx, hx', hgen _ _ _ _ _ hok hok' hsame]
  · rw [List.getElem?_eq_none (by rw [List.length_map, h.length]; exact hi),
      List.getElem?_eq_none (by rw [List.length_map, h'.length]; exact hi)]

/-- A portrait without its finish. -/
def PortraitInfo.stripped (p : PortraitInfo) : PortraitInfo := { p with finish := .normal }

/-- A result without the finish of its portraits. -/
def MintResult.stripped (res : MintResult) : MintResult :=
  { res with portraits := res.portraits.map PortraitInfo.stripped }

/-- The quotient behind the tiers, and the background tier, do not depend on the owner's tables. -/
theorem portraitTiers_rest {s' : Storage} {rand q q' : Uint256} {b : BoxType} {tier bt tier' bt' : Uint8}
    (h : portraitTiers s rand b = .ok (q, tier, bt)) (h' : portraitTiers s' rand b = .ok (q', tier', bt')) :
    q = q' ∧ bt = bt' := by
  by_cases hb : b = .virtual
  · rw [portraitTiers, if_pos hb] at h h'
    cases h
    cases h'
    exact ⟨rfl, rfl⟩
  · obtain ⟨hq, -, rfl⟩ := (portraitTiers_ok_iff hb).1 h
    obtain ⟨hq', -, rfl⟩ := (portraitTiers_ok_iff hb).1 h'
    exact ⟨BitVec.eq_of_toNat_eq (hq.trans hq'.symm), rfl⟩

/-- **A portrait is determined by its tier up to the finish.** -/
theorem getPortraitInfo_stripped {s' : Storage} (ht : s'.tables = s.tables) {rand tokenId : Uint256}
    {param : PortraitMintParams} {x x' : PortraitInfo × Uint256 × Uint256}
    (h : getPortraitInfo keccak256 s rand param tokenId = .ok x)
    (h' : getPortraitInfo keccak256 s' rand param tokenId = .ok x') (htier : x.1.tier = x'.1.tier) :
    x.1.stripped = x'.1.stripped := by
  have hexpr : ∀ q, getExpression s' q = getExpression s q := by
    intro q
    rw [getExpression, getExpression, ht]
  simp only [getPortraitInfo, bind_ok_iff, Prod.exists, pure_eq_ok, Except.ok.injEq, ht, hexpr] at h h'
  obtain ⟨q₀, tier, bt, htiers, count, hcount, q₁, illuvial, h₁, q₂, line, h₂, q₃, stage, h₃, q₄, variation, h₄,
    q₅, e, h₅, q₆, f, h₆, next, hnext, rfl⟩ := h
  obtain ⟨q₀', tier', bt', htiers', count', hcount', q₁', illuvial', h₁', q₂', line', h₂', q₃', stage', h₃', q₄',
    variation', h₄', q₅', e', h₅', q₆', f', h₆', next', hnext', rfl⟩ := h'
  -- the same tier, then one draw after the other is the same
  obtain rfl : tier = tier' := htier
  obtain ⟨rfl, rfl⟩ := portraitTiers_rest htiers htiers'
  obtain rfl : count = count' := Except.ok.inj (hcount.symm.trans hcount')
  obtain ⟨rfl, rfl⟩ := Prod.mk.inj (Except.ok.inj (h₁.symm.trans h₁'))
  obtain ⟨rfl, rfl⟩ := Prod.mk.inj (Except.ok.inj (h₂.symm.trans h₂'))
  obtain ⟨rfl, rfl⟩ := Prod.mk.inj (Except.ok.inj (h₃.symm.trans h₃'))
  obtain ⟨rfl, rfl⟩ := Prod.mk.inj (Except.ok.inj (h₄.symm.trans h₄'))
  obtain ⟨rfl, rfl⟩ := Prod.mk.inj (Except.ok.inj (h₅.symm.trans h₅'))
  rfl

/-- The quotient behind the tier of an accessory does not depend on the owner's tables. -/
theorem accessoryTier_rest {s' : Storage} {rand q q' : Uint256} {b : BoxType} {tier tier' : Uint8}
    (h : accessoryTier s rand b = .ok (q, tier)) (h' : accessoryTier s' rand b = .ok (q', tier')) : q = q' := by
  by_cases hb : b = .virtual
  · rw [accessoryTier, if_pos hb] at h h'
    cases h
    cases h'
    rfl
  · simp only [accessoryTier, if_neg hb, bind_ok_iff, Prod.exists, pure_eq_ok, Except.ok.injEq, Prod.mk.injEq] at h h'
    obtain ⟨q₁, v, hdraw, rfl, -⟩ := h
    obtain ⟨q₁', v', hdraw', rfl, -⟩ := h'
    exact (Prod.mk.inj (Except.ok.inj (hdraw.symm.trans hdraw'))).1

/-- **An accessory is determined by its tier.** -/
theorem getAccessoryInfo_eq {s' : Storage} (ht : s'.tables = s.tables) {u : AccessoryUnit} {rand tokenId : Uint256}
    {x x' : AccessoryInfo × Uint256 × Uint256} (h : getAccessoryInfo keccak256 s u rand tokenId = .ok x)
    (h' : getAccessoryInfo keccak256 s' u rand tokenId = .ok x') (htier : x.1.tier = x'.1.tier) : x.1 = x'.1 := by
  have hstage : ∀ q, getAccessoryStage s' q = getAccessoryStage s q := getAccessoryStage_congr ht
  cases u with
  | inl p =>
    simp only [getAccessoryInfo, getSemiAcccessoryInfo, bind_ok_iff, Prod.exists, pure_eq_ok, Except.ok.injEq,
      hstage] at h h'
    obtain ⟨q, tier, hq, q₁, stage, h₁, _, -, rfl⟩ := h
    obtain ⟨q', tier', hq', q₁', stage', h₁', _, -, rfl⟩ := h'
    obtain rfl : tier = tier' := htier
    obtain rfl := accessoryTier_rest hq hq'
    obtain ⟨rfl, rfl⟩ := Prod.mk.inj (Except.ok.inj (h₁.symm.trans h₁'))
    rfl
  | inr p =>
    simp only [getAccessoryInfo, getFullAcccessoryInfo, bind_ok_iff, Prod.exists, pure_eq_ok, Except.ok.injEq,
      hstage] at h h'
    obtain ⟨q, tier, hq, type, h₀, q₁, stage, h₁, _, -, rfl⟩ := h
    obtain ⟨q', tier', hq', type', h₀', q₁', stage', h₁', _, -, rfl⟩ := h'
    obtain rfl : tier = tier' := htier
    obtain rfl := accessoryTier_rest hq hq'
    obtain rfl : type = type' := Except.ok.inj (h₀.symm.trans h₀')
    obtain ⟨rfl, rfl⟩ := Prod.mk.inj (Except.ok.inj (h₁.symm.trans h₁'))
    rfl

/-- **Two results of a record with the same tiers are the same up to the finish of the portraits.** -/
theorem FlatResult.stripped {s' : Storage} (ht : s'.tables = s.tables) (h : FlatResult keccak256 s r res)
    (h' : FlatResult keccak256 s' r res') (htiers : res.tiers = res'.tiers) : res.stripped = res'.stripped := by
  obtain ⟨hp, ha⟩ := Prod.mk.inj htiers
  have hportraits : res.portraits.map PortraitInfo.stripped = res'.portraits.map PortraitInfo.stripped :=
    h.portraits.congr (fun _ _ _ _ _ hok hok' heq => getPortraitInfo_stripped ht hok hok' (BitVec.eq_of_toNat_eq heq))
      h'.portraits hp
  have haccessories : res.accessories.map id = res'.accessories.map id :=
    h.accessories.congr (fun _ _ _ _ _ hok hok' heq => getAccessoryInfo_eq ht hok hok' (BitVec.eq_of_toNat_eq heq))
      h'.accessories ha
  rw [List.map_id, List.map_id] at haccessories
  unfold MintResult.stripped
  rw [hportraits, haccessories, h.requester, h'.requester, h.seed, h'.seed]

/-! ## The calls of the owner -/

/-- Calls that set the chances of a box. -/
def Op.SetsChances : Op → Prop
  | .setPortraitMintInfo _ _ | .setAccessoryMintInfo _ _ => True
  | _ => False

/-- The calls that give the boxes `bs` the tables `t` and `t'`, and leave prices and holo chances as they are in `s`. -/
def setChances (s : Storage) (t t' : ChanceTables) (bs : List BoxType) : List Op :=
  bs.flatMap fun b => [.setPortraitMintInfo b { s.portraitMintInfo b with tierChances := t b },
    .setAccessoryMintInfo b { s.accessoryMintInfo b with tierChances := t' b }]

theorem setsChances_of_mem {t t' : ChanceTables} {bs : List BoxType} : ∀ op ∈ setChances s t t' bs, op.SetsChances := by
  intro op hop
  simp only [setChances, List.mem_flatMap, List.mem_cons, List.not_mem_nil, or_false] at hop
  obtain ⟨b, -, rfl | rfl⟩ := hop
  · trivial
  · trivial

theorem transactions_append (ts us : List (Msg × Op)) (w : World X) :
    transactions chain (ts ++ us) w = transactions chain us (transactions chain ts w) := by
  induction ts generalizing w with
  | nil => rfl
  | cons t ts ih => exact ih _

/-- The world with other prices and chances for a box. -/
def World.setMintInfo (w : World X) (b : BoxType) (info : PortraitMintInfo) (info' : AccessoryMintInfo) : World X :=
  { w with storage := { w.storage with
    portraitMintInfo := Function.update w.storage.portraitMintInfo b info
    accessoryMintInfo := Function.update w.storage.accessoryMintInfo b info' } }

/-- The owner sets the chances of one box. -/
theorem transactions_round {msg : Msg} {b : BoxType} {info : PortraitMintInfo} {info' : AccessoryMintInfo}
    (hv : msg.value = 0) (ho : w.storage.owner = msg.sender) (hb : b ≠ .virtual)
    (ht : ValidTierChances info.tierChances) (ht' : ValidTierChances info'.tierChances) :
    transactions chain [(msg, .setPortraitMintInfo b info), (msg, .setAccessoryMintInfo b info')] w =
      w.setMintInfo b info info' := by
  have ht := validateTierChances_ok_iff (u := ()).2 ht
  have ht' := validateTierChances_ok_iff (u := ()).2 ht'
  simp [transactions, transact, call, setPortraitMintInfo, setAccessoryMintInfo, nonPayable, onlyOwner, require, hv, ho,
    hb, ht, ht', World.setMintInfo]

/-- **What the calls write.** -/
theorem transactions_setChances {msg : Msg} (s : Storage) {t t' : ChanceTables} (hv : msg.value = 0)
    (ht : ∀ b, ValidTierChances (t b)) (ht' : ∀ b, ValidTierChances (t' b)) {bs : List BoxType}
    (hbs : ∀ b ∈ bs, b ≠ .virtual) (ho : w.storage.owner = msg.sender) (b : BoxType) :
    (transactions chain ((setChances s t t' bs).map fun op => (msg, op)) w).storage.portraitChances b =
        (if b ∈ bs then t b else w.storage.portraitChances b) ∧
      (transactions chain ((setChances s t t' bs).map fun op => (msg, op)) w).storage.accessoryChances b =
        (if b ∈ bs then t' b else w.storage.accessoryChances b) := by
  induction bs generalizing w with
  | nil => simp [setChances, transactions]
  | cons b₀ bs ih =>
    obtain ⟨u, hu⟩ : ∃ u, u = w.setMintInfo b₀ { s.portraitMintInfo b₀ with tierChances := t b₀ }
      { s.accessoryMintInfo b₀ with tierChances := t' b₀ } := ⟨_, rfl⟩
    have hround : transactions chain ((setChances s t t' (b₀ :: bs)).map fun op => (msg, op)) w =
        transactions chain ((setChances s t t' bs).map fun op => (msg, op)) u := by
      rw [hu, ← transactions_round hv ho (hbs b₀ List.mem_cons_self) (ht b₀) (ht' b₀), ← transactions_append]
      simp [setChances]
    have hou : u.storage.owner = msg.sender := by
      rw [hu]
      exact ho
    rw [hround]
    obtain ⟨hp, ha⟩ := ih (fun b hb => hbs b (List.mem_cons_of_mem _ hb)) hou
    rw [hp, ha, hu]
    by_cases hb : b = b₀
    · subst hb
      simp [World.setMintInfo, Storage.portraitChances, Storage.accessoryChances]
    · simp [World.setMintInfo, hb, Storage.portraitChances, Storage.accessoryChances]

/-! ## Runs -/

/-- A request has its seed wherever its record is the same. -/
theorem Seeded.congr {s' : Storage} (h : Seeded s k) (hsame : s'.request k = s.request k) : Seeded s' k := by
  have hrecorded : Recorded s' k := by
    rw [Recorded, hsame]
    exact h.recorded
  cases k with
  | paid id =>
    refine ⟨hrecorded, ?_⟩
    show (s'.request (.paid id)).randomNumber ≠ 0
    rw [hsame]
    exact h.2
  | free idx => exact hrecorded

/-- No run changes a request with a seed. -/
theorem run_request {ls : List Label} (h : Reachable chain w) (hk : Seeded w.storage k)
    (hrun : Lts.Run (Step chain) w ls w') :
    w'.storage.request k = w.storage.request k ∧ Seeded w'.storage k := by
  have hI := hrun.invariant (P := fun _ => True) (I := fun u => Reachable chain u ∧
    u.storage.request k = w.storage.request k ∧ Seeded u.storage k) ?_ (fun _ _ => trivial) ⟨h, rfl, hk⟩
  · exact hI.2
  intro u l u' _ hu hs
  obtain ⟨hreach, hreq, hseed⟩ := hu
  have hsame : u'.storage.request k = u.storage.request k := by
    rcases step_cases hs (Reachable.fixed hreach).1 with ⟨msg, op, -, -, he⟩ | ⟨hst, -, -⟩
    · exact he.request_seeded (ledger_reachable hreach) hseed
    · rw [hst]
  exact ⟨hreach.snoc hs, hsame.trans hreq, hseed.congr hsame⟩

/-- After any run the result of the request is flat for the same record. -/
theorem run_flat {ls : List Label} (h : Reachable chain w) (hk : Seeded w.storage k)
    (hrun : Lts.Run (Step chain) w ls w') :
    ∃ res, getMintResult chain.keccak256 w'.storage k = .ok res ∧
      FlatResult chain.keccak256 w'.storage (w.storage.request k) res := by
  obtain ⟨hreq, hk'⟩ := run_request h hk hrun
  obtain ⟨res, hok, hflat⟩ := Reachable.flat (Lts.Reachable.run h hrun) hk' chain.keccak256
  exact ⟨res, hok, hreq ▸ hflat⟩

/-- The tiers that the draws of the record may be given. -/
def MintRequest.Assignable (keccak256 : Keccak) (r : MintRequest) (tiers : List ℕ × List ℕ) : Prop :=
  Minter.Assignable (portraitDraws keccak256 r) tiers.1 ∧ Minter.Assignable (accessoryDraws keccak256 r) tiers.2

/-- Whatever is called, the tiers of the result are assignable. -/
theorem assignable_of_run {ls : List Label} (h : Reachable chain w) (hk : Seeded w.storage k)
    (hrun : Lts.Run (Step chain) w ls w') (hok : getMintResult chain.keccak256 w'.storage k = .ok res) :
    (w.storage.request k).Assignable chain.keccak256 res.tiers := by
  obtain ⟨res', hok', hflat⟩ := run_flat h hk hrun
  obtain rfl : res = res' := Except.ok.inj (hok.symm.trans hok')
  have hw' := Lts.Reachable.run h hrun
  have hvalid := tierChances_reachable hw'
  rw [hflat.tiers hw']
  exact ⟨(assignable_iff (drawsOf_lt _ _ _ _)).2 ⟨w'.storage.portraitChances, fun b => (hvalid b).1, rfl⟩,
    (assignable_iff (drawsOf_lt _ _ _ _)).2 ⟨w'.storage.accessoryChances, fun b => (hvalid b).2, rfl⟩⟩

theorem tierOf_congr {t t' : ChanceTables} (h : ∀ b ≠ .virtual, t b = t' b) : tierOf t = tierOf t' := by
  funext d
  unfold tierOf
  split
  · rfl
  · rename_i hv
    rw [h d.1 hv]

/-- The boxes whose chances can be set. -/
def settableBoxes : List BoxType := [.bronze, .silver, .gold, .platinum, .diamond]

/-- **The owner can bring about all assignable tiers**, by setting chances. -/
theorem exists_setChances {msg : Msg} {tiers : List ℕ × List ℕ} (h : Reachable chain w) (hk : Seeded w.storage k)
    (hv : msg.value = 0) (ho : w.storage.owner = msg.sender)
    (htiers : (w.storage.request k).Assignable chain.keccak256 tiers) :
    ∃ ops : List Op, (∀ op ∈ ops, op.SetsChances) ∧ ∃ res,
      getMintResult chain.keccak256 (transactions chain (ops.map fun op => (msg, op)) w).storage k = .ok res ∧
        res.tiers = tiers := by
  obtain ⟨hp, ha⟩ := htiers
  obtain ⟨t, ht, hts⟩ := (assignable_iff (drawsOf_lt _ _ _ _)).1 hp
  obtain ⟨t', ht', hts'⟩ := (assignable_iff (drawsOf_lt _ _ _ _)).1 ha
  obtain ⟨ops, hops⟩ : ∃ ops, ops = setChances w.storage t t' settableBoxes := ⟨_, rfl⟩
  have hrun := run_transactions chain (ops.map fun op => (msg, op)) w
  obtain ⟨res, hok, hflat⟩ := run_flat h hk hrun
  refine ⟨ops, fun op hop => setsChances_of_mem op (hops ▸ hop), res, hok, ?_⟩
  have hset : ∀ b ≠ .virtual,
      (transactions chain (ops.map fun op => (msg, op)) w).storage.portraitChances b = t b ∧
        (transactions chain (ops.map fun op => (msg, op)) w).storage.accessoryChances b = t' b := by
    intro b hb
    have hmem : b ∈ settableBoxes := mem_of_ne_virtual hb
    obtain ⟨hp, ha⟩ := @transactions_setChances X chain w msg w.storage t t' hv ht ht' settableBoxes (by decide) ho b
    rw [hops, hp, ha, if_pos hmem, if_pos hmem]
    exact ⟨rfl, rfl⟩
  rw [hflat.tiers (Lts.Reachable.run h hrun), tierOf_congr fun b hb => (hset b hb).1,
    tierOf_congr fun b hb => (hset b hb).2]
  exact Prod.ext hts.symm hts'.symm

/-- **Exactly what a revealed result can still become.** By any calls of anybody its tiers are assignable to its draws.
The owner can bring about all assignable tiers, by setting chances only. Everything else is fixed by the seed and the
tiers, up to the finish of the portraits. -/
theorem owner_power {msg : Msg} (h : Reachable chain w) (hk : Seeded w.storage k) (hv : msg.value = 0)
    (ho : w.storage.owner = msg.sender) (tiers : List ℕ × List ℕ) :
    ((∃ ls w' res, Lts.Run (Step chain) w ls w' ∧ getMintResult chain.keccak256 w'.storage k = .ok res ∧
        res.tiers = tiers) ↔ (w.storage.request k).Assignable chain.keccak256 tiers) ∧
    ((w.storage.request k).Assignable chain.keccak256 tiers → ∃ ops : List Op, (∀ op ∈ ops, op.SetsChances) ∧
      ∃ res, getMintResult chain.keccak256 (transactions chain (ops.map fun op => (msg, op)) w).storage k = .ok res ∧
        res.tiers = tiers) ∧
    ∀ ls₁ w₁ res₁ ls₂ w₂ res₂, Lts.Run (Step chain) w ls₁ w₁ → Lts.Run (Step chain) w ls₂ w₂ →
      getMintResult chain.keccak256 w₁.storage k = .ok res₁ → getMintResult chain.keccak256 w₂.storage k = .ok res₂ →
        res₁.tiers = res₂.tiers → res₁.stripped = res₂.stripped := by
  refine ⟨⟨?_, ?_⟩, exists_setChances h hk hv ho, ?_⟩
  · rintro ⟨ls, w', res, hrun, hok, rfl⟩
    exact assignable_of_run h hk hrun hok
  · intro htiers
    obtain ⟨ops, -, res, hok, hres⟩ := exists_setChances h hk hv ho htiers
    exact ⟨_, _, res, run_transactions chain _ w, hok, hres⟩
  · intro ls₁ w₁ res₁ ls₂ w₂ res₂ hrun₁ hrun₂ hok₁ hok₂ htiers
    obtain ⟨res, hok, hflat₁⟩ := run_flat h hk hrun₁
    obtain rfl : res₁ = res := Except.ok.inj (hok₁.symm.trans hok)
    obtain ⟨res, hok, hflat₂⟩ := run_flat h hk hrun₂
    obtain rfl : res₂ = res := Except.ok.inj (hok₂.symm.trans hok)
    refine hflat₁.stripped ?_ hflat₂ htiers
    rw [(Reachable.fixed (Lts.Reachable.run h hrun₁)).2, (Reachable.fixed (Lts.Reachable.run h hrun₂)).2]

/-- Two bronze portraits and two bronze accessories, whose draws are all 6789. -/
def Deployment.revealed : World Outside := transactions Deployment.chain
  [(user 18, .paidMint [⟨.bronze, 2⟩] [⟨.props, .bronze, 1⟩] [⟨.bronze, 1⟩] false),
   (coordinator, .rawFulfillRandomness 0 123456789)] sale

open Deployment in
/-- The owner can turn the portraits into two of tier 5 and the accessories into two of tier 1, but nobody can give
equal draws different tiers. -/
theorem owner_power_revealed :
    (∃ ops : List Op, (∀ op ∈ ops, op.SetsChances) ∧ ∃ res, getMintResult lastWord
        (transactions Deployment.chain (ops.map fun op => (owner, op)) revealed).storage (.paid 0) = .ok res ∧
      res.tiers = ([5, 5], [1, 1])) ∧
    ¬∃ ls w' res, Lts.Run (Step Deployment.chain) revealed ls w' ∧
      getMintResult lastWord w'.storage (.paid 0) = .ok res ∧ res.tiers = ([5, 4], [1, 1]) := by
  have hpower := @owner_power _ Deployment.chain revealed (.paid 0) owner
    (reachable_transactions _ sale_reachable) (by decide) rfl rfl
  have hfive : ValidTierChances #v[0, 0, 0, 0] := ⟨by decide, by decide⟩
  have hone : ValidTierChances #v[10000, 10000, 10000, 10000] := ⟨by decide, by decide⟩
  refine ⟨(hpower ([5, 5], [1, 1])).2.1 ⟨?_, ?_⟩, ?_⟩
  · exact (assignable_iff (drawsOf_lt _ _ _ _)).2 ⟨fun _ => #v[0, 0, 0, 0], fun _ => hfive, by decide⟩
  · exact (assignable_iff (drawsOf_lt _ _ _ _)).2 ⟨fun _ => #v[10000, 10000, 10000, 10000], fun _ => hone, by decide⟩
  · intro hsome
    obtain ⟨hp, -⟩ := (hpower ([5, 4], [1, 1])).1.1 hsome
    have hle := hp.ascending (.bronze, 6789) 5 (.bronze, 6789) 4 (by decide) (by decide) rfl (le_refl _)
    omega

end Minter
end Illuvitars
