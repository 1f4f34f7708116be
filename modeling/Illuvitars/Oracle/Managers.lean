import Illuvitars.Oracle.Conversion

/-!
# What the manager of the price oracle decides

The feed says what the price is, and the manager how old a price may be. A round that is at most an hour old is accepted
whatever the managers do, one that is seven days old never is, and in between they decide.

* `exists_governed_iff`: the thresholds that a coalition of accounts can set;
* `Usable`, `quote`: what a conversion asks of the feed alone, and the price it returns;
* `ethToIlv_usable_iff`: a reachable oracle converts what is usable and younger than its threshold, to the same price.
-/

namespace Illuvitars
namespace IlluvitarsPriceOracleV1

open Evm Rights UpgradeableAccessControl

variable {this : Address} {s t : Storage Own} {own own' : Own} {S : Set Address} {value : Uint256}

/-! ## The thresholds of a coalition -/

/-- Exactly when the threshold is set. -/
theorem setOldAnswerThreshold_ok_iff {sender : Address} {userRoles : UserRoles} :
    setOldAnswerThreshold sender userRoles value own = .ok own' ↔
      (userRoles sender).getLsbD 16 = true ∧ ValidThreshold ⟨value⟩ ∧ own' = ⟨value⟩ := by
  simp only [setOldAnswerThreshold, isSenderInRole, isOperatorInRole, oracleManager_eq,
    hasRole_twoPow (show 16 < 256 by decide), bind_ok_iff, require_ok_iff, exists_const, pure_eq_ok, Except.ok.injEq]
  unfold ValidThreshold
  constructor
  · rintro ⟨hrole, hlow, hhigh, rfl⟩
    exact ⟨hrole, ⟨hlow, hhigh⟩, rfl⟩
  · rintro ⟨hrole, ⟨hlow, hhigh⟩, rfl⟩
    exact ⟨hrole, hlow, hhigh, rfl⟩

/-- The storages that calls by members of a coalition lead to. -/
def Governed (this : Address) (S : Set Address) (s t : Storage Own) : Prop :=
  ∃ cs, Lts.Run (Step oracle this) s cs t ∧ ∀ c ∈ cs, c.sender ∈ S

theorem Governed.refl (this : Address) (S : Set Address) (s : Storage Own) : Governed this S s s :=
  ⟨[], .nil s, by simp⟩

theorem Governed.reachable (h : Governed this S s t) (hs : Reachable this s) : Reachable this t := by
  obtain ⟨cs, hrun, -⟩ := h
  exact hs.run hrun

/-- The manager sets a valid threshold in one call. -/
theorem governed_of_manager {a : Address} (ha : a ∈ S) (hbit : (s.userRoles a).getLsbD 16 = true)
    (hvalid : ValidThreshold ⟨value⟩) : Governed this S s { s with own := ⟨value⟩ } := by
  have hset : setOldAnswerThreshold a s.userRoles value s.own = .ok ⟨value⟩ :=
    setOldAnswerThreshold_ok_iff.2 ⟨hbit, hvalid, rfl⟩
  have hcall : call oracle this a (.own (.setOldAnswerThreshold value)) s = .ok { s with own := ⟨value⟩ } :=
    bind_ok_iff.2 ⟨_, hset, rfl⟩
  refine ⟨[⟨a, .own (.setOldAnswerThreshold value)⟩], .cons (step_of_call hcall) (.nil _), ?_⟩
  intro c hc
  rw [List.mem_singleton.1 hc]
  exact ha

/-- **The thresholds that a coalition can set** are the present one, and every valid one if a member is the manager. -/
theorem exists_governed_iff (hs : Reachable this s) :
    (∃ t, Governed this S s t ∧ t.own.oldAnswerThreshold = value) ↔
      value = s.own.oldAnswerThreshold ∨ (¬Lacks S 16 (rights s) ∧ ValidThreshold ⟨value⟩) := by
  constructor
  · rintro ⟨t, h, rfl⟩
    by_cases hmanager : Lacks S 16 (rights s)
    · obtain ⟨cs, hrun, hS⟩ := h
      have hown : t.own = s.own := Run.guarded_unchanged Call.sender hrun Step.changedWithin own_guarded hS hmanager
      exact .inl (by rw [hown])
    · exact .inr ⟨hmanager, threshold_reachable (h.reachable hs)⟩
  · rintro (rfl | ⟨hmanager, hvalid⟩)
    · exact ⟨s, Governed.refl this S s, rfl⟩
    · obtain ⟨a, ha, hbit⟩ : ∃ a ∈ S, 16 ∈ rights s a := by
        simpa [Lacks] using hmanager
      exact ⟨_, governed_of_manager ha (mem_rights.1 hbit) hvalid, rfl⟩

/-! ## The part of the feed -/

/-- What a conversion asks of the feed and the clock, apart from the age of the round: a complete round that is not in
the future, a product that fits, and an answer that is not zero. -/
structure Usable (now256 : Uint256) (feed : Feed) (ethOut : Uint256) : Prop where
  round : feed.latestRoundData.roundId = feed.latestRoundData.answeredInRound
  started : feed.latestRoundData.startedAt.toNat ≤ feed.latestRoundData.updatedAt.toNat
  past : feed.latestRoundData.updatedAt.toNat ≤ now256.toNat
  one : 10 ^ feed.decimals.toNat < 2 ^ 256
  product : ethOut.toNat * 10 ^ feed.decimals.toNat < 2 ^ 256
  positive : 0 < feed.latestRoundData.answer.toNat

/-- The seconds since the round was updated. -/
def age (now256 : Uint256) (feed : Feed) : ℕ := now256.toNat - feed.latestRoundData.updatedAt.toNat

/-- The price that the feed says, with its answer read as an unsigned word. -/
def quote (feed : Feed) (ethOut : Uint256) : Uint256 :=
  BitVec.ofNat 256 (ethOut.toNat * 10 ^ feed.decimals.toNat / feed.latestRoundData.answer.toNat)

variable {now256 ethOut ilvIn : Uint256} {feed : Feed}

/-- **A reachable oracle converts exactly what is usable and younger than its threshold, and always to the quote.** -/
theorem ethToIlv_usable_iff (hs : Reachable this s) (hclock : 604800 ≤ now256.toNat) :
    ethToIlv s.own now256 feed ethOut = .ok ilvIn ↔
      Usable now256 feed ethOut ∧ age now256 feed < s.own.oldAnswerThreshold.toNat ∧ ilvIn = quote feed ethOut := by
  -- what is not usable does not return, so the quote is needed only where its product fits
  have hquote (hproduct : ethOut.toNat * 10 ^ feed.decimals.toNat < 2 ^ 256) :
      ilvIn.toNat = ethOut.toNat * 10 ^ feed.decimals.toNat / feed.latestRoundData.answer.toNat ↔
        ilvIn = quote feed ethOut := by
    rw [toNat_eq_iff, quote]
    have := Nat.div_le_self (ethOut.toNat * 10 ^ feed.decimals.toNat) feed.latestRoundData.answer.toNat
    exact ⟨fun h => h.2, fun h => ⟨by omega, h⟩⟩
  rw [ethToIlv_ok_iff]
  constructor
  · rintro ⟨⟨⟨hround, hstarted, hpast, hyoung⟩, -, hone, hproduct⟩, hpos, hv⟩
    exact ⟨⟨hround, hstarted, hpast, hone, hproduct, hpos⟩, hyoung, (hquote hproduct).1 hv⟩
  · rintro ⟨h, hyoung, hv⟩
    refine ⟨⟨⟨h.round, h.started, h.past, hyoung⟩, ?_, h.one, h.product⟩, h.positive, (hquote h.product).2 hv⟩
    have := (threshold_reachable hs).2
    omega

end IlluvitarsPriceOracleV1
end Illuvitars
