import Mathlib.Algebra.Order.Field.Rat
import Mathlib.Data.Nat.Cast.Order.Field
import Mathlib.Tactic.Linarith
import Illuvitars.Oracle.PriceOracle

/-!
# The conversion of a price

`ethToIlv` reads the feed of the aggregator, rejects a price that does not look fresh, and divides. The feed is an
arbitrary response of the aggregator: five words and the number of decimals.

* `threshold_reachable`: the threshold stays between one hour and seven days in every reachable state;
* `ethToIlv_ok_iff`: exactly when a conversion returns, and what;
* `ethToIlv_exact`: both together, for positive answers;
* `quoteSound_iff`: when the value returned is the price. The answer is a signed word, and it is used as a divisor
  without a look at its sign or at the size of the quotient.
-/

namespace Illuvitars
namespace IlluvitarsPriceOracleV1

open Evm UpgradeableAccessControl

abbrev Uint80 := BitVec 80
abbrev Int256 := BitVec 256

/-! ## The feed -/

/-- The response of `latestRoundData`. -/
structure RoundData where
  roundId : Uint80
  answer : Int256
  startedAt : Uint256
  updatedAt : Uint256
  answeredInRound : Uint80
deriving DecidableEq, Repr

/-- What the aggregator returns to a call. -/
structure Feed where
  latestRoundData : RoundData
  decimals : Uint8
deriving DecidableEq, Repr

/-! ## The functions -/

/-- `initialize` of a new proxy, with the initialiser of the access control. -/
def initializeOracle (sender aggregator : Address) (feed : Feed) : Exec (Storage Own) := do
  require (aggregator ≠ 0) "aggregator address is not set"
  let data := feed.latestRoundData
  require (0 < feed.decimals.toNat ∧ 0 < data.roundId.toNat ∧ 0 < data.answer.toInt ∧ 0 < data.startedAt.toNat ∧
    0 < data.updatedAt.toNat ∧ 0 < data.answeredInRound.toNat) "unexpected aggregator response"
  -- the threshold is 30 hours
  pure { userRoles := Function.update (fun _ => 0) sender FULL_PRIVILEGES_MASK,
         own := { oldAnswerThreshold := 108000 } }

def ethToIlv (own : Own) (now256 : Uint256) (feed : Feed) (ethOut : Uint256) : Exec Uint256 := do
  let data := feed.latestRoundData
  require (data.roundId = data.answeredInRound ∧ data.startedAt.toNat ≤ data.updatedAt.toNat ∧
    data.updatedAt.toNat ≤ now256.toNat) "invalid answer"
  let oldest ← checkedSub now256 own.oldAnswerThreshold
  require (oldest.toNat < data.updatedAt.toNat) "answer is too old"
  let one ← checkedPow 10 feed.decimals.toNat
  let product ← checkedMul ethOut one
  -- the conversion `uint256(answer)` keeps the bits
  checkedDiv product data.answer

/-- The contract has just been deployed and initialised. -/
def Deployed (s : Storage Own) : Prop := ∃ sender aggregator feed, initializeOracle sender aggregator feed = .ok s

abbrev Reachable (this : Address) : Storage Own → Prop := Lts.Reachable Deployed (Step oracle this)

variable {this : Address} {s s' : Storage Own} {own : Own} {now256 ethOut ilvIn : Uint256} {feed : Feed}

/-! ## The threshold -/

/-- A threshold that the setter accepts. -/
def ValidThreshold (own : Own) : Prop := 3600 < own.oldAnswerThreshold.toNat ∧ own.oldAnswerThreshold.toNat < 604800

instance (own : Own) : Decidable (ValidThreshold own) := inferInstanceAs (Decidable (_ ∧ _))

/-- A step keeps the threshold valid. -/
theorem validThreshold_of_step {c : Call OwnOp} (h : Step oracle this s c s') (hs : ValidThreshold s.own) :
    ValidThreshold s'.own := by
  rcases step_cases h with rfl | ⟨_, _, -, rfl⟩ | ⟨op, own, hown, rfl⟩
  · exact hs
  · exact hs
  · cases op with
    | setOldAnswerThreshold value =>
      simp only [oracle, setOldAnswerThreshold, bind_ok_iff, require_ok_iff, exists_const, pure_eq_ok,
        Except.ok.injEq] at hown
      obtain ⟨-, hlow, hhigh, rfl⟩ := hown
      exact ⟨hlow, hhigh⟩

/-- **The threshold is between one hour and seven days in every reachable state.** -/
theorem threshold_reachable (h : Reachable this s) : ValidThreshold s.own := by
  refine Lts.Reachable.invariant (I := fun s => ValidThreshold s.own) ?_ ?_ h
  · rintro s ⟨sender, aggregator, feed, hok⟩
    simp only [initializeOracle, bind_ok_iff, require_ok_iff, exists_const, pure_eq_ok, Except.ok.injEq] at hok
    obtain ⟨-, -, rfl⟩ := hok
    exact (by decide : ValidThreshold ⟨108000⟩)
  · intro s c s' _ hs hstep
    exact validThreshold_of_step hstep hs

/-! ## When a conversion returns -/

/-- The round looks fresh, and is younger than the threshold. -/
structure Fresh (own : Own) (now256 : Uint256) (data : RoundData) : Prop where
  round : data.roundId = data.answeredInRound
  started : data.startedAt.toNat ≤ data.updatedAt.toNat
  past : data.updatedAt.toNat ≤ now256.toNat
  young : now256.toNat - data.updatedAt.toNat < own.oldAnswerThreshold.toNat

/-- A feed and an amount that the conversion accepts: fresh, late enough for the subtraction, and with a product that
fits. -/
structure Accepted (own : Own) (now256 : Uint256) (feed : Feed) (ethOut : Uint256) : Prop where
  fresh : Fresh own now256 feed.latestRoundData
  clock : own.oldAnswerThreshold.toNat ≤ now256.toNat
  one : 10 ^ feed.decimals.toNat < 2 ^ 256
  product : ethOut.toNat * 10 ^ feed.decimals.toNat < 2 ^ 256

/-- **Exactly when a conversion returns, and what**: the answer is read as an unsigned word. -/
theorem ethToIlv_ok_iff :
    ethToIlv own now256 feed ethOut = .ok ilvIn ↔
      Accepted own now256 feed ethOut ∧ 0 < feed.latestRoundData.answer.toNat ∧
        ilvIn.toNat = ethOut.toNat * 10 ^ feed.decimals.toNat / feed.latestRoundData.answer.toNat := by
  have hten : (10 : Uint256).toNat = 10 := rfl
  simp only [ethToIlv, bind_ok_iff, require_ok_iff, exists_const, checkedSub_ok_iff, checkedPow_ok_iff,
    checkedMul_ok_iff, checkedDiv_ok_iff, hten]
  constructor
  · rintro ⟨⟨hround, hstart, hpast⟩, oldest, hold, hyoung, one, hone, product, hproduct, hpos, hv⟩
    refine ⟨⟨⟨hround, hstart, hpast, by omega⟩, by omega, ?_, ?_⟩, hpos, ?_⟩
    · rw [← hone]; exact one.isLt
    · rw [← hone, ← hproduct]; exact product.isLt
    · rw [hv, hproduct, hone]
  · rintro ⟨⟨⟨hround, hstart, hpast, hyoung⟩, hclock, hone, hproduct⟩, hpos, hv⟩
    obtain ⟨oldest, hold⟩ := exists_toNat_eq.2 (show now256.toNat - own.oldAnswerThreshold.toNat < 2 ^ 256 by
      have := now256.isLt; omega)
    obtain ⟨one, hone⟩ := exists_toNat_eq.2 hone
    obtain ⟨product, hproduct⟩ := exists_toNat_eq.2 hproduct
    refine ⟨⟨hround, hstart, hpast⟩, oldest, by omega, by omega, one, hone, product, ?_, hpos, ?_⟩
    · rw [hproduct, hone]
    · rw [hv, hproduct]

/-- A conversion that is not accepted reverts. -/
theorem ethToIlv_error (h : ¬Accepted own now256 feed ethOut) : ∃ e, ethToIlv own now256 feed ethOut = .error e := by
  cases hok : ethToIlv own now256 feed ethOut with
  | error e => exact ⟨e, rfl⟩
  | ok ilvIn => exact absurd (ethToIlv_ok_iff.1 hok).1 h

/-- A signed word that is positive is its unsigned value. -/
theorem toInt_eq_toNat {a : Int256} (h : 0 < a.toInt) : a.toInt = a.toNat := by
  have hlt := a.isLt
  rw [BitVec.toInt_eq_toNat_cond] at h ⊢
  split at h
  · rw [if_pos ‹_›]
  · omega

/-- **The conversion is fresh and exact in every reachable state.** -/
theorem ethToIlv_exact (h : Reachable this s) (now256 : Uint256) (feed : Feed) (ethOut : Uint256) :
    (3600 < s.own.oldAnswerThreshold.toNat ∧ s.own.oldAnswerThreshold.toNat < 604800) ∧
    (∀ ilvIn, ethToIlv s.own now256 feed ethOut = .ok ilvIn → Fresh s.own now256 feed.latestRoundData) ∧
    (0 < feed.latestRoundData.answer.toInt →
      (Accepted s.own now256 feed ethOut → ∃ ilvIn, ethToIlv s.own now256 feed ethOut = .ok ilvIn ∧
        (ilvIn.toNat : ℤ) = ethOut.toNat * 10 ^ feed.decimals.toNat / feed.latestRoundData.answer.toInt) ∧
      (¬Accepted s.own now256 feed ethOut → ∃ e, ethToIlv s.own now256 feed ethOut = .error e)) := by
  refine ⟨threshold_reachable h, ?_, ?_⟩
  · intro ilvIn hok
    exact (ethToIlv_ok_iff.1 hok).1.fresh
  · intro hanswer
    have hnat := toInt_eq_toNat hanswer
    refine ⟨?_, ethToIlv_error⟩
    intro hacc
    obtain ⟨ilvIn, hv⟩ := exists_toNat_eq.2 (lt_of_le_of_lt
      (Nat.div_le_self _ feed.latestRoundData.answer.toNat) hacc.product)
    refine ⟨ilvIn, ethToIlv_ok_iff.2 ⟨hacc, by omega, hv⟩, ?_⟩
    rw [hv, hnat]
    push_cast
    rfl

/-- A round of 18 decimals that is one second old, with 4 ILV for 1 ETH. -/
def quarterFeed : Feed := ⟨⟨1, 250000000000000000, 199999, 199999, 1⟩, 18⟩

/-- The storage after a deployment by account 1. -/
def deployed : Storage Own := ⟨Function.update (fun _ => 0) 1 FULL_PRIVILEGES_MASK, ⟨108000⟩⟩

theorem deployed_reachable (this : Address) : Reachable this deployed :=
  Lts.Reachable.of_start ⟨1, 7, quarterFeed, rfl⟩

/-- After the deployment 5 ETH are 20 ILV. -/
theorem ethToIlv_exact_deployed :
    ∃ ilvIn, ethToIlv deployed.own 200000 quarterFeed 5 = .ok ilvIn ∧ (ilvIn.toNat : ℤ) = 20 := by
  obtain ⟨-, -, h⟩ := ethToIlv_exact (deployed_reachable 9) 200000 quarterFeed 5
  obtain ⟨ilvIn, hok, hv⟩ := (h (by decide)).1 ⟨⟨rfl, by decide, by decide, by decide⟩, by decide, by decide, by decide⟩
  exact ⟨ilvIn, hok, hv⟩

/-! ## Whether the value is a price -/

/-- What the conversion should return: a positive amount for a positive answer, less than one unit away from the exact
quotient. -/
def QuoteSound (own : Own) (now256 : Uint256) (feed : Feed) (ethOut : Uint256) : Prop :=
  ∀ ilvIn, ethToIlv own now256 feed ethOut = .ok ilvIn →
    0 < feed.latestRoundData.answer.toInt ∧ 0 < ilvIn.toNat ∧
      |(ilvIn.toNat : ℚ) - ethOut.toNat * 10 ^ feed.decimals.toNat / feed.latestRoundData.answer.toInt| < 1

/-- A quotient rounded down is less than one away from the exact one. -/
theorem abs_div_sub_lt_one (p : ℕ) {a : ℕ} (ha : 0 < a) : |((p / a : ℕ) : ℚ) - p / a| < 1 := by
  have hpos : (0 : ℚ) < a := Nat.cast_pos.2 ha
  have hle : ((p / a : ℕ) : ℚ) ≤ p / a := Nat.cast_div_le
  have hlt : (p : ℚ) / a < (p / a : ℕ) + 1 := by
    rw [div_lt_iff₀ hpos]
    exact_mod_cast Nat.lt_mul_of_div_lt (Nat.lt_succ_self (p / a)) ha
  rw [abs_lt]
  constructor <;> linarith

/-- A word that is neither negative nor zero. -/
theorem toInt_pos {a : Int256} (hnonneg : 0 ≤ a.toInt) (hpos : 0 < a.toNat) : 0 < a.toInt := by
  rw [BitVec.toInt_eq_toNat_cond] at hnonneg ⊢
  split at hnonneg
  · rw [if_pos ‹_›]
    omega
  · have := a.isLt
    omega

/-- **A conversion is sound iff, whenever it is accepted, the answer is not negative and not above the product.** An
answer of zero reverts. -/
theorem quoteSound_iff :
    QuoteSound own now256 feed ethOut ↔
      (Accepted own now256 feed ethOut → 0 ≤ feed.latestRoundData.answer.toInt ∧
        feed.latestRoundData.answer.toInt ≤ ethOut.toNat * 10 ^ feed.decimals.toNat) := by
  constructor
  · intro hsound hacc
    by_cases hpos : 0 < feed.latestRoundData.answer.toNat
    · obtain ⟨ilvIn, hv⟩ := exists_toNat_eq.2 (lt_of_le_of_lt
        (Nat.div_le_self _ feed.latestRoundData.answer.toNat) hacc.product)
      obtain ⟨hanswer, hilv, -⟩ := hsound ilvIn (ethToIlv_ok_iff.2 ⟨hacc, hpos, hv⟩)
      have hle : feed.latestRoundData.answer.toNat ≤ ethOut.toNat * 10 ^ feed.decimals.toNat := by
        rw [hv] at hilv
        exact (Nat.div_pos_iff.1 hilv).2
      refine ⟨hanswer.le, ?_⟩
      rw [toInt_eq_toNat hanswer]
      exact_mod_cast hle
    · have hzero : feed.latestRoundData.answer.toInt = 0 := by
        rw [BitVec.toInt_eq_toNat_cond]
        split <;> omega
      rw [hzero]
      exact ⟨le_refl 0, by positivity⟩
  · intro h ilvIn hok
    obtain ⟨hacc, hpos, hv⟩ := ethToIlv_ok_iff.1 hok
    obtain ⟨hnonneg, hle⟩ := h hacc
    -- the answer is positive, since a zero answer does not return
    have hanswer : 0 < feed.latestRoundData.answer.toInt := toInt_pos hnonneg hpos
    have hnat := toInt_eq_toNat hanswer
    refine ⟨hanswer, ?_, ?_⟩
    · rw [hv]
      rw [hnat] at hle
      exact Nat.div_pos (by exact_mod_cast hle) hpos
    · have hclose := abs_div_sub_lt_one (ethOut.toNat * 10 ^ feed.decimals.toNat) hpos
      rw [Nat.cast_mul, Nat.cast_pow, ← hv] at hclose
      rw [hnat]
      exact hclose

end IlluvitarsPriceOracleV1
end Illuvitars
