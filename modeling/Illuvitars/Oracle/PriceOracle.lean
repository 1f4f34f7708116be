import Mathlib.Data.Set.Insert
import Illuvitars.Oracle.AccessControl

/-!
# The price oracle

`IlluvitarsPriceOracleV1` inherits the access control and adds the age from which a price is too old. Its manager, the
holder of bit 16, may change that age. `coalition_confined` collects what no coalition can do to the oracle, or to any
other contract that inherits the access control.
-/

namespace Illuvitars
namespace IlluvitarsPriceOracleV1

open Evm Rights UpgradeableAccessControl

def ROLE_PRICE_ORACLE_MANAGER : BitVec 32 := 0x00010000

/-- The state variables that the oracle adds. -/
structure Own where
  oldAnswerThreshold : Uint256
deriving DecidableEq, Repr

/-- The functions that the oracle adds. -/
inductive OwnOp
  | setOldAnswerThreshold (oldAnswerThreshold : Uint256)
deriving DecidableEq, Repr

def setOldAnswerThreshold (sender : Address) (userRoles : UserRoles) (oldAnswerThreshold : Uint256) (own : Own) :
    Exec Own := do
  require (isSenderInRole userRoles sender (ROLE_PRICE_ORACLE_MANAGER.setWidth 256) = true) "access denied"
  -- between one hour and seven days
  require (3600 < oldAnswerThreshold.toNat) "threshold too low"
  require (oldAnswerThreshold.toNat < 604800) "threshold too high"
  pure { own with oldAnswerThreshold }

def oracle : Inheriting Own OwnOp where
  call
    | sender, userRoles, .setOldAnswerThreshold value, own => setOldAnswerThreshold sender userRoles value own

variable {this : Address} {s s' : Storage Own} {c : Call OwnOp}

theorem oracleManager_eq : ROLE_PRICE_ORACLE_MANAGER.setWidth 256 = BitVec.twoPow 256 16 := by decide

/-- Only the manager of the oracle changes its own variables. -/
theorem own_guarded (hi : 16 ∉ rights s c.sender) (h : Step oracle this s c s') : s'.own = s.own := by
  rcases step_cases h with rfl | ⟨_, _, -, rfl⟩ | ⟨op, own, hown, rfl⟩
  · rfl
  · rfl
  · cases op with
    | setOldAnswerThreshold value =>
      obtain ⟨_, hrole, -⟩ := bind_ok_iff.1 hown
      rw [require_ok_iff, isSenderInRole, isOperatorInRole, oracleManager_eq, hasRole_twoPow (by decide)] at hrole
      exact absurd hrole hi

/-- **No coalition touches a permission that none of its members holds**, in any inheriting contract; in the oracle it
cannot change the threshold either unless a member is the oracle's manager. A bit that no account holds is held by none
forever, where the contract itself is not an account. -/
theorem coalition_confined (this : Address) :
    (∀ (E O : Type) (C : Inheriting E O) (S : Set Address) (cs : List (Call O)) (s t : Storage E),
      Lts.Run (Step C this) s cs t → (∀ c ∈ cs, c.sender ∈ S) → Confined S s t) ∧
    (∀ (S : Set Address) (cs : List (Call OwnOp)) (s t : Storage Own),
      Lts.Run (Step oracle this) s cs t → (∀ c ∈ cs, c.sender ∈ S) → Lacks S 16 (rights s) →
        t.own.oldAnswerThreshold = s.own.oldAnswerThreshold) ∧
    ∀ (E O : Type) (C : Inheriting E O) (cs : List (Call O)) (s t : Storage E) (i : ℕ),
      Lts.Run (Step C this) s cs t → (∀ c ∈ cs, c.sender ≠ this) →
        (∀ x ≠ this, (s.userRoles x).getLsbD i = false) → ∀ x ≠ this, (t.userRoles x).getLsbD i = false := by
  refine ⟨?_, ?_, ?_⟩
  · intro E O C S cs s t h hS
    exact confined_of_run h hS
  · intro S cs s t h hS hi
    have hown : t.own = s.own := Run.guarded_unchanged Call.sender h Step.changedWithin own_guarded hS hi
    rw [hown]
  · intro E O C cs s t i h hsender hnone x hx
    have hlacks : Lacks {x | x ≠ this} i (rights s) := fun y hy => by simp [mem_rights, hnone y hy]
    have hx' := (confined_of_run h hsender).lacks i hlacks x hx
    simpa [mem_rights] using hx'

namespace TwoManagers

/-- Account 1 is an access manager and has no other role; nobody else has any. -/
def start : Storage Own := ⟨fun x => if x = 1 then ROLE_ACCESS_MANAGER else 0, ⟨108000⟩⟩

/-- Account 1 makes account 2 a manager too, and the two try everything else in vain. -/
def attempts : List (Call OwnOp) :=
  [⟨1, .updateRole 2 FULL_PRIVILEGES_MASK⟩, ⟨2, .updateFeatures FULL_PRIVILEGES_MASK⟩,
    ⟨2, .updateRole 1 FULL_PRIVILEGES_MASK⟩, ⟨1, .own (.setOldAnswerThreshold 7200)⟩]

end TwoManagers

open TwoManagers in
theorem coalition_of_two_managers :
    (transactions oracle 9 attempts start).userRoles 2 = ROLE_ACCESS_MANAGER ∧
      (transactions oracle 9 attempts start).own.oldAnswerThreshold = 108000 ∧
      ∀ i ≠ 255, ∀ x,
        ((transactions oracle 9 attempts start).userRoles x).getLsbD i = (start.userRoles x).getLsbD i := by
  have hrun := run_transactions oracle 9 attempts start
  have hS : ∀ c ∈ attempts, c.sender ∈ ({1, 2} : Set Address) := by simp [attempts]
  have hlacks : ∀ i ≠ 255, Lacks {1, 2} i (rights start) := by
    intro i hi a _ hmem
    have hbit : (if a = 1 then ROLE_ACCESS_MANAGER else 0).getLsbD i = true := hmem
    split at hbit
    · simp only [accessManager_eq, BitVec.getLsbD_twoPow, Bool.and_eq_true, decide_eq_true_eq] at hbit
      exact hi hbit.2.symm
    · simp at hbit
  refine ⟨by decide, ?_, ?_⟩
  · exact (coalition_confined 9).2.1 _ _ _ _ hrun hS (hlacks 16 (by decide))
  · intro i hi x
    exact ((coalition_confined 9).1 _ _ _ _ _ _ _ hrun hS).bits i (hlacks i hi) x

end IlluvitarsPriceOracleV1
end Illuvitars
