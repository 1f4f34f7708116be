import Mathlib.Logic.Function.Basic
import Illuvitars.Lib.Rights
import Illuvitars.Lib.Word

/-!
# Upgradeable access control

`UpgradeableAccessControl` keeps a word of 256 permission bits for every address; the word of the contract's own address
holds its features. An inheriting contract adds state variables of its own and functions that write only these.

* `evaluateBy_bit`: a role update sets exactly the bits that the sender has;
* `Step.changedWithin`: so every call changes only rights that its sender holds, the one rule of `Rights`;
* `confined_of_run`: what a coalition can and cannot do, for every inheriting contract.
-/

namespace Illuvitars
namespace UpgradeableAccessControl

open Evm Rights

/-! ## Roles -/

def ROLE_ACCESS_MANAGER : Uint256 := 0x8000000000000000000000000000000000000000000000000000000000000000
def ROLE_UPGRADE_MANAGER : Uint256 := 0x4000000000000000000000000000000000000000000000000000000000000000
def FULL_PRIVILEGES_MASK : Uint256 := BitVec.allOnes 256

abbrev UserRoles := Address → Uint256

def hasRole (actual required : Uint256) : Bool := actual &&& required = required

def isOperatorInRole (userRoles : UserRoles) (operator : Address) (required : Uint256) : Bool :=
  hasRole (userRoles operator) required

def isSenderInRole (userRoles : UserRoles) (sender : Address) (required : Uint256) : Bool :=
  isOperatorInRole userRoles sender required

def evaluateBy (userRoles : UserRoles) (operator : Address) (target desired : Uint256) : Uint256 :=
  let p := userRoles operator
  let target := target ||| (p &&& desired)
  target &&& (FULL_PRIVILEGES_MASK ^^^ (p &&& (FULL_PRIVILEGES_MASK ^^^ desired)))

/-- A role of one bit is had iff the bit is set. -/
theorem hasRole_twoPow {i : ℕ} (hi : i < 256) (actual : Uint256) :
    hasRole actual (BitVec.twoPow 256 i) = actual.getLsbD i := by
  have hne : (0#256) ≠ BitVec.twoPow 256 i := by
    intro h
    have := congrArg (fun x => x.getLsbD i) h
    simp [hi] at this
  rw [hasRole, BitVec.and_twoPow]
  split <;> simp_all

theorem accessManager_eq : ROLE_ACCESS_MANAGER = BitVec.twoPow 256 255 := by decide

theorem upgradeManager_eq : ROLE_UPGRADE_MANAGER = BitVec.twoPow 256 254 := by decide

/-- **Where the operator has the bit, the result has the desired bit; elsewhere it has the target's.** -/
theorem evaluateBy_bit (userRoles : UserRoles) (operator : Address) (target desired : Uint256) {i : ℕ} (hi : i < 256) :
    (evaluateBy userRoles operator target desired).getLsbD i =
      if (userRoles operator).getLsbD i then desired.getLsbD i else target.getLsbD i := by
  simp only [evaluateBy, FULL_PRIVILEGES_MASK, BitVec.getLsbD_and, BitVec.getLsbD_or, BitVec.getLsbD_xor,
    BitVec.getLsbD_allOnes, hi, decide_true, Bool.true_xor]
  cases (userRoles operator).getLsbD i <;> cases desired.getLsbD i <;> simp

/-! ## Calls -/

/-- The storage of an inheriting contract with state variables `E` of its own. -/
structure Storage (E : Type) where
  userRoles : UserRoles
  own : E

/-- The functions that an inheriting contract adds: they read the roles, and read and write its own state variables and
nothing else. -/
structure Inheriting (E O : Type) where
  call : (sender : Address) → UserRoles → O → E → Exec E

/-- The external functions that change state. Upgrades of the implementation are excluded. -/
inductive Op (O : Type)
  | updateRole (operator : Address) (role : Uint256)
  | updateFeatures (mask : Uint256)
  | own (op : O)

variable {E O : Type}

def updateRole (sender operator : Address) (role : Uint256) (s : Storage E) : Exec (Storage E) := do
  require (isSenderInRole s.userRoles sender ROLE_ACCESS_MANAGER = true) "access denied"
  pure { s with
    userRoles := Function.update s.userRoles operator
      (evaluateBy s.userRoles sender (s.userRoles operator) role) }

def updateFeatures (this sender : Address) (mask : Uint256) (s : Storage E) : Exec (Storage E) :=
  updateRole sender this mask s

def authorizeUpgrade (sender : Address) (s : Storage E) : Exec Unit :=
  require (isSenderInRole s.userRoles sender ROLE_UPGRADE_MANAGER = true) "access denied"

def call (C : Inheriting E O) (this sender : Address) : Op O → Storage E → Exec (Storage E)
  | .updateRole operator role, s => updateRole sender operator role s
  | .updateFeatures mask, s => updateFeatures this sender mask s
  | .own op, s => do
    let own ← C.call sender s.userRoles op s.own
    pure { s with own }

/-- A call with its sender. Every address may send, the zero address and that of the contract itself not excepted. -/
structure Call (O : Type) where
  sender : Address
  op : Op O

/-- The storage after a call; a reverted call leaves it as it was. -/
def transact (C : Inheriting E O) (this : Address) (c : Call O) (s : Storage E) : Storage E :=
  match call C this c.sender c.op s with
  | .ok s' => s'
  | .error _ => s

def Step (C : Inheriting E O) (this : Address) (s : Storage E) (c : Call O) (s' : Storage E) : Prop :=
  transact C this c s = s'

/-- A call that succeeds is a step to its outcome. -/
theorem step_of_call {C : Inheriting E O} {this : Address} {c : Call O} {s t : Storage E}
    (h : call C this c.sender c.op s = .ok t) : Step C this s c t := by
  unfold Step transact
  rw [h]

/-- The storage after a sequence of calls. -/
def transactions (C : Inheriting E O) (this : Address) : List (Call O) → Storage E → Storage E
  | [], s => s
  | c :: cs, s => transactions C this cs (transact C this c s)

theorem run_transactions (C : Inheriting E O) (this : Address) : ∀ (cs : List (Call O)) (s : Storage E),
    Lts.Run (Step C this) s cs (transactions C this cs s)
  | [], s => .nil s
  | c :: cs, s => .cons rfl (run_transactions C this cs (transact C this c s))

variable {C : Inheriting E O} {this sender operator : Address} {role : Uint256} {s s' t : Storage E} {c : Call O}

/-- Exactly when a role update succeeds, and what it writes. -/
theorem updateRole_ok_iff :
    updateRole sender operator role s = .ok s' ↔ (s.userRoles sender).getLsbD 255 = true ∧
      s' = { s with
        userRoles := Function.update s.userRoles operator
          (evaluateBy s.userRoles sender (s.userRoles operator) role) } := by
  simp only [updateRole, isSenderInRole, isOperatorInRole, accessManager_eq, hasRole_twoPow (show 255 < 256 by decide),
    bind_ok_iff, require_ok_iff, pure_eq_ok, Except.ok.injEq]
  constructor
  · rintro ⟨_, hrole, rfl⟩
    exact ⟨hrole, rfl⟩
  · rintro ⟨hrole, rfl⟩
    exact ⟨(), hrole, rfl⟩

theorem authorizeUpgrade_ok_iff {u : Unit} :
    authorizeUpgrade sender s = .ok u ↔ (s.userRoles sender).getLsbD 254 = true := by
  simp only [authorizeUpgrade, isSenderInRole, isOperatorInRole, upgradeManager_eq,
    hasRole_twoPow (show 254 < 256 by decide), require_ok_iff]

/-- **What a step can do**: nothing, a role update by a manager, or a call of the inheriting contract's own. -/
theorem step_cases (h : Step C this s c s') :
    s' = s ∨
    (∃ operator role, (s.userRoles c.sender).getLsbD 255 = true ∧
      s' = { s with
        userRoles := Function.update s.userRoles operator
          (evaluateBy s.userRoles c.sender (s.userRoles operator) role) }) ∨
    ∃ op own, C.call c.sender s.userRoles op s.own = .ok own ∧ s' = { s with own } := by
  obtain ⟨sender, op⟩ := c
  unfold Step transact at h
  split at h
  · rename_i s₁ hok
    subst h
    cases op with
    | updateRole operator role => exact .inr (.inl ⟨operator, role, updateRole_ok_iff.1 hok⟩)
    | updateFeatures mask => exact .inr (.inl ⟨this, mask, updateRole_ok_iff.1 hok⟩)
    | own op =>
      obtain ⟨own, hown, heq⟩ := bind_ok_iff.1 hok
      exact .inr (.inr ⟨op, own, hown, (Except.ok.inj heq).symm⟩)
  · exact .inl h.symm

/-! ## Coalitions -/

/-- The rights of an account are the positions of its bits. -/
def rights (s : Storage E) (x : Address) : Set ℕ := {i | (s.userRoles x).getLsbD i = true}

theorem mem_rights {x : Address} {i : ℕ} : i ∈ rights s x ↔ (s.userRoles x).getLsbD i = true := Iff.rfl

/-- **A call changes only rights that its sender holds.** -/
theorem Step.changedWithin (h : Step C this s c s') : ChangedWithin c.sender (rights s) (rights s') := by
  rcases step_cases h with rfl | ⟨operator, role, -, rfl⟩ | ⟨_, _, -, rfl⟩
  · exact ChangedWithin.refl _ _
  · intro i hi x
    simp only [mem_rights]
    by_cases hx : x = operator
    · subst hx
      rw [Function.update_self]
      by_cases hlt : i < 256
      · rw [evaluateBy_bit _ _ _ _ hlt, if_neg (mt mem_rights.2 hi)]
      · rw [BitVec.getLsbD_of_ge _ _ (by omega), BitVec.getLsbD_of_ge _ _ (by omega)]
    · rw [Function.update_of_ne hx]
  · exact ChangedWithin.refl _ _

/-- Only a manager changes the roles. -/
theorem Step.roles_guarded (hi : 255 ∉ rights s c.sender) (h : Step C this s c s') : s'.userRoles = s.userRoles := by
  rcases step_cases h with rfl | ⟨_, _, hmanager, -⟩ | ⟨_, _, -, rfl⟩
  · rfl
  · exact absurd hmanager hi
  · rfl

/-- What a coalition `S` cannot do between `s` and `t`. The addresses of `bits` include the contract's own, whose word
holds its features. -/
structure Confined (S : Set Address) (s t : Storage E) : Prop where
  bits : ∀ i, Lacks S i (rights s) → ∀ x, (t.userRoles x).getLsbD i = (s.userRoles x).getLsbD i
  lacks : ∀ i, Lacks S i (rights s) → Lacks S i (rights t)
  roles : Lacks S 255 (rights s) → t.userRoles = s.userRoles
  upgrade : Lacks S 254 (rights s) → ∀ a ∈ S, authorizeUpgrade a t = .error (.error "access denied")

/-- **A coalition is confined**, in every inheriting contract and over every run of calls by its members. -/
theorem confined_of_run {S : Set Address} {cs : List (Call O)} (h : Lts.Run (Step C this) s cs t)
    (hS : ∀ c ∈ cs, c.sender ∈ S) : Confined S s t := by
  have hrights : ∀ i, Lacks S i (rights s) → Lacks S i (rights t) ∧ ∀ x, i ∈ rights t x ↔ i ∈ rights s x :=
    fun i hi => Run.rights_unchanged Call.sender h Step.changedWithin hS hi
  refine ⟨?_, ?_, ?_, ?_⟩
  · intro i hi x
    exact Bool.eq_iff_iff.2 ((hrights i hi).2 x)
  · intro i hi
    exact (hrights i hi).1
  · intro hi
    exact Run.guarded_unchanged Call.sender h Step.changedWithin Step.roles_guarded hS hi
  · intro hi a ha
    refine require_neg ?_
    intro hrole
    exact (hrights 254 hi).1 a ha (authorizeUpgrade_ok_iff.1 (require_pos hrole))

end UpgradeableAccessControl
end Illuvitars
