import Illuvitars.Oracle.AccessControl

/-!
# What a role update does

`updateRole` writes the mask on the bits that its sender holds and keeps the other bits of the target, where the
sender's role is the one before the update, also if sender and target are one account.

* `SetsExactly`: the meaning of one update, bit by bit; `updateRole_ok` says that every successful call has it;
* `evaluateBy_full`, `evaluateBy_self`: a sender with all bits, and a sender that is the target;
* `selfUpdates_bits`, `selfUpdates_and`: sequences of updates that an account applies to itself;
* `updateRole_exact`: all of it, for every inheriting contract.
-/

namespace Illuvitars
namespace UpgradeableAccessControl

open Evm

variable {E O : Type} {C : Inheriting E O} {this sender operator account : Address} {role : Uint256}
  {s s' t : Storage E}

/-! ## One update -/

/-- The update of `operator` by `sender` from `s` to `s'` with the mask `role`. -/
structure SetsExactly (sender operator : Address) (role : Uint256) (s s' : Storage E) : Prop where
  bits : ∀ i < 256, (s'.userRoles operator).getLsbD i =
    if (s.userRoles sender).getLsbD i then role.getLsbD i else (s.userRoles operator).getLsbD i
  others : ∀ x ≠ operator, s'.userRoles x = s.userRoles x
  own : s'.own = s.own

/-- The roles after a successful update. -/
theorem updateRole_roles (h : updateRole sender operator role s = .ok s') :
    s'.userRoles =
        Function.update s.userRoles operator (evaluateBy s.userRoles sender (s.userRoles operator) role) ∧
      s'.own = s.own := by
  obtain ⟨-, rfl⟩ := updateRole_ok_iff.1 h
  exact ⟨rfl, rfl⟩

/-- A successful update sets exactly the bits that its sender holds. -/
theorem updateRole_ok (h : updateRole sender operator role s = .ok s') : SetsExactly sender operator role s s' := by
  obtain ⟨hroles, hown⟩ := updateRole_roles h
  refine ⟨?_, ?_, hown⟩
  · intro i hi
    rw [hroles, Function.update_self]
    exact evaluateBy_bit s.userRoles sender (s.userRoles operator) role hi
  · intro x hx
    rw [hroles, Function.update_of_ne hx]

/-- Updates with the same meaning leave the same roles. -/
theorem SetsExactly.unique (h : SetsExactly sender operator role s s') (h' : SetsExactly sender operator role s t) :
    s' = t := by
  have hroles : s'.userRoles = t.userRoles := by
    funext x
    by_cases hx : x = operator
    · subst hx
      refine BitVec.eq_of_getLsbD_eq ?_
      intro i hi
      rw [h.bits i hi, h'.bits i hi]
    · rw [h.others x hx, h'.others x hx]
  have hown : s'.own = t.own := h.own.trans h'.own.symm
  cases s'
  cases t
  cases hroles
  cases hown
  rfl

/-- What a sender with all bits sets is what the target gets. -/
theorem evaluateBy_full {userRoles : UserRoles} (h : userRoles sender = FULL_PRIVILEGES_MASK)
    (target desired : Uint256) : evaluateBy userRoles sender target desired = desired := by
  refine BitVec.eq_of_getLsbD_eq ?_
  intro i hi
  rw [evaluateBy_bit _ _ _ _ hi, h, FULL_PRIVILEGES_MASK, BitVec.getLsbD_allOnes]
  simp [hi]

/-- An account that updates itself keeps the bits of the mask. -/
theorem evaluateBy_self (userRoles : UserRoles) (account : Address) (desired : Uint256) :
    evaluateBy userRoles account (userRoles account) desired = userRoles account &&& desired := by
  refine BitVec.eq_of_getLsbD_eq ?_
  intro i hi
  rw [evaluateBy_bit _ _ _ _ hi, BitVec.getLsbD_and]
  cases (userRoles account).getLsbD i <;> simp

/-- Where the sender is not the target, a second call finds the sender's role unchanged and repeats the result. -/
theorem updateRole_again (hne : sender ≠ operator) (h : updateRole sender operator role s = .ok s') :
    updateRole sender operator role s' = .ok s' := by
  have hset := updateRole_ok h
  have hsender : s'.userRoles sender = s.userRoles sender := hset.others sender hne
  obtain ⟨hmanager, -⟩ := updateRole_ok_iff.1 h
  obtain ⟨t, ht⟩ : ∃ t, updateRole sender operator role s' = .ok t :=
    ⟨_, updateRole_ok_iff.2 ⟨by rw [hsender]; exact hmanager, rfl⟩⟩
  have hset' := updateRole_ok ht
  have hself : SetsExactly sender operator role s' s' := by
    refine ⟨?_, fun _ _ => rfl, rfl⟩
    intro i hi
    rw [hsender, hset.bits i hi]
    cases (s.userRoles sender).getLsbD i <;> simp
  rw [ht, hset'.unique hself]

/-! ## Updates of oneself -/

/-- The calls by which an account applies the masks to itself. -/
def selfUpdates (account : Address) (masks : List Uint256) : List (Call O) :=
  masks.map fun role => ⟨account, .updateRole account role⟩

/-- One update of oneself, successful or not, loses bits only. -/
theorem transact_self_bits {i : ℕ}
    (h : ((transact C this ⟨account, .updateRole account role⟩ s).userRoles account).getLsbD i = true) :
    (s.userRoles account).getLsbD i = true := by
  have hstep : Step C this s ⟨account, .updateRole account role⟩
      (transact C this ⟨account, .updateRole account role⟩ s) := rfl
  rcases step_cases hstep with heq | ⟨x, mask, -, heq⟩ | ⟨op, own, -, heq⟩
  · rwa [heq] at h
  · rw [heq] at h
    dsimp only at h
    by_cases hx : account = x
    · subst hx
      rw [Function.update_self, evaluateBy_self, BitVec.getLsbD_and] at h
      exact (Bool.and_eq_true_iff.1 h).1
    · rwa [Function.update_of_ne hx] at h
  · rwa [heq] at h

/-- Over every sequence of updates that an account applies to itself, it only loses bits. -/
theorem selfUpdates_bits (C : Inheriting E O) (this account : Address) (masks : List Uint256) (s : Storage E) {i : ℕ}
    (h : ((transactions C this (selfUpdates account masks) s).userRoles account).getLsbD i = true) :
    (s.userRoles account).getLsbD i = true := by
  induction masks generalizing s with
  | nil => exact h
  | cons role masks ih => exact transact_self_bits (ih _ h)

/-- The updates one after the other, as long as every call succeeds. -/
def updateSelf (account : Address) : List Uint256 → Storage E → Exec (Storage E)
  | [], s => .ok s
  | role :: masks, s => do
    let s ← updateRole account account role s
    updateSelf account masks s

/-- While every update succeeds, the role is the conjunction of the first role with the masks. -/
theorem selfUpdates_and {masks : List Uint256} (h : updateSelf account masks s = .ok t) :
    t.userRoles account = masks.foldl (fun role mask => role &&& mask) (s.userRoles account) := by
  induction masks generalizing s with
  | nil =>
    cases h
    rfl
  | cons role masks ih =>
    obtain ⟨s₁, h₁, h₂⟩ := bind_ok_iff.1 h
    rw [ih h₂, (updateRole_roles h₁).1, Function.update_self, evaluateBy_self, List.foldl_cons]

/-- **A role update applies the mask exactly on the bits that its sender holds**, in every inheriting contract and
every state: once, repeated, and in sequences by which an account updates itself. -/
theorem updateRole_exact (C : Inheriting E O) (this : Address) (s : Storage E) (sender operator : Address)
    (role : Uint256) :
    ((∃ s', updateRole sender operator role s = .ok s') ↔ (s.userRoles sender).getLsbD 255 = true) ∧
    (∀ s', updateRole sender operator role s = .ok s' → SetsExactly sender operator role s s') ∧
    (s.userRoles sender = FULL_PRIVILEGES_MASK →
      ∃ s', updateRole sender operator role s = .ok s' ∧ s'.userRoles operator = role) ∧
    (sender ≠ operator → ∀ s', updateRole sender operator role s = .ok s' →
      updateRole sender operator role s' = .ok s') ∧
    (∀ masks i, ((transactions C this (selfUpdates sender masks) s).userRoles sender).getLsbD i = true →
      (s.userRoles sender).getLsbD i = true) ∧
    ∀ masks t, updateSelf sender masks s = .ok t →
      t.userRoles sender = masks.foldl (fun role mask => role &&& mask) (s.userRoles sender) := by
  refine ⟨?_, fun s' h => updateRole_ok h, ?_, fun hne s' h => updateRole_again hne h, ?_, ?_⟩
  · constructor
    · rintro ⟨s', h⟩
      exact (updateRole_ok_iff.1 h).1
    · intro h
      exact ⟨_, updateRole_ok_iff.2 ⟨h, rfl⟩⟩
  · intro hfull
    have hmanager : (s.userRoles sender).getLsbD 255 = true := by
      rw [hfull]
      decide
    obtain ⟨s', hok⟩ : ∃ s', updateRole sender operator role s = .ok s' :=
      ⟨_, updateRole_ok_iff.2 ⟨hmanager, rfl⟩⟩
    refine ⟨s', hok, ?_⟩
    rw [(updateRole_roles hok).1, Function.update_self, evaluateBy_full hfull]
  · intro masks i h
    exact selfUpdates_bits C this sender masks s h
  · intro masks t h
    exact selfUpdates_and h

namespace Manager

/-- Account 1 is an access manager with the bits 0 to 3, account 2 has every second bit of the lowest byte. -/
def start : Storage Unit := ⟨fun x => if x = 1 then ROLE_ACCESS_MANAGER ||| 0x0F else if x = 2 then 0x55 else 0, ()⟩

def none : Inheriting Unit Unit := ⟨fun _ _ _ own => .ok own⟩

end Manager

/-- Account 1 sets account 2 to `00110011`, of which it holds the lower half, and then gives up its own bits. -/
theorem updateRole_exact_manager :
    (∃ s', updateRole 1 2 0x33 Manager.start = .ok s' ∧ SetsExactly 1 2 0x33 Manager.start s' ∧ s'.userRoles 2 = 0x53 ∧
      updateRole 1 2 0x33 s' = .ok s') ∧
      ∀ t, updateSelf 1 [ROLE_ACCESS_MANAGER ||| 0x03, ROLE_ACCESS_MANAGER ||| 0x05] Manager.start = .ok t →
        t.userRoles 1 = ROLE_ACCESS_MANAGER ||| 0x01 := by
  obtain ⟨hok, hset, -, hagain, -, hself⟩ := updateRole_exact Manager.none 9 Manager.start 1 2 0x33
  obtain ⟨s', h⟩ := hok.2 (by decide)
  refine ⟨⟨s', h, hset s' h, ?_, hagain (by decide) s' h⟩, ?_⟩
  · rw [(updateRole_roles h).1]
    decide
  · intro t ht
    rw [hself _ t ht]
    decide

end UpgradeableAccessControl
end Illuvitars
