import Mathlib.Data.BitVec
import Mathlib.Data.Set.Finite.Lattice
import Illuvitars.Lib.Powers
import Illuvitars.Oracle.AccessControl

/-!
# What a coalition of accounts can make of the roles

`confined_of_run` says what a coalition cannot change. It can change all the rest: one member that is an access manager
makes the others managers, they hand it their bits, and then it writes every bit that some member holds, in the role of
any account and in the features.

* `exists_call`, `exists_calls`: each move of the abstract coalition is one call of `updateRole`;
* `coalition_exact`: the roles that a coalition can reach, exactly.
-/

namespace Illuvitars
namespace UpgradeableAccessControl

open Evm Rights

variable {E O : Type} {s t : Storage E} {S : Set Address}

/-! ## Words and sets of bits -/

open Classical in
/-- The word with the bits in `D`. -/
noncomputable def word (D : Set ℕ) : Uint256 :=
  (BitVec.ofBoolListLE ((List.range 256).map fun i => decide (i ∈ D))).setWidth 256

theorem word_bit (D : Set ℕ) {i : ℕ} (hi : i < 256) : (word D).getLsbD i = true ↔ i ∈ D := by
  rw [word, BitVec.getLsbD_setWidth, BitVec.getLsbD_ofBoolListLE]
  simp [hi]

theorem lt_of_mem_rights {x : Address} {i : ℕ} (h : i ∈ rights s x) : i < 256 := by
  by_contra hi
  have := BitVec.getLsbD_of_ge (s.userRoles x) i (by omega)
  simp_all [mem_rights]

/-- A coalition holds finitely many rights. -/
theorem finite_rights (S : Set Address) (s : Storage E) : {i | ¬Lacks S i (rights s)}.Finite := by
  refine (Set.finite_lt_nat 256).subset ?_
  intro i hi
  obtain ⟨a, -, ha⟩ : ∃ a ∈ S, i ∈ rights s a := by
    simpa [Lacks] using hi
  exact lt_of_mem_rights ha

/-- Roles with the same rights are the same. -/
theorem roles_eq_of_rights {f : UserRoles} (h : ∀ x i, i ∈ rights t x ↔ (f x).getLsbD i = true) : t.userRoles = f := by
  funext x
  refine BitVec.eq_of_getLsbD_eq ?_
  intro i _
  exact Bool.eq_iff_iff.2 (h x i)

instance finite_address : Finite Address := Finite.of_equiv _ BitVec.equivFin.symm.toEquiv

/-! ## The moves of a coalition -/

/-- The call for a move. -/
noncomputable def moveCall (m : Move Address ℕ) : Call O := ⟨m.actor, .updateRole m.target (word m.desired)⟩

/-- **Each move is one call**, which leaves the state variables of the inheriting contract as they are. -/
theorem exists_call (C : Inheriting E O) (this : Address) {m : Move Address ℕ} {R : Address → Set ℕ}
    (h : Sets 255 (rights s) m R) :
    ∃ t, Step C this s (moveCall m) t ∧ rights t = R ∧ t.own = s.own := by
  obtain ⟨hmanager, rfl⟩ := h
  obtain ⟨t, hok⟩ : ∃ t, updateRole m.actor m.target (word m.desired) s = .ok t :=
    ⟨_, updateRole_ok_iff.2 ⟨hmanager, rfl⟩⟩
  have hstep : Step C this s (moveCall m) t := step_of_call hok
  obtain ⟨-, rfl⟩ := updateRole_ok_iff.1 hok
  refine ⟨_, hstep, ?_, rfl⟩
  funext x
  ext i
  by_cases hx : x = m.target
  · subst hx
    rw [Move.mem_apply_self, mem_rights]
    dsimp only
    rw [Function.update_self]
    by_cases hi : i < 256
    · rw [evaluateBy_bit _ _ _ _ hi]
      by_cases ha : i ∈ rights s m.actor
      · rw [if_pos (mem_rights.1 ha), word_bit _ hi]
        simp [ha]
      · rw [if_neg (mt mem_rights.2 ha)]
        simp [ha, mem_rights]
    · rw [BitVec.getLsbD_of_ge _ _ (by omega)]
      have hnone : ∀ y, i ∉ rights s y := fun y hy => hi (lt_of_mem_rights hy)
      simp [hnone]
  · rw [Move.apply_of_ne hx, mem_rights, mem_rights]
    dsimp only
    rw [Function.update_of_ne hx]

/-- Moves one after the other are calls one after the other. -/
theorem exists_calls (C : Inheriting E O) (this : Address) {ms : List (Move Address ℕ)} {R R' : Address → Set ℕ}
    (h : Lts.Run (Sets 255) R ms R') (hs : rights s = R) :
    ∃ t, Lts.Run (Step C this) s (ms.map moveCall) t ∧ rights t = R' ∧ t.own = s.own := by
  induction h generalizing s with
  | nil R => exact ⟨s, .nil s, hs, rfl⟩
  | cons hm _ ih =>
    subst hs
    obtain ⟨s₁, hstep, hs₁, hown₁⟩ := exists_call C this hm
    obtain ⟨t, hrun, ht, hown⟩ := ih hs₁
    exact ⟨t, .cons hstep hrun, ht, hown.trans hown₁⟩

/-! ## Coalitions -/

/-- The roles that the coalition can bring about: the ones there are, and if a member is an access manager, all that
keep the bits which no member holds, for every account and in the features. -/
def Attainable (S : Set Address) (s : Storage E) (f : UserRoles) : Prop :=
  f = s.userRoles ∨
    (¬Lacks S 255 (rights s) ∧ ∀ i, Lacks S i (rights s) → ∀ x, (f x).getLsbD i = (s.userRoles x).getLsbD i)

/-- The coalition brings about what is attainable by role updates alone. -/
theorem Attainable.exists_run (C : Inheriting E O) (this : Address) {f : UserRoles} (h : Attainable S s f) :
    ∃ cs : List (Call O), Lts.Run (Step C this) s cs { s with userRoles := f } ∧ ∀ c ∈ cs, c.sender ∈ S := by
  have hreach : Reach 255 S (rights s) (rights { s with userRoles := f }) := by
    refine (reach_iff (finite_rights S s)).2 ?_
    rcases h with rfl | ⟨hmanager, hkeep⟩
    · exact .inl rfl
    · refine .inr ⟨hmanager, ?_⟩
      intro i hi x
      rw [mem_rights, mem_rights, hkeep i hi x]
  obtain ⟨ms, hrun, hms⟩ := hreach
  obtain ⟨t, hcalls, ht, hown⟩ := exists_calls C this hrun rfl
  have hroles : t.userRoles = f := by
    refine roles_eq_of_rights ?_
    intro x i
    rw [ht]
    exact mem_rights
  refine ⟨ms.map moveCall, ?_, ?_⟩
  · cases t
    cases hroles
    cases hown
    exact hcalls
  · intro c hc
    obtain ⟨m, hm, rfl⟩ := List.mem_map.1 hc
    exact hms m hm

/-- **The roles that a coalition can reach are exactly the attainable ones**, in every inheriting contract: any calls of
its members lead to attainable roles, and role updates alone lead to all of them. -/
theorem coalition_exact (C : Inheriting E O) (this : Address) (S : Set Address) (s : Storage E) (f : UserRoles) :
    ((∃ cs t, Lts.Run (Step C this) s cs t ∧ (∀ c ∈ cs, c.sender ∈ S) ∧ t.userRoles = f) ↔ Attainable S s f) ∧
    (Attainable S s f →
      ∃ cs : List (Call O), Lts.Run (Step C this) s cs { s with userRoles := f } ∧ ∀ c ∈ cs, c.sender ∈ S) := by
  refine ⟨⟨?_, ?_⟩, fun h => h.exists_run C this⟩
  · rintro ⟨cs, t, hrun, hS, rfl⟩
    have hconfined := confined_of_run hrun hS
    by_cases hmanager : Lacks S 255 (rights s)
    · exact .inl (hconfined.roles hmanager)
    · exact .inr ⟨hmanager, hconfined.bits⟩
  · intro h
    obtain ⟨cs, hrun, hS⟩ := h.exists_run C this
    exact ⟨cs, _, hrun, hS, rfl⟩

end UpgradeableAccessControl
end Illuvitars
