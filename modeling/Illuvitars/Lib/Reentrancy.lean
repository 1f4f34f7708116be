import Illuvitars.Lib.Exec
import Illuvitars.Lib.Runs

/-!
# Calls that are called back

A contract hands over to a callee in the middle of some of its functions. The callee may make calls of its own, to the
same contract and with callees of their own, before it accepts or refuses; a call that fails is undone, and its caller
goes on.

* `Hook.run` is what a callee does to the state of the contract, `transact` a transaction;
* `Keeps contract I`: every function keeps the conditions `I i` that its callee keeps. The conditions are indexed, since
  a function may demand more of its callee than holds between transactions;
* `Hook.invariant`, `run_invariant`, `reachable_invariant`: then all callees, runs and reachable states keep them.
-/

namespace Reentrancy

open Evm

variable {σ α ι : Type}

/-- What a callee does: calls, each with what its callee does, and in the end it accepts or refuses. -/
inductive Hook (α : Type)
  | refuse (reason : Revert)
  | accept
  | call (a : α) (hook next : Hook α)

/-- What a call does, given what its callee does. -/
abbrev Contract (σ α : Type) := α → (σ → Exec σ) → σ → Exec σ

section Semantics

variable (contract : Contract σ α)

def Hook.run : Hook α → σ → Exec σ
  | .refuse reason, _ => .error reason
  | .accept, s => .ok s
  | .call a hook next, s =>
    match contract a hook.run s with
    | .ok s' => next.run s'
    | .error _ => next.run s

/-- The state after a transaction. -/
def transact (t : α × Hook α) (s : σ) : σ :=
  match contract t.1 (t.2.run contract) s with
  | .ok s' => s'
  | .error _ => s

def transactions (ts : List (α × Hook α)) (s : σ) : σ := ts.foldl (fun s t => transact contract t s) s

def Step (s : σ) (t : α × Hook α) (s' : σ) : Prop := s' = transact contract t s

/-- Every call keeps the conditions that its callee keeps. -/
def Keeps (I : ι → σ → Prop) : Prop :=
  ∀ a (hook : σ → Exec σ), (∀ i s s', I i s → hook s = .ok s' → I i s') →
    ∀ i s s', I i s → contract a hook s = .ok s' → I i s'

end Semantics

variable {contract : Contract σ α} {I : ι → σ → Prop} {i : ι} {s s' : σ}

/-- A list of transactions is a run. -/
theorem run_transactions (ts : List (α × Hook α)) (s : σ) :
    Lts.Run (Step contract) s ts (transactions contract ts s) := by
  induction ts generalizing s with
  | nil => exact .nil s
  | cons t ts ih => exact .cons rfl (ih (transact contract t s))

/-- A transaction does what its call does, or leaves the state alone. -/
theorem transact_cases (contract : Contract σ α) (t : α × Hook α) (s : σ) :
    (∃ s', contract t.1 (t.2.run contract) s = .ok s' ∧ transact contract t s = s') ∨ transact contract t s = s := by
  unfold transact
  split
  · rename_i s' h
    exact .inl ⟨s', h, rfl⟩
  · exact .inr rfl

/-- The rule for callees: induction on the calls that they make. -/
theorem Hook.invariant (hI : Keeps contract I) (hook : Hook α) :
    ∀ i s s', I i s → hook.run contract s = .ok s' → I i s' := by
  induction hook with
  | refuse reason =>
    intro i s s' _ h
    cases h
  | accept =>
    intro i s s' hs h
    cases h
    exact hs
  | call a hook next ih ihnext =>
    intro i s s' hs h
    rw [Hook.run] at h
    split at h
    · rename_i s₁ h₁
      exact ihnext i s₁ s' (hI a _ ih i s s₁ hs h₁) h
    · exact ihnext i s s' hs h

theorem transact_invariant (hI : Keeps contract I) (t : α × Hook α) (hs : I i s) : I i (transact contract t s) := by
  rcases transact_cases contract t s with ⟨s', h, heq⟩ | heq
  · rw [heq]
    exact hI t.1 _ (Hook.invariant hI t.2) i s s' hs h
  · rw [heq]
    exact hs

/-- The rule for runs, -/
theorem run_invariant (hI : Keeps contract I) {ts : List (α × Hook α)} (h : Lts.Run (Step contract) s ts s')
    (hs : I i s) : I i s' := by
  refine h.invariant (P := fun _ => True) (fun {s t s'} _ hs hstep => ?_) (fun _ _ => trivial) hs
  cases hstep
  exact transact_invariant hI t hs

/-- and for the states reached from a start state. -/
theorem reachable_invariant {start : σ → Prop} (hI : Keeps contract I) (h0 : ∀ {s}, start s → I i s)
    (h : Lts.Reachable start (Step contract) s) : I i s := by
  obtain ⟨s₀, ts, hs₀, hrun⟩ := h
  exact run_invariant hI hrun (h0 hs₀)

end Reentrancy
