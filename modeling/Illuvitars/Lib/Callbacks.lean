import Illuvitars.Lib.Exec
import Illuvitars.Lib.Runs

/-!
# Callbacks at several places

A function may hand over more than once, each time to another callee. What a callee does is given for each place, and a
callee may make calls whose callees do the same. A call that fails is undone, and its caller goes on.

* `Callee.run` is what a callee does to the state of the contract, `transact` a transaction;
* `Keeps contract Q I`: every call in `Q` keeps the conditions `I i` that its callees keep. The conditions are indexed,
  since a function may owe something while its callee runs;
* `Callee.invariant`, `run_invariant`: then all callees and all runs whose calls are in `Q` keep them;
* `Sees contract Q I`: calls in `Q` hand over in states with `I` only, so that it does not matter what a callee would do
  in others (`transact_wary`).
-/

namespace Callbacks

open Evm

variable {P σ α ι : Type}

/-- What a callee does: calls, each with what the callees at its places do, and in the end it accepts or refuses. -/
inductive Callee (P α : Type)
  | refuse (reason : Revert)
  | accept
  | call (a : α) (callees : P → Callee P α) (next : Callee P α)

/-- What a call does, given what the callees at its places do. -/
abbrev Contract (P σ α : Type) := α → (P → σ → Exec σ) → σ → Exec σ

/-- The calls of a callee, and those made inside of them, are in `Q`. -/
def Callee.All (Q : α → Prop) : Callee P α → Prop
  | .refuse _ => True
  | .accept => True
  | .call a callees next => Q a ∧ (∀ p, (callees p).All Q) ∧ next.All Q

section Semantics

variable (contract : Contract P σ α)

def Callee.run : Callee P α → σ → Exec σ
  | .refuse reason, _ => .error reason
  | .accept, s => .ok s
  | .call a callees next, s =>
    match contract a (fun p => (callees p).run) s with
    | .ok s' => next.run s'
    | .error _ => next.run s

/-- The state after a transaction. -/
def transact (t : α × (P → Callee P α)) (s : σ) : σ :=
  match contract t.1 (fun p => (t.2 p).run contract) s with
  | .ok s' => s'
  | .error _ => s

def Step (s : σ) (t : α × (P → Callee P α)) (s' : σ) : Prop := s' = transact contract t s

/-- The call of a transaction, and those made inside of it, are in `Q`. -/
def AllCalls (Q : α → Prop) (t : α × (P → Callee P α)) : Prop := Q t.1 ∧ ∀ p, (t.2 p).All Q

/-- Every call in `Q` keeps the conditions that its callees keep. -/
def Keeps (Q : α → Prop) (I : ι → σ → Prop) : Prop :=
  ∀ a, Q a → ∀ callees : P → σ → Exec σ, (∀ p i s s', I i s → callees p s = .ok s' → I i s') →
    ∀ i s s', I i s → contract a callees s = .ok s' → I i s'

end Semantics

variable {contract : Contract P σ α} {Q : α → Prop} {I : ι → σ → Prop} {i : ι} {s s' : σ}

/-- The rule for callees: induction on the calls that they make. -/
theorem Callee.invariant (hI : Keeps contract Q I) (callee : Callee P α) (hQ : callee.All Q) :
    ∀ i s s', I i s → callee.run contract s = .ok s' → I i s' := by
  induction callee with
  | refuse reason =>
    intro i s s' _ h
    cases h
  | accept =>
    intro i s s' hs h
    cases h
    exact hs
  | call a callees next ih ihnext =>
    obtain ⟨ha, hcallees, hnext⟩ := hQ
    intro i s s' hs h
    rw [Callee.run] at h
    split at h
    · rename_i s₁ h₁
      have hs₁ : I i s₁ := hI a ha _ (fun p => ih p (hcallees p)) i s s₁ hs h₁
      exact ihnext hnext i s₁ s' hs₁ h
    · exact ihnext hnext i s s' hs h

theorem transact_invariant (hI : Keeps contract Q I) {t : α × (P → Callee P α)} (ht : AllCalls Q t) (hs : I i s) :
    I i (transact contract t s) := by
  unfold transact
  split
  · rename_i s' h
    exact hI t.1 ht.1 _ (fun p => Callee.invariant hI (t.2 p) (ht.2 p)) i s s' hs h
  · exact hs

/-- The rule for runs. -/
theorem run_invariant (hI : Keeps contract Q I) {ts : List (α × (P → Callee P α))} (hts : ∀ t ∈ ts, AllCalls Q t)
    (h : Lts.Run (Step contract) s ts s') (hs : I i s) : I i s' := by
  refine h.invariant (P := AllCalls Q) (I := I i) ?_ hts hs
  intro s t s' ht hs hstep
  rw [hstep]
  exact transact_invariant hI ht hs

/-! ## What callees find -/

/-- Callees that refuse unless they find a state in `G`. -/
def wary (G : σ → Prop) [DecidablePred G] (callees : P → σ → Exec σ) : P → σ → Exec σ :=
  fun p s => if G s then callees p s else .error .empty

/-- Calls in `Q` hand over in states with `I` only: callees that agree on these do the same. -/
def Sees (contract : Contract P σ α) (Q : α → Prop) (I : ι → σ → Prop) : Prop :=
  ∀ a, Q a → ∀ callees callees' : P → σ → Exec σ, (∀ p i s s', I i s → callees p s = .ok s' → I i s') →
    (∀ p i s, I i s → callees p s = callees' p s) → ∀ i s, I i s → contract a callees s = contract a callees' s

variable {G : σ → Prop} [DecidablePred G]

/-- Whoever is called finds a state in `G`. -/
theorem Callee.run_wary (hI : Keeps contract Q I) (hsees : Sees contract Q I) (hG : ∀ i s, I i s → G s)
    (callee : Callee P α) (hQ : callee.All Q) :
    ∀ i s, I i s → callee.run contract s = callee.run (fun a callees => contract a (wary G callees)) s := by
  induction callee with
  | refuse reason => exact fun _ _ _ => rfl
  | accept => exact fun _ _ _ => rfl
  | call a callees next ih ihnext =>
    obtain ⟨ha, hcallees, hnext⟩ := hQ
    intro i s hs
    have hkeep := fun p => Callee.invariant hI (callees p) (hcallees p)
    have hcall := hsees a ha _ (wary G fun p => (callees p).run fun a callees => contract a (wary G callees)) hkeep
      (fun p i s hs => (ih p (hcallees p) i s hs).trans (if_pos (hG i s hs)).symm) i s hs
    rw [Callee.run, Callee.run, ← hcall]
    split
    · rename_i s₁ h₁
      exact ihnext hnext i s₁ (hI a ha _ hkeep i s s₁ hs h₁)
    · exact ihnext hnext i s hs

theorem transact_wary (hI : Keeps contract Q I) (hsees : Sees contract Q I) (hG : ∀ i s, I i s → G s)
    {t : α × (P → Callee P α)} (ht : AllCalls Q t) (hs : I i s) :
    transact contract t s = transact (fun a callees => contract a (wary G callees)) t s := by
  have hcall := hsees t.1 ht.1 _ (wary G fun p => (t.2 p).run fun a callees => contract a (wary G callees))
    (fun p => Callee.invariant hI (t.2 p) (ht.2 p))
    (fun p i s hs => (Callee.run_wary hI hsees hG (t.2 p) (ht.2 p) i s hs).trans (if_pos (hG i s hs)).symm) i s hs
  unfold transact
  rw [hcall]

/-! ## Callees that accept at once -/

/-- A transaction whose callees accept at once. -/
theorem transact_accept {a : α} (h : contract a (fun _ => .ok) s = .ok s') :
    transact contract (a, fun _ => .accept) s = s' := by
  have hrun : (Callee.accept : Callee P α).run contract = .ok := rfl
  simp only [transact, hrun, h]

end Callbacks
