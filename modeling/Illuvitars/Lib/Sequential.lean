import Illuvitars.Lib.Reentrancy

/-!
# Calls without callbacks

The same contract as in `Reentrancy`, called by accounts that accept at once: `sequential` makes one call after the
other and fails with the first that fails. A contract is as good as sequential if every run with callbacks ends where
some sequence of calls without callbacks ends.

* `sequential_append`, `sequential_snoc`: sequences compose;
* `sequential_invariant`: what every call keeps, a sequence keeps;
* `run_sequential`: a sequence is a run;
* `reachable_iff_sequential`: the states reached with callbacks are those reached without, if all runs can be made
  sequential.
-/

namespace Reentrancy

open Evm

variable {σ α : Type}

/-- One call after the other, each with a callee that accepts at once. -/
def sequential (contract : Contract σ α) : List α → σ → Exec σ
  | [], s => .ok s
  | a :: as, s => do
    let s ← contract a .ok s
    sequential contract as s

variable {contract : Contract σ α} {a : α} {as bs : List α} {s s' : σ}

theorem sequential_append (as bs : List α) (s : σ) :
    sequential contract (as ++ bs) s = sequential contract as s >>= sequential contract bs := by
  induction as generalizing s with
  | nil => rfl
  | cons a as ih =>
    rw [List.cons_append, sequential, sequential]
    cases contract a .ok s with
    | error e => rfl
    | ok s' => exact ih s'

theorem sequential_snoc (as : List α) (a : α) (s : σ) :
    sequential contract (as ++ [a]) s = sequential contract as s >>= contract a .ok := by
  rw [sequential_append]
  congr 1
  funext s'
  rw [sequential]
  cases contract a .ok s' with
  | error e => rfl
  | ok s'' => rfl

/-- One more call. -/
theorem sequential_extend {s₀ : σ} (h : sequential contract as s₀ = .ok s) (h' : contract a .ok s = .ok s') :
    sequential contract (as ++ [a]) s₀ = .ok s' := by
  rw [sequential_snoc, h, ok_bind, h']

/-- The invariant rule for sequences of calls. -/
theorem sequential_invariant {I : σ → Prop} (hI : ∀ {a s s'}, I s → contract a .ok s = .ok s' → I s')
    (h : sequential contract as s = .ok s') (hs : I s) : I s' := by
  induction as generalizing s with
  | nil =>
    cases h
    exact hs
  | cons a as ih =>
    obtain ⟨s₁, h₁, h₂⟩ := bind_ok_iff.1 h
    exact ih h₂ (hI hs h₁)

/-- The same calls as transactions. -/
def accepted (as : List α) : List (α × Hook α) := as.map fun a => (a, .accept)

/-- A transaction whose callee accepts at once. -/
theorem transact_accept (h : contract a .ok s = .ok s') : transact contract (a, .accept) s = s' := by
  have hrun : (Hook.accept : Hook α).run contract = .ok := rfl
  simp only [transact, hrun, h]

/-- A sequence of calls is a run. -/
theorem run_sequential (h : sequential contract as s = .ok s') : Lts.Run (Step contract) s (accepted as) s' := by
  induction as generalizing s with
  | nil =>
    cases h
    exact .nil _
  | cons a as ih =>
    obtain ⟨s₁, h₁, h₂⟩ := bind_ok_iff.1 h
    exact .cons (transact_accept h₁).symm (ih h₂)

/-- **Callbacks reach nothing new** in a contract whose runs can be made sequential. -/
theorem reachable_iff_sequential {start : σ → Prop} (hserial : ∀ {s₀ ts s}, start s₀ →
      Lts.Run (Step contract) s₀ ts s → ∃ as, sequential contract as s₀ = .ok s) :
    Lts.Reachable start (Step contract) s ↔ ∃ s₀ as, start s₀ ∧ sequential contract as s₀ = .ok s := by
  constructor
  · rintro ⟨s₀, ts, h0, hrun⟩
    obtain ⟨as, h⟩ := hserial h0 hrun
    exact ⟨s₀, as, h0, h⟩
  · rintro ⟨s₀, as, h0, h⟩
    exact ⟨s₀, accepted as, h0, run_sequential h⟩

end Reentrancy
