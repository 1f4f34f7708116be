import Mathlib.Data.Nat.Notation
import Mathlib.Logic.Basic

/-!
# Runs of a labelled transition system

* `Run step s is t`: the labels `is` lead from `s` to `t`;
* `Run.invariant`: what every step with an allowed label keeps, every run with allowed labels keeps;
* `Run.exists_step`: what becomes true in a run becomes true in one of its steps;
* `Counted`: a run with the number of its steps that are hits; `Counted.measure` for a quantity that counts them;
* `Reachable`, `Reachable.invariant`: the states reached from a start state, and the invariant rule for them, whose step
  case may assume that the state before the step is reachable.
-/

namespace Lts

variable {σ ι : Type} {step : σ → ι → σ → Prop}

/-- The labels `is` lead from the first state to the last. -/
inductive Run (step : σ → ι → σ → Prop) : σ → List ι → σ → Prop
  | nil (s : σ) : Run step s [] s
  | cons {s t u : σ} {i : ι} {is : List ι} : step s i t → Run step t is u → Run step s (i :: is) u

/-- Runs compose. -/
theorem Run.append {s t u : σ} {is js : List ι} (h : Run step s is t) (h' : Run step t js u) :
    Run step s (is ++ js) u := by
  induction h with
  | nil => exact h'
  | cons hs _ ih => exact .cons hs (ih h')

/-- The invariant rule: steps with labels in `P` keep `I`, so runs with labels in `P` do. -/
theorem Run.invariant {I : σ → Prop} {P : ι → Prop} (hstep : ∀ {s i t}, P i → I s → step s i t → I t)
    {s t : σ} {is : List ι} (h : Run step s is t) (hP : ∀ i ∈ is, P i) (hs : I s) : I t := by
  induction h with
  | nil => exact hs
  | cons h1 _ ih =>
    have hi := hstep (hP _ List.mem_cons_self) hs h1
    exact ih (fun i hi => hP i (List.mem_cons_of_mem _ hi)) hi

/-- What does not hold at the start of a run and holds at its end becomes true in one of its steps. -/
theorem Run.exists_step {P : σ → Prop} {s t : σ} {is : List ι} (h : Run step s is t) (hs : ¬P s) (ht : P t) :
    ∃ js u i u' ks, is = js ++ i :: ks ∧ Run step s js u ∧ step u i u' ∧ Run step u' ks t ∧ ¬P u ∧ P u' := by
  induction h with
  | nil => exact absurd ht hs
  | @cons s u t i is h1 hr ih =>
    by_cases hu : P u
    · exact ⟨[], s, i, u, is, rfl, .nil s, h1, hr, hs, hu⟩
    · obtain ⟨js, v, j, v', ks, rfl, hjs, hj, hks, hv, hv'⟩ := ih hu ht
      exact ⟨i :: js, v, j, v', ks, rfl, .cons h1 hjs, hj, hks, hv, hv'⟩

/-! ## Counting steps -/

/-- A run with the number of its steps that are hits. -/
inductive Counted (step : σ → ι → σ → Prop) (hit : σ → ι → Prop) : σ → List ι → σ → ℕ → Prop
  | nil (s : σ) : Counted step hit s [] s 0
  | hit {s t u : σ} {i : ι} {is : List ι} {n : ℕ} : step s i t → hit s i → Counted step hit t is u n →
      Counted step hit s (i :: is) u (n + 1)
  | miss {s t u : σ} {i : ι} {is : List ι} {n : ℕ} : step s i t → ¬hit s i → Counted step hit t is u n →
      Counted step hit s (i :: is) u n

variable {hit : σ → ι → Prop}

theorem Counted.run {s t : σ} {is : List ι} {n : ℕ} (h : Counted step hit s is t n) : Run step s is t := by
  induction h with
  | nil => exact .nil _
  | hit h1 _ _ ih => exact .cons h1 ih
  | miss h1 _ _ ih => exact .cons h1 ih

/-- Every run has a count. -/
theorem Run.counted {s t : σ} {is : List ι} (h : Run step s is t) (hit : σ → ι → Prop) :
    ∃ n, Counted step hit s is t n := by
  induction h with
  | nil => exact ⟨0, .nil _⟩
  | @cons s t u i is h1 _ ih =>
    obtain ⟨n, hn⟩ := ih
    by_cases hi : hit s i
    · exact ⟨n + 1, .hit h1 hi hn⟩
    · exact ⟨n, .miss h1 hi hn⟩

/-- A quantity that grows by one at a hit and is unchanged at a miss counts the hits, while `I` holds. -/
theorem Counted.measure {f : σ → ℕ} {I : σ → Prop} (hI : ∀ {s i t}, I s → step s i t → I t)
    (hhit : ∀ {s i t}, I s → step s i t → hit s i → f t = f s + 1)
    (hmiss : ∀ {s i t}, I s → step s i t → ¬hit s i → f t = f s) {s t : σ} {is : List ι} {n : ℕ}
    (h : Counted step hit s is t n) (hs : I s) : f t = f s + n := by
  induction h with
  | nil => rfl
  | hit h1 hi _ ih =>
    have hf := hhit hs h1 hi
    have := ih (hI hs h1)
    omega
  | miss h1 hi _ ih =>
    have hf := hmiss hs h1 hi
    have := ih (hI hs h1)
    omega

/-! ## Reachable states -/

/-- The states a run from a start state reaches. -/
def Reachable (start : σ → Prop) (step : σ → ι → σ → Prop) (t : σ) : Prop :=
  ∃ s is, start s ∧ Run step s is t

variable {start : σ → Prop}

theorem Reachable.of_start {s : σ} (h : start s) : Reachable start step s := ⟨s, [], h, .nil s⟩

/-- A run from a reachable state ends in a reachable state. -/
theorem Reachable.run {s t : σ} {is : List ι} (h : Reachable start step s) (h' : Run step s is t) :
    Reachable start step t := by
  obtain ⟨s₀, js, h0, hr⟩ := h
  exact ⟨s₀, js ++ is, h0, hr.append h'⟩

theorem Reachable.snoc {s t : σ} {i : ι} (h : Reachable start step s) (h' : step s i t) : Reachable start step t :=
  h.run (.cons h' (.nil t))

/-- The invariant rule for reachable states. -/
theorem Reachable.invariant {I : σ → Prop} (h0 : ∀ {s}, start s → I s)
    (hstep : ∀ {s i t}, Reachable start step s → I s → step s i t → I t) {t : σ} (h : Reachable start step t) :
    I t := by
  obtain ⟨s, is, hs, hr⟩ := h
  have hI : Reachable start step t ∧ I t :=
    hr.invariant (I := fun u => Reachable start step u ∧ I u) (P := fun _ => True)
      (fun _ hu h' => ⟨hu.1.snoc h', hstep hu.1 hu.2 h'⟩) (fun _ _ => trivial) ⟨Reachable.of_start hs, h0 hs⟩
  exact hI.2

end Lts
