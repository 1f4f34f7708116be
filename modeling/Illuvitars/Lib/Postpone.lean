import Mathlib.Data.List.Basic
import Illuvitars.Lib.Runs

/-!
# Steps that can wait

Some labels of a transition system are late: a step with one of them and a step with another label after it can be
exchanged. Then a run can make all its late steps at the end (`Run.postpone`), without changing the order of the others
or that of the late ones.
-/

namespace Lts

variable {σ ι : Type} {step : σ → ι → σ → Prop}

/-- A late step and another one after it can be exchanged. -/
def Waits (step : σ → ι → σ → Prop) (late : ι → Bool) : Prop :=
  ∀ {s i t j u}, late i = true → late j = false → step s i t → step t j u → ∃ t', step s j t' ∧ step t' i u

variable {late : ι → Bool} {s t u : σ} {i : ι} {is : List ι}

/-- A late step waits for a run of other steps. -/
theorem Waits.run (h : Waits step late) (hi : late i = true) (hs : step s i t) (hr : Run step t is u)
    (his : ∀ j ∈ is, late j = false) : ∃ t', Run step s is t' ∧ step t' i u := by
  induction hr generalizing s with
  | nil => exact ⟨s, .nil s, hs⟩
  | cons h1 _ ih =>
    obtain ⟨s', hs', hlate⟩ := h hi (his _ List.mem_cons_self) hs h1
    obtain ⟨t', ht', hu⟩ := ih hlate fun j hj => his j (List.mem_cons_of_mem _ hj)
    exact ⟨t', .cons hs' ht', hu⟩

/-- **All late steps at the end.** -/
theorem Run.postpone (h : Waits step late) (hr : Run step s is u) :
    ∃ t, Run step s (is.filter fun i => !late i) t ∧ Run step t (is.filter late) u := by
  induction hr with
  | nil s => exact ⟨s, .nil s, .nil s⟩
  | @cons s t u i is h1 _ ih =>
    obtain ⟨v, hv, hu⟩ := ih
    cases hi : late i with
    | true =>
      obtain ⟨v', hv', hlate⟩ := h.run hi h1 hv fun j hj => by simpa using (List.mem_filter.1 hj).2
      refine ⟨v', ?_, ?_⟩
      · simpa [hi] using hv'
      · simpa [hi] using Run.cons hlate hu
    | false =>
      refine ⟨v, ?_, ?_⟩
      · simpa [hi] using Run.cons h1 hv
      · simpa [hi] using hu

end Lts
