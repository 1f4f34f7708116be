import Mathlib.Algebra.BigOperators.Group.List.Basic
import Illuvitars.Lib.Runs

/-!
# Journals of runs

The steps of a run write entries, and the journal of the run is all of them in order.

* `Journal`, `Run.journal`: runs with their journals;
* `Journal.exists_step`: every entry is written by a step;
* `Journal.balance`: a quantity that every step changes by what it books balances over runs;
* `replay`, `Journal.replay`: entries from which every step can be told tell the run;
* `exists_journal`: and the legal entries are those of runs.
-/

namespace Lts

variable {σ ι E : Type} {step : σ → ι → σ → Prop} {entries : σ → ι → σ → List E → Prop}

/-- A run with the entries of its steps. -/
inductive Journal (step : σ → ι → σ → Prop) (entries : σ → ι → σ → List E → Prop) :
    σ → List ι → σ → List E → Prop
  | nil (s : σ) : Journal step entries s [] s []
  | cons {s t u : σ} {i : ι} {is : List ι} {es fs : List E} : step s i t → entries s i t es →
      Journal step entries t is u fs → Journal step entries s (i :: is) u (es ++ fs)

variable {s t u : σ} {is js : List ι} {es : List E}

theorem Journal.run (h : Journal step entries s is t es) : Run step s is t := by
  induction h with
  | nil => exact .nil _
  | cons hs _ _ ih => exact .cons hs ih

/-- A run whose steps all write something has a journal. -/
theorem Run.journal {I : σ → Prop} {P : ι → Prop} (hI : ∀ {s i t}, I s → step s i t → I t)
    (hentries : ∀ {s i t}, P i → I s → step s i t → ∃ es, entries s i t es) (h : Run step s is t)
    (hP : ∀ i ∈ is, P i) (hs : I s) : ∃ es, Journal step entries s is t es := by
  induction h with
  | nil => exact ⟨[], .nil _⟩
  | cons h1 _ ih =>
    obtain ⟨es, hes⟩ := hentries (hP _ List.mem_cons_self) hs h1
    obtain ⟨fs, hfs⟩ := ih (fun i hi => hP i (List.mem_cons_of_mem _ hi)) (hI hs h1)
    exact ⟨es ++ fs, .cons h1 hes hfs⟩

/-- Every entry is written by a step of the run. -/
theorem Journal.exists_step (h : Journal step entries s is t es) {e : E} (he : e ∈ es) :
    ∃ js u i u' ks fs, is = js ++ i :: ks ∧ Run step s js u ∧ step u i u' ∧ entries u i u' fs ∧ e ∈ fs ∧
      Run step u' ks t := by
  induction h with
  | nil => cases he
  | @cons s t u i is es fs h1 hes hr ih =>
    rcases List.mem_append.1 he with he | he
    · exact ⟨[], s, i, t, is, es, rfl, .nil s, h1, hes, he, hr.run⟩
    · obtain ⟨js, v, j, v', ks, gs, rfl, hjs, hj, hgs, hmem, hks⟩ := ih he
      exact ⟨i :: js, v, j, v', ks, gs, rfl, .cons h1 hjs, hj, hgs, hmem, hks⟩

/-- **Books that balance step by step balance over runs.** -/
theorem Journal.balance {B : Type} [AddCommMonoid B] (f : σ → B) (credit debit : E → B) {I : σ → Prop}
    (hI : ∀ {s i t}, I s → step s i t → I t)
    (hstep : ∀ {s i t es}, I s → step s i t → entries s i t es →
      f t + (es.map debit).sum = f s + (es.map credit).sum)
    (h : Journal step entries s is t es) (hs : I s) : f t + (es.map debit).sum = f s + (es.map credit).sum := by
  induction h with
  | nil => rfl
  | @cons s t u i is es fs h1 hes _ ih =>
    have hhead := hstep hs h1 hes
    have htail := ih (hI hs h1)
    simp only [List.map_append, List.sum_append]
    calc f u + ((es.map debit).sum + (fs.map debit).sum)
        = (f u + (fs.map debit).sum) + (es.map debit).sum := by rw [add_comm (es.map debit).sum, add_assoc]
      _ = (f t + (fs.map credit).sum) + (es.map debit).sum := by rw [htail]
      _ = (f t + (es.map debit).sum) + (fs.map credit).sum := add_right_comm _ _ _
      _ = f s + ((es.map credit).sum + (fs.map credit).sum) := by rw [hhead, add_assoc]

/-! ## Replay -/

/-- The state read off a list of entries, if all of them are legal. -/
def replay {ν : Type} (apply : ν → E → Option ν) : ν → List E → Option ν
  | v, [] => some v
  | v, e :: es => (apply v e).bind fun v => replay apply v es

variable {ν : Type} {apply : ν → E → Option ν}

theorem replay_append (v : ν) (es fs : List E) :
    replay apply v (es ++ fs) = (replay apply v es).bind fun v => replay apply v fs := by
  induction es generalizing v with
  | nil => rfl
  | cons e es ih =>
    rw [List.cons_append, replay, replay]
    cases apply v e with
    | none => rfl
    | some v' => exact ih v'

/-- **A journal tells what its run does to a view**, if each step can be told from its entries. -/
theorem Journal.replay (view : σ → ν) {I : σ → Prop} (hI : ∀ {s i t}, I s → step s i t → I t)
    (hstep : ∀ {s i t es}, I s → step s i t → entries s i t es → Lts.replay apply (view s) es = some (view t))
    (h : Journal step entries s is t es) (hs : I s) : Lts.replay apply (view s) es = some (view t) := by
  induction h with
  | nil => rfl
  | cons h1 hes _ ih => rw [replay_append, hstep hs h1 hes, Option.bind_some, ih (hI hs h1)]

/-- **Legal entries are the journal of a run**, if each legal entry alone is what some step writes. -/
theorem exists_journal (view : σ → ν)
    (hstep : ∀ {s e v}, apply (view s) e = some v → ∃ i t, step s i t ∧ entries s i t [e] ∧ view t = v) :
    ∀ {es : List E} {s : σ} {v : ν}, Lts.replay apply (view s) es = some v →
      ∃ is t, Journal step entries s is t es ∧ view t = v
  | [], s, _, h => ⟨[], s, .nil s, Option.some.inj h⟩
  | e :: es, s, v, h => by
    obtain ⟨v', he, hes⟩ := Option.bind_eq_some_iff.1 h
    obtain ⟨i, t, hs, hw, rfl⟩ := hstep he
    obtain ⟨is, u, hrun, hu⟩ := exists_journal view hstep hes
    exact ⟨i :: is, u, .cons hs hw hrun, hu⟩

end Lts
