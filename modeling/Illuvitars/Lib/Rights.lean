import Mathlib.Data.Set.Basic
import Illuvitars.Lib.Runs

/-!
# Rights that only their holders change

Accounts hold sets of rights and change each other's rights. The one rule is that an account can only add or remove
rights that it holds itself (`ChangedWithin`). Then a coalition is confined, whatever its members do for each other:

* `Run.rights_unchanged`: a right that no member holds is unchanged for every account;
* `Run.guarded_unchanged`: a quantity that only holders of such a right can change is unchanged.
-/

namespace Rights

open Lts

variable {A P σ ι α : Type}

/-- From `r` to `r'` only rights that `a` holds have been added or removed. -/
def ChangedWithin (a : A) (r r' : A → Set P) : Prop := ∀ p, p ∉ r a → ∀ x, p ∈ r' x ↔ p ∈ r x

/-- No member of the coalition holds the right. -/
def Lacks (S : Set A) (p : P) (r : A → Set P) : Prop := ∀ a ∈ S, p ∉ r a

variable {a : A} {r r' : A → Set P} {S : Set A} {p : P}

theorem ChangedWithin.refl (a : A) (r : A → Set P) : ChangedWithin a r r := fun _ _ _ => Iff.rfl

/-- A change by a member does not give the coalition a right that it lacks. -/
theorem Lacks.changed (hp : Lacks S p r) (ha : a ∈ S) (h : ChangedWithin a r r') : Lacks S p r' := by
  intro b hb hb'
  exact hp b hb ((h p (hp a ha) b).1 hb')

/-! ## Runs of a coalition -/

section Runs

variable {step : σ → ι → σ → Prop} (actor : ι → A) {rights : σ → A → Set P} {s t : σ} {is : List ι}

/-- **A right that no member of the coalition holds is unchanged** for every account, and no member comes to hold it. -/
theorem Run.rights_unchanged (h : Run step s is t)
    (hstep : ∀ {s i t}, step s i t → ChangedWithin (actor i) (rights s) (rights t))
    (hS : ∀ i ∈ is, actor i ∈ S) (hp : Lacks S p (rights s)) :
    Lacks S p (rights t) ∧ ∀ x, p ∈ rights t x ↔ p ∈ rights s x := by
  refine h.invariant (P := fun i => actor i ∈ S)
    (I := fun u => Lacks S p (rights u) ∧ ∀ x, p ∈ rights u x ↔ p ∈ rights s x) ?_ hS ⟨hp, fun _ => Iff.rfl⟩
  intro u i v hi hu huv
  obtain ⟨hlacks, hsame⟩ := hu
  have hchange := hstep huv
  refine ⟨hlacks.changed hi hchange, fun x => ?_⟩
  exact (hchange p (hlacks _ hi) x).trans (hsame x)

/-- **A quantity that only holders of a right can change is unchanged** if no member of the coalition holds the
right. -/
theorem Run.guarded_unchanged {f : σ → α} (h : Run step s is t)
    (hstep : ∀ {s i t}, step s i t → ChangedWithin (actor i) (rights s) (rights t))
    (hguard : ∀ {s i t}, p ∉ rights s (actor i) → step s i t → f t = f s) (hS : ∀ i ∈ is, actor i ∈ S)
    (hp : Lacks S p (rights s)) : f t = f s := by
  have hI := h.invariant (P := fun i => actor i ∈ S) (I := fun u => Lacks S p (rights u) ∧ f u = f s) ?_ hS ⟨hp, rfl⟩
  · exact hI.2
  · intro u i v hi hu huv
    obtain ⟨hlacks, hsame⟩ := hu
    exact ⟨hlacks.changed hi (hstep huv), (hguard (hlacks _ hi) huv).trans hsame⟩

end Runs

end Rights
