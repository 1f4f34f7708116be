import Illuvitars.Lib.Chances

/-!
# Sequences of draws

A sequence of draws from one number: each takes the remainder by its number of choices, and leaves the quotient to the
next. The outcomes that are wanted of each draw may be any predicate.

* `hits_periodic`: whether a number hits depends only on its remainder by the product of all choices;
* `count_hits`, `card_hits`: the draws are independent and uniform, in any block of whole periods.
-/

namespace Chances

/-- A draw: the number of choices, and those that are wanted. -/
structure Draw where
  choices : ℕ
  wanted : ℕ → Prop
  decidable : DecidablePred wanted

attribute [instance] Draw.decidable

namespace Draw

/-- The draw of one choice. -/
def one (choices x : ℕ) : Draw := ⟨choices, (· = x), inferInstance⟩

/-- A draw whose outcome does not matter. -/
def any (choices : ℕ) : Draw := ⟨choices, fun _ => True, inferInstance⟩

/-- How many choices are wanted. -/
def weight (d : Draw) : ℕ := Nat.count d.wanted d.choices

@[simp] theorem weight_one {choices x : ℕ} (h : x < choices) : (one choices x).weight = 1 := by
  have hcount : Nat.count (fun y => y = x) choices = Nat.count (fun y => x ≤ y ∧ y < x + 1) choices :=
    count_congr fun y _ => by omega
  rw [weight, one, hcount, count_interval (by omega)]
  omega

@[simp] theorem weight_any (choices : ℕ) : (any choices).weight = choices := Nat.count_true choices

end Draw

/-- The draws of a number have wanted outcomes. -/
def Hits : List Draw → ℕ → Prop
  | [], _ => True
  | d :: ds, r => d.wanted (r % d.choices) ∧ Hits ds (r / d.choices)

instance decidableHits : (ds : List Draw) → DecidablePred (Hits ds)
  | [], _ => inferInstanceAs (Decidable True)
  | d :: ds, r =>
    have := decidableHits ds (r / d.choices)
    inferInstanceAs (Decidable (d.wanted (r % d.choices) ∧ Hits ds (r / d.choices)))

/-- The product of all choices. -/
def period (ds : List Draw) : ℕ := (ds.map Draw.choices).prod

@[simp] theorem hits_nil (r : ℕ) : Hits [] r ↔ True := Iff.rfl

@[simp] theorem hits_cons (d : Draw) (ds : List Draw) (r : ℕ) :
    Hits (d :: ds) r ↔ d.wanted (r % d.choices) ∧ Hits ds (r / d.choices) := Iff.rfl

@[simp] theorem period_nil : period [] = 1 := rfl

@[simp] theorem period_cons (d : Draw) (ds : List Draw) : period (d :: ds) = d.choices * period ds := by
  rw [period, List.map_cons, List.prod_cons, period]

variable {ds : List Draw}

theorem period_pos (h : ∀ d ∈ ds, 0 < d.choices) : 0 < period ds := by
  induction ds with
  | nil => exact Nat.one_pos
  | cons d ds ih =>
    rw [period_cons]
    exact Nat.mul_pos (h d List.mem_cons_self) (ih fun e he => h e (List.mem_cons_of_mem d he))

/-- Adding a period changes no draw. -/
theorem hits_periodic (h : ∀ d ∈ ds, 0 < d.choices) : Function.Periodic (Hits ds) (period ds) := by
  induction ds with
  | nil => exact fun _ => rfl
  | cons d ds ih =>
    intro r
    have hd := h d List.mem_cons_self
    have ih := ih (fun e he => h e (List.mem_cons_of_mem d he)) (r / d.choices)
    rw [eq_iff_iff] at ih ⊢
    rw [hits_cons, hits_cons, period_cons, Nat.add_mul_mod_self_left, Nat.add_mul_div_left _ _ hd, ih]

/-- **In a period the draws are independent and uniform.** -/
theorem count_hits (h : ∀ d ∈ ds, 0 < d.choices) : Nat.count (Hits ds) (period ds) = (ds.map Draw.weight).prod := by
  induction ds with
  | nil => rfl
  | cons d ds ih =>
    have hd := h d List.mem_cons_self
    have ih := ih fun e he => h e (List.mem_cons_of_mem d he)
    have hdraws := count_draws (A := d.wanted) (C := Hits ds) hd (period ds)
    rw [period_cons, List.map_cons, List.prod_cons, ← ih, Draw.weight, ← hdraws]
    exact count_congr fun _ _ => Iff.rfl

/-- **In any block of `k` periods** every outcome is `k` times as frequent. -/
theorem card_hits (h : ∀ d ∈ ds, 0 < d.choices) (n k : ℕ) :
    ((Finset.Ico n (n + period ds * k)).filter (Hits ds)).card = (ds.map Draw.weight).prod * k := by
  have hperiodic : Function.Periodic (Hits ds) (period ds * k) := by
    intro r
    rw [Nat.mul_comm]
    exact (hits_periodic h).nat_mul k r
  have hmod : ∀ r, Hits ds (r % period ds) ↔ Hits ds r := fun r => iff_of_eq ((hits_periodic h).map_mod_nat r)
  have hcount : Nat.count (Hits ds) (period ds * k) = Nat.count (Hits ds) (period ds) * k := by
    have hdraws := count_draws (A := Hits ds) (C := fun _ => True) (period_pos h) k
    rw [Nat.count_true] at hdraws
    rw [← hdraws]
    exact count_congr fun r _ => by rw [hmod, and_true]
  rw [Nat.filter_Ico_card_eq_of_periodic n _ _ hperiodic, hcount, count_hits h]

end Chances
