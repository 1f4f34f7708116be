import Mathlib.Data.List.GetD
import Mathlib.Data.Nat.Count
import Mathlib.Data.Nat.Periodic

/-!
# Chances

Draws from a number by repeated division, and cumulative tables of chances.

* `card_draws`: in a block of `m * k` consecutive numbers the pairs of draws `r % m` and `r / m % k` are independent and
  uniform;
* `rank cs x` is the number of entries of the table that `x` has passed, which a search for the first entry above `x`
  finds (`rank_of_findIdx?_some`, `rank_of_findIdx?_none`, `findIdx?_eq_rank`);
* `count_rank`: the draws with a rank are as many as its width, the difference of consecutive entries of the table.
-/

namespace Chances

/-! ## Independent draws -/

section Draws

variable {A B C : ℕ → Prop} [DecidablePred A] [DecidablePred B] [DecidablePred C]

theorem count_congr {n : ℕ} (h : ∀ x < n, A x ↔ B x) : Nat.count A n = Nat.count B n :=
  le_antisymm (Nat.count_mono_left fun x hx => (h x hx).1) (Nat.count_mono_left fun x hx => (h x hx).2)

/-- The numbers below `m * k` are the pairs of their two draws. -/
theorem count_draws {m : ℕ} (hm : 0 < m) (k : ℕ) :
    Nat.count (fun r => A (r % m) ∧ C (r / m)) (m * k) = Nat.count A m * Nat.count C k := by
  induction k with
  | zero => simp
  | succ k ih =>
    -- the last `m` numbers have the second draw `k`
    have hlast : Nat.count (fun j => A ((m * k + j) % m) ∧ C ((m * k + j) / m)) m =
        Nat.count (fun j => A j ∧ C k) m := by
      refine count_congr fun j hj => ?_
      rw [Nat.mul_add_mod, Nat.mod_eq_of_lt hj, Nat.mul_add_div hm, Nat.div_eq_of_lt hj, Nat.add_zero]
    rw [Nat.mul_succ, Nat.count_add, ih, hlast, Nat.count_succ, Nat.mul_add]
    by_cases hk : C k
    · simp [hk]
    · simp [hk]

/-- **In a block of `m * k` numbers the two draws are independent and uniform.** -/
theorem card_draws {m : ℕ} (hm : 0 < m) (k n : ℕ) :
    ((Finset.Ico n (n + m * k)).filter (fun r => A (r % m) ∧ C (r / m % k))).card =
      Nat.count A m * Nat.count C k := by
  have hperiodic : Function.Periodic (fun r => A (r % m) ∧ C (r / m % k)) (m * k) := by
    intro r
    simp only [Nat.add_mul_mod_self_left, Nat.add_mul_div_left r k hm, Nat.add_mod_right]
  rw [Nat.filter_Ico_card_eq_of_periodic n _ _ hperiodic, ← count_draws hm]
  refine count_congr fun r hr => ?_
  rw [Nat.mod_eq_of_lt (Nat.div_lt_of_lt_mul hr)]

/-- The numbers of an interval. -/
theorem count_interval {a b n : ℕ} (hb : b ≤ n) : Nat.count (fun x => a ≤ x ∧ x < b) n = b - a := by
  have hIco : (Finset.range n).filter (fun x => a ≤ x ∧ x < b) = Finset.Ico a b := by
    ext x
    simp only [Finset.mem_filter, Finset.mem_range, Finset.mem_Ico]
    omega
  rw [Nat.count_eq_card_filter_range, hIco, Nat.card_Ico]

/-- A residue occurs once in every `m` numbers of an interval of whole periods. -/
theorem count_residue {m i a b k : ℕ} (hi : i < m) (hb : b ≤ k) :
    Nat.count (fun x => x % m = i ∧ m * a ≤ x ∧ x < m * b) (m * k) = b - a := by
  have hm : 0 < m := Nat.zero_lt_of_lt hi
  have hdiv : ∀ x, (x % m = i ∧ m * a ≤ x ∧ x < m * b) ↔ x % m = i ∧ a ≤ x / m ∧ x / m < b := by
    intro x
    rw [Nat.le_div_iff_mul_le hm, Nat.div_lt_iff_lt_mul hm, Nat.mul_comm a m, Nat.mul_comm b m]
  have hone : Nat.count (fun x => x = i) m = 1 := by
    rw [count_congr (B := fun x => i ≤ x ∧ x < i + 1) fun x _ => by omega, count_interval (by omega)]
    omega
  simp only [hdiv]
  rw [count_draws (A := fun x => x = i) (C := fun x => a ≤ x ∧ x < b) hm, hone, count_interval hb, Nat.one_mul]

end Draws

/-! ## Cumulative tables -/

/-- The number of entries that are not above `x`. -/
def rank (cs : List ℕ) (x : ℕ) : ℕ := cs.countP (· ≤ x)

/-- The width of rank `k` in a table of chances out of `N`: its entries are closed by `0` and `N`. -/
def width (N : ℕ) (cs : List ℕ) (k : ℕ) : ℕ := (cs ++ [N]).getD k N - (0 :: cs).getD k N

variable {cs : List ℕ} {x k N : ℕ}

theorem rank_le_length : rank cs x ≤ cs.length := List.countP_le_length

/-- An entry in front that is not above `x` adds one to its rank, -/
theorem rank_cons_of_le {c : ℕ} (h : c ≤ x) : rank (c :: cs) x = rank cs x + 1 :=
  List.countP_cons_of_pos (by simpa using h)

/-- an entry behind that is above `x` adds nothing, -/
theorem rank_concat_of_lt {c : ℕ} (h : x < c) : rank (cs ++ [c]) x = rank cs x := by
  rw [rank, List.countP_append, rank, List.countP_cons_of_neg (by simpa using h), List.countP_nil, Nat.add_zero]

/-- and a table in a finer unit has the ranks of the rough one. -/
theorem rank_map_mul {m : ℕ} (hm : 0 < m) : rank (cs.map (· * m)) x = rank cs (x / m) := by
  rw [rank, List.countP_map, rank]
  refine List.countP_congr fun c _ => ?_
  simp only [Function.comp_apply, decide_eq_true_eq, Nat.le_div_iff_mul_le hm]

/-- In an ascending table the entries not above `x` come first. -/
theorem lt_rank_iff (h : cs.Pairwise (· ≤ ·)) : k < rank cs x ↔ ∃ c, cs[k]? = some c ∧ c ≤ x := by
  induction cs generalizing k with
  | nil => simp [rank]
  | cons c cs ih =>
    obtain ⟨hc, hcs⟩ := List.pairwise_cons.1 h
    by_cases hx : c ≤ x
    · have hrank : rank (c :: cs) x = rank cs x + 1 := rank_cons_of_le hx
      cases k with
      | zero => simp [hrank, hx]
      | succ k => rw [hrank, Nat.add_lt_add_iff_right, ih hcs, List.getElem?_cons_succ]
    · have hrank : rank (c :: cs) x = 0 := by
        refine List.countP_eq_zero.2 fun d hd => ?_
        rcases List.mem_cons.1 hd with rfl | hd
        · simpa using hx
        · have := hc d hd
          simp only [decide_eq_true_eq]
          omega
      refine iff_of_false (by omega) ?_
      rintro ⟨d, hd, hdx⟩
      rcases List.mem_cons.1 (List.mem_of_getElem? hd) with rfl | hd
      · exact hx hdx
      · exact hx (le_trans (hc d hd) hdx)

/-- A search that finds nothing has passed all entries. -/
theorem rank_of_findIdx?_none (h : cs.findIdx? (fun c => decide (x < c)) = none) : rank cs x = cs.length := by
  refine List.countP_eq_length.2 fun c hc => ?_
  simpa using List.findIdx?_eq_none_iff.1 h c hc

/-- A search for the first entry above `x` finds its rank. -/
theorem rank_of_findIdx?_some (hcs : cs.Pairwise (· ≤ ·)) (h : cs.findIdx? (fun c => decide (x < c)) = some k) :
    rank cs x = k := by
  obtain ⟨hk, hgt, hle⟩ := List.findIdx?_eq_some_iff_getElem.1 h
  refine Nat.le_antisymm ?_ ?_
  · by_contra hlt
    obtain ⟨c, hc, hcx⟩ := (lt_rank_iff hcs).1 (Nat.lt_of_not_le hlt)
    rw [List.getElem?_eq_getElem hk] at hc
    cases hc
    simp only [decide_eq_true_eq] at hgt
    omega
  · by_contra hlt
    have hlt : rank cs x < k := Nat.lt_of_not_le hlt
    refine absurd ((lt_rank_iff hcs).2 ⟨cs[rank cs x], List.getElem?_eq_getElem (by omega), ?_⟩) (lt_irrefl _)
    have := hle (rank cs x) hlt
    simpa using this

/-- A search in a table with an entry above `x` finds the rank of `x`. -/
theorem findIdx?_eq_rank (hcs : cs.Pairwise (· ≤ ·)) {c : ℕ} (hc : c ∈ cs) (hx : x < c) :
    cs.findIdx? (fun c => decide (x < c)) = some (rank cs x) := by
  cases hf : cs.findIdx? (fun c => decide (x < c)) with
  | some k => rw [rank_of_findIdx?_some hcs hf]
  | none =>
    have := List.findIdx?_eq_none_iff.1 hf c hc
    simp only [decide_eq_false_iff_not] at this
    exact absurd hx this

/-- The entry before a rank. -/
theorem before_le_iff (hcs : cs.Pairwise (· ≤ ·)) (hk : k ≤ cs.length) :
    (0 :: cs).getD k N ≤ x ↔ k ≤ rank cs x := by
  cases k with
  | zero => simp
  | succ k =>
    have hget : cs[k]? = some cs[k] := List.getElem?_eq_getElem hk
    rw [List.getD_cons_succ, List.getD_eq_getElem?_getD, hget, Option.getD_some, Nat.succ_le_iff, lt_rank_iff hcs, hget]
    simp

/-- The entry behind a rank. -/
theorem lt_behind_iff (hcs : cs.Pairwise (· ≤ ·)) (hx : x < N) :
    x < (cs ++ [N]).getD k N ↔ rank cs x ≤ k := by
  rcases Nat.lt_or_ge k cs.length with hk | hk
  · have hget : cs[k]? = some cs[k] := List.getElem?_eq_getElem hk
    have hrank : k < rank cs x ↔ cs[k] ≤ x := by
      rw [lt_rank_iff hcs, hget]
      simp
    rw [List.getD_append _ _ _ _ hk, List.getD_eq_getElem?_getD, hget, Option.getD_some]
    omega
  · have hlast : (cs ++ [N]).getD k N = N := by
      rw [List.getD_append_right _ _ _ _ hk]
      cases k - cs.length with
      | zero => rfl
      | succ n => rfl
    have hle : rank cs x ≤ cs.length := rank_le_length
    rw [hlast]
    exact iff_of_true hx (by omega)

/-- **The draws of a rank are as many as its width.** -/
theorem count_rank (hcs : cs.Pairwise (· ≤ ·)) (hN : ∀ c ∈ cs, c ≤ N) (hk : k ≤ cs.length) :
    Nat.count (fun x => rank cs x = k) N = width N cs k := by
  have hbehind : (cs ++ [N]).getD k N ≤ N := by
    rw [List.getD_eq_getElem?_getD]
    cases hc : (cs ++ [N])[k]? with
    | none => exact le_refl N
    | some c =>
      rcases List.mem_append.1 (List.mem_of_getElem? hc) with hc | hc
      · exact hN c hc
      · exact (List.mem_singleton.1 hc).le
  rw [width, ← count_interval hbehind]
  refine count_congr fun x hx => ?_
  rw [before_le_iff hcs hk, lt_behind_iff hcs hx]
  omega

end Chances
