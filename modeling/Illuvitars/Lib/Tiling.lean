import Mathlib.Algebra.Order.Monoid.Canonical.Defs
import Mathlib.Algebra.BigOperators.Group.List.Basic
import Mathlib.Data.List.Pairwise
import Mathlib.Data.Nat.ModEq
import Mathlib.Order.CompletePartialOrder
import Mathlib.Order.Interval.Set.Basic
import Mathlib.Order.Interval.Set.Disjoint

/-!
# Consecutive blocks

A counter that hands out blocks of consecutive numbers: a block is a start and a size, and `Tiles a bs b` says that the
blocks `bs`, in order, lead the counter from `a` to `b`. Then they are pairwise disjoint (`Tiles.pairwise`), they cover
exactly the numbers from `a` up to `b` (`Tiles.mem_Ico`), and every start is congruent to `a` modulo a common divisor of
the sizes (`Tiles.modEq`).
-/

namespace Tiling

variable {α : Type} [AddCommMonoid α]

/-- The blocks, in order, lead from `a` to `b`. -/
def Tiles : α → List (α × α) → α → Prop
  | a, [], b => a = b
  | a, (s, n) :: bs, b => s = a ∧ Tiles (a + n) bs b

@[simp] theorem tiles_nil {a b : α} : Tiles a [] b ↔ a = b := Iff.rfl

@[simp] theorem tiles_cons {a b s n : α} {bs : List (α × α)} :
    Tiles a ((s, n) :: bs) b ↔ s = a ∧ Tiles (a + n) bs b := Iff.rfl

/-- One more block at the counter. -/
theorem Tiles.snoc {a b n : α} {bs : List (α × α)} (h : Tiles a bs b) : Tiles a (bs ++ [(b, n)]) (b + n) := by
  induction bs generalizing a with
  | nil =>
    rw [tiles_nil] at h
    simp [h]
  | cons p bs ih => exact ⟨h.1, ih h.2⟩

/-- The counter is the first number plus the sizes. -/
theorem Tiles.eq_add_sum {a b : α} {bs : List (α × α)} (h : Tiles a bs b) : b = a + (bs.map Prod.snd).sum := by
  induction bs generalizing a with
  | nil =>
    rw [tiles_nil] at h
    simp [h]
  | cons p bs ih => rw [ih h.2, List.map_cons, List.sum_cons, add_assoc]

variable [LinearOrder α] [CanonicallyOrderedAdd α]

/-- The numbers of a block. -/
def block (p : α × α) : Set α := Set.Ico p.1 (p.1 + p.2)

/-- The counter only grows. -/
theorem Tiles.le {a b : α} {bs : List (α × α)} (h : Tiles a bs b) : a ≤ b := by
  rw [h.eq_add_sum]
  exact le_self_add

/-- Every block starts at or after the first number. -/
theorem Tiles.start_le {a b : α} {bs : List (α × α)} (h : Tiles a bs b) : ∀ p ∈ bs, a ≤ p.1 := by
  induction bs generalizing a with
  | nil => simp
  | cons q bs ih =>
    intro p hp
    rcases List.mem_cons.1 hp with rfl | hp
    · exact le_of_eq h.1.symm
    · exact le_trans le_self_add (ih h.2 p hp)

/-- Every block ends at or before the counter. -/
theorem Tiles.end_le {a b : α} {bs : List (α × α)} (h : Tiles a bs b) : ∀ p ∈ bs, p.1 + p.2 ≤ b := by
  induction bs generalizing a with
  | nil => simp
  | cons q bs ih =>
    intro p hp
    rcases List.mem_cons.1 hp with rfl | hp
    · rw [h.1]
      exact h.2.le
    · exact ih h.2 p hp

/-- Every block ends before its successors start. -/
theorem Tiles.ordered {a b : α} {bs : List (α × α)} (h : Tiles a bs b) :
    bs.Pairwise (fun p q => p.1 + p.2 ≤ q.1) := by
  induction bs generalizing a with
  | nil => exact List.Pairwise.nil
  | cons p bs ih =>
    refine List.Pairwise.cons ?_ (ih h.2)
    intro q hq
    rw [h.1]
    exact h.2.start_le q hq

/-- The blocks are pairwise disjoint. -/
theorem Tiles.pairwise {a b : α} {bs : List (α × α)} (h : Tiles a bs b) :
    bs.Pairwise (fun p q => Disjoint (block p) (block q)) :=
  h.ordered.imp (fun hpq => Set.disjoint_left.2 fun _ hx hy => absurd (lt_of_lt_of_le hx.2 hpq) (not_lt.2 hy.1))

/-- The blocks cover exactly the numbers from `a` up to `b`. -/
theorem Tiles.mem_Ico {a b x : α} {bs : List (α × α)} (h : Tiles a bs b) :
    x ∈ Set.Ico a b ↔ ∃ p ∈ bs, x ∈ block p := by
  induction bs generalizing a with
  | nil =>
    rw [tiles_nil] at h
    simp [h]
  | cons q bs ih =>
    obtain ⟨s, n⟩ := q
    obtain ⟨rfl, h⟩ := h
    have ih := ih h
    constructor
    · intro hx
      rcases lt_or_ge x (s + n) with hlt | hge
      · exact ⟨(s, n), List.mem_cons_self, hx.1, hlt⟩
      · obtain ⟨p, hp, hxp⟩ := ih.1 ⟨hge, hx.2⟩
        exact ⟨p, List.mem_cons_of_mem _ hp, hxp⟩
    · rintro ⟨p, hp, hxp⟩
      rcases List.mem_cons.1 hp with rfl | hp
      · exact ⟨hxp.1, lt_of_lt_of_le hxp.2 h.le⟩
      · have hx := ih.2 ⟨p, hp, hxp⟩
        exact ⟨le_trans le_self_add hx.1, hx.2⟩

/-- If `m` divides every size, every start is congruent to the first number modulo `m`. -/
theorem Tiles.modEq {m a b : ℕ} {bs : List (ℕ × ℕ)} (h : Tiles a bs b) (hm : ∀ p ∈ bs, m ∣ p.2) :
    ∀ p ∈ bs, p.1 ≡ a [MOD m] := by
  induction bs generalizing a with
  | nil => simp
  | cons q bs ih =>
    intro p hp
    rcases List.mem_cons.1 hp with rfl | hp
    · rw [h.1]
    · have hstart := ih h.2 (fun q hq => hm q (List.mem_cons_of_mem _ hq)) p hp
      have hsize : q.2 ≡ 0 [MOD m] := (Nat.modEq_zero_iff_dvd).2 (hm q List.mem_cons_self)
      exact hstart.trans (by simpa using (Nat.ModEq.refl a).add hsize)

/-! ## Blocks of keys -/

section Keys

variable {κ : Type} {keys : List κ} {f : κ → α × α} {a b : α}

/-- The blocks of different keys are disjoint. -/
theorem Tiles.disjoint_of_ne (h : Tiles a (keys.map f) b) {k k' : κ} (hk : k ∈ keys) (hk' : k' ∈ keys)
    (hne : k ≠ k') : Disjoint (block (f k)) (block (f k')) := by
  have hp := List.pairwise_map.1 h.pairwise
  have hsymm : Std.Symm (fun k k' => Disjoint (block (f k)) (block (f k'))) := ⟨fun _ _ h => h.symm⟩
  exact hp.forall hk hk' hne

/-- The blocks of the keys cover exactly the numbers handed out. -/
theorem Tiles.cover (h : Tiles a (keys.map f) b) (x : α) : (a ≤ x ∧ x < b) ↔ ∃ k ∈ keys, x ∈ block (f k) := by
  have hm := h.mem_Ico (x := x)
  rw [Set.mem_Ico] at hm
  rw [hm]
  constructor
  · rintro ⟨p, hp, hx⟩
    obtain ⟨k, hk, rfl⟩ := List.mem_map.1 hp
    exact ⟨k, hk, hx⟩
  · rintro ⟨k, hk, hx⟩
    exact ⟨f k, List.mem_map_of_mem hk, hx⟩

end Keys

end Tiling
