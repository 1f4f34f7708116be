import Mathlib.Data.Finset.Piecewise
import Mathlib.Data.Fintype.Basic
import Mathlib.Data.Fintype.EquivFin
import Mathlib.Data.Set.Finite.Basic
import Illuvitars.Lib.Rights

/-!
# What a coalition can reach

`Rights` says what a coalition cannot change. Here the accounts that hold the right `g` set the rights of any account,
each one on the rights that it holds itself (`Move`), and the members of a coalition do so one after the other.

* `Reach.collect`: a member that may set rights can come to hold every right of the coalition, and nobody loses any;
* `Reach.piecewise`: from there it decides on all these rights of every other account;
* `reach_iff`: so a coalition reaches exactly the assignments that keep the rights which no member holds.
-/

namespace Rights

open Lts

variable {A P : Type} [DecidableEq A]

/-- An account sets the rights of another one. -/
structure Move (A P : Type) where
  actor : A
  target : A
  desired : Set P

/-- The actor decides on the rights that it holds, the target keeps the others. -/
def Move.apply (m : Move A P) (r : A → Set P) : A → Set P :=
  Function.update r m.target {p | (p ∈ r m.actor ∧ p ∈ m.desired) ∨ (p ∉ r m.actor ∧ p ∈ r m.target)}

/-- Only holders of `g` make moves. -/
def Sets (g : P) (r : A → Set P) (m : Move A P) (r' : A → Set P) : Prop := g ∈ r m.actor ∧ r' = m.apply r

/-- Moves by members of `S` lead from `r` to `r'`. -/
def Reach (g : P) (S : Set A) (r r' : A → Set P) : Prop :=
  ∃ ms, Run (Sets g) r ms r' ∧ ∀ m ∈ ms, m.actor ∈ S

variable {m : Move A P} {r r' r'' F : A → Set P} {S : Set A} {a b x : A} {g p : P}

/-! ## One move -/

theorem Move.mem_apply_self :
    p ∈ m.apply r m.target ↔ (p ∈ r m.actor ∧ p ∈ m.desired) ∨ (p ∉ r m.actor ∧ p ∈ r m.target) := by
  rw [Move.apply, Function.update_self, Set.mem_ofPred_eq]

theorem Move.apply_of_ne (hx : x ≠ m.target) : m.apply r x = r x := by
  rw [Move.apply, Function.update_of_ne hx]

/-- A move changes only rights that its actor holds. -/
theorem Move.changedWithin (m : Move A P) (r : A → Set P) : ChangedWithin m.actor r (m.apply r) := by
  intro p hp x
  by_cases hx : x = m.target
  · subst hx
    rw [Move.mem_apply_self]
    simp [hp]
  · rw [Move.apply_of_ne hx]

/-- Where the actor holds all rights in question, the target gets what is desired. -/
theorem Move.apply_eq (h : ∀ p, p ∉ r m.actor → (p ∈ m.desired ↔ p ∈ r m.target)) :
    m.apply r = Function.update r m.target m.desired := by
  have hset : {p | (p ∈ r m.actor ∧ p ∈ m.desired) ∨ (p ∉ r m.actor ∧ p ∈ r m.target)} = m.desired := by
    ext p
    have := h p
    by_cases hp : p ∈ r m.actor <;> simp_all
  rw [Move.apply, hset]

/-- A move that desires all that the target has takes nothing away. -/
theorem Move.le_apply (h : r m.target ⊆ m.desired) (x : A) : r x ⊆ m.apply r x := by
  intro p hp
  by_cases hx : x = m.target
  · subst hx
    rw [Move.mem_apply_self]
    by_cases ha : p ∈ r m.actor
    · exact .inl ⟨ha, h hp⟩
    · exact .inr ⟨ha, hp⟩
  · rwa [Move.apply_of_ne hx]

theorem Sets.changedWithin (h : Sets g r m r') : ChangedWithin m.actor r r' := by
  obtain ⟨-, rfl⟩ := h
  exact m.changedWithin r

/-! ## Moves one after the other -/

theorem Reach.refl (g : P) (S : Set A) (r : A → Set P) : Reach g S r r :=
  ⟨[], .nil r, fun _ h => absurd h List.not_mem_nil⟩

theorem Reach.trans (h : Reach g S r r') (h' : Reach g S r' r'') : Reach g S r r'' := by
  obtain ⟨ms, hrun, hms⟩ := h
  obtain ⟨ms', hrun', hms'⟩ := h'
  refine ⟨ms ++ ms', hrun.append hrun', ?_⟩
  intro m hm
  rcases List.mem_append.1 hm with hm | hm
  · exact hms m hm
  · exact hms' m hm

theorem Reach.move (ha : m.actor ∈ S) (hg : g ∈ r m.actor) : Reach g S r (m.apply r) := by
  refine ⟨[m], .cons ⟨hg, rfl⟩ (.nil _), ?_⟩
  intro n hn
  rwa [List.mem_singleton.1 hn]

/-- A member that may set rights can give a right that it holds, and nobody loses any. -/
theorem Reach.give (ha : a ∈ S) (hg : g ∈ r a) (hp : p ∈ r a) (b : A) :
    ∃ r', Reach g S r r' ∧ (∀ x, r x ⊆ r' x) ∧ p ∈ r' b := by
  let m : Move A P := ⟨a, b, insert p (r b)⟩
  refine ⟨m.apply r, Reach.move (m := m) ha hg, Move.le_apply (Set.subset_insert p (r b)), ?_⟩
  exact Move.mem_apply_self.2 (.inl ⟨hp, Set.mem_insert p (r b)⟩)

/-- **A member that may set rights can collect the rights of the coalition.** For each right, it first lets the member
that holds the right set rights as well. -/
theorem Reach.collect {Q : Set P} (hQ : Q.Finite) (ha : a ∈ S) (hg : g ∈ r a) (hheld : ∀ p ∈ Q, ¬Lacks S p r) :
    ∃ r', Reach g S r r' ∧ (∀ x, r x ⊆ r' x) ∧ Q ⊆ r' a := by
  induction Q, hQ using Set.Finite.induction_on with
  | empty => exact ⟨r, Reach.refl g S r, fun _ => subset_rfl, Set.empty_subset _⟩
  | @insert p Q _ _ ih =>
    obtain ⟨r₁, h₁, hle₁, hQ₁⟩ := ih (fun q hq => hheld q (Set.mem_insert_of_mem p hq))
    obtain ⟨b, hb, hpb⟩ : ∃ b ∈ S, p ∈ r b := by
      simpa [Lacks] using hheld p (Set.mem_insert p Q)
    obtain ⟨r₂, h₂, hle₂, hgb⟩ := Reach.give (S := S) ha (hle₁ a hg) (hle₁ a hg) b
    obtain ⟨r₃, h₃, hle₃, hpa⟩ := Reach.give (S := S) hb hgb (hle₂ b (hle₁ b hpb)) a
    refine ⟨r₃, (h₁.trans h₂).trans h₃, fun x => ((hle₁ x).trans (hle₂ x)).trans (hle₃ x), ?_⟩
    exact Set.insert_subset hpa ((hQ₁.trans (hle₂ a)).trans (hle₃ a))

/-- What a member holds, it can decide for every set of other accounts. -/
theorem Reach.piecewise (ha : a ∈ S) (hg : g ∈ r a) (hF : ∀ p, p ∉ r a → ∀ x, p ∈ F x ↔ p ∈ r x) (T : Finset A)
    (hT : a ∉ T) : Reach g S r (T.piecewise F r) := by
  induction T using Finset.induction_on with
  | empty => simpa using Reach.refl g S r
  | @insert x T hx ih =>
    rw [Finset.mem_insert, not_or] at hT
    have hself : T.piecewise F r a = r a := Finset.piecewise_eq_of_notMem T F r hT.2
    have hother : T.piecewise F r x = r x := Finset.piecewise_eq_of_notMem T F r hx
    let m : Move A P := ⟨a, x, F x⟩
    have hmove : Reach g S (T.piecewise F r) (m.apply (T.piecewise F r)) := Reach.move (m := m) ha (hself ▸ hg)
    have hset : m.apply (T.piecewise F r) = (insert x T).piecewise F r := by
      rw [Finset.piecewise_insert]
      refine Move.apply_eq ?_
      intro p hp
      rw [show m.actor = a from rfl, hself] at hp
      rw [show m.target = x from rfl, hother]
      exact hF p hp x
    rw [← hset]
    exact (ih hT.2).trans hmove

/-- What a member holds, it can decide for every account, its own rights last. -/
theorem Reach.settle [Finite A] (ha : a ∈ S) (hg : g ∈ r a) (hF : ∀ p, p ∉ r a → ∀ x, p ∈ F x ↔ p ∈ r x) :
    Reach g S r F := by
  have := Fintype.ofFinite A
  let T : Finset A := Finset.univ.erase a
  have hT : a ∉ T := Finset.notMem_erase a _
  have hself : T.piecewise F r a = r a := Finset.piecewise_eq_of_notMem T F r hT
  let m : Move A P := ⟨a, a, F a⟩
  have hmove : Reach g S (T.piecewise F r) (m.apply (T.piecewise F r)) := Reach.move (m := m) ha (hself ▸ hg)
  have hset : m.apply (T.piecewise F r) = F := by
    have hlast : m.apply (T.piecewise F r) = Function.update (T.piecewise F r) a (F a) := by
      refine Move.apply_eq ?_
      intro p hp
      rw [show m.actor = a from rfl, hself] at hp
      rw [show m.target = a from rfl, hself]
      exact hF p hp a
    rw [hlast, ← Finset.piecewise_insert, Finset.insert_erase (Finset.mem_univ a), Finset.piecewise_univ]
  have hall := (Reach.piecewise ha hg hF T hT).trans hmove
  rwa [hset] at hall

/-! ## The coalition -/

theorem Reach.unchanged (h : Reach g S r r') (hp : Lacks S p r) :
    Lacks S p r' ∧ ∀ x, p ∈ r' x ↔ p ∈ r x := by
  obtain ⟨ms, hrun, hms⟩ := h
  have hstep : ∀ {r : A → Set P} {m r'}, Sets g r m r' → ChangedWithin m.actor (id r) (id r') := Sets.changedWithin
  exact Run.rights_unchanged Move.actor hrun hstep hms hp

/-- **A coalition reaches exactly the assignments that keep the rights which no member holds**, as soon as one member
may set rights. -/
theorem reach_iff [Finite A] (hfin : {p | ¬Lacks S p r}.Finite) :
    Reach g S r F ↔ F = r ∨ (¬Lacks S g r ∧ ∀ p, Lacks S p r → ∀ x, p ∈ F x ↔ p ∈ r x) := by
  constructor
  · intro h
    by_cases hg : Lacks S g r
    · obtain ⟨ms, hrun, hms⟩ := h
      have hstep : ∀ {r : A → Set P} {m r'}, Sets g r m r' → ChangedWithin m.actor (id r) (id r') := Sets.changedWithin
      left
      refine Run.guarded_unchanged (f := id) Move.actor hrun hstep ?_ hms hg
      intro r m r' hlacks h
      exact absurd h.1 hlacks
    · exact .inr ⟨hg, fun p hp => (h.unchanged hp).2⟩
  · rintro (rfl | ⟨hg, hF⟩)
    · exact Reach.refl g S F
    · obtain ⟨a, ha, hga⟩ : ∃ a ∈ S, g ∈ r a := by
        simpa [Lacks] using hg
      obtain ⟨r₁, h₁, hle, hall⟩ := Reach.collect hfin ha hga (fun p hp => hp)
      refine h₁.trans (Reach.settle ha (hle a hga) ?_)
      intro p hp x
      have hlacks : Lacks S p r := by
        by_contra hheld
        exact hp (hall hheld)
      exact (hF p hlacks x).trans ((h₁.unchanged hlacks).2 x).symm

end Rights
