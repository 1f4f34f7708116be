import Mathlib.Data.Set.Card
import Illuvitars.Lib.Word

/-!
# Holdings of unique tokens

A ledger of unique tokens maps every token to its holder. `holdings` counts the tokens of an account, and giving one
token to another account changes these counts by one (`holdings_update`), also if the token stays where it is: the law
of a transfer of one unit of a fungible token.
-/

namespace Erc721

instance finiteBitVec (w : ℕ) : Finite (BitVec w) := Finite.of_injective BitVec.toFin fun _ _ => BitVec.eq_of_toFin_eq

variable {T A : Type}

/-- The number of tokens of an account. -/
noncomputable def holdings (owners : T → A) (a : A) : ℕ := Set.ncard {id | owners id = a}

/-- All tokens in one hand. -/
theorem holdings_const_of_ne {a b : A} (h : a ≠ b) : holdings (fun _ : T => a) b = 0 := by
  simp [holdings, h]

variable [DecidableEq T]

/-- Who holds a token afterwards. -/
theorem mem_update_iff {owners : T → A} {id id' : T} {recipient a : A} :
    Function.update owners id recipient id' = a ↔ id' = id ∧ recipient = a ∨ id' ≠ id ∧ owners id' = a := by
  by_cases h : id' = id
  · subst h
    simp
  · simp [h]

variable [Finite T] [DecidableEq A]

/-- **One token changes hands.** -/
theorem holdings_update (owners : T → A) (id : T) (recipient a : A) :
    holdings (Function.update owners id recipient) a + (if a = owners id then 1 else 0) =
      holdings owners a + (if a = recipient then 1 else 0) := by
  unfold holdings
  by_cases hr : a = recipient
  · subst hr
    have hset : {id' | Function.update owners id a id' = a} = insert id {id' | owners id' = a} := by
      ext id'
      simp only [Set.mem_ofPred_eq, Set.mem_insert_iff, mem_update_iff]
      tauto
    rw [hset, if_pos rfl]
    by_cases ho : a = owners id
    · rw [if_pos ho, Set.insert_eq_of_mem (show id ∈ {id' | owners id' = a} from ho.symm)]
    · rw [if_neg ho, Set.ncard_insert_of_notMem (show id ∉ {id' | owners id' = a} from fun h => ho h.symm),
        Nat.add_zero]
  · have hset : {id' | Function.update owners id recipient id' = a} = {id' | owners id' = a} \ {id} := by
      ext id'
      simp only [Set.mem_ofPred_eq, Set.mem_sdiff, Set.mem_singleton_iff, mem_update_iff, Ne.symm hr, and_false,
        false_or]
      exact and_comm
    rw [hset, if_neg hr, Nat.add_zero]
    by_cases ho : a = owners id
    · rw [if_pos ho, Set.ncard_sdiff_singleton_add_one (show id ∈ {id' | owners id' = a} from ho.symm)]
    · rw [if_neg ho, Set.sdiff_singleton_eq_self (show id ∉ {id' | owners id' = a} from fun h => ho h.symm),
        Nat.add_zero]

end Erc721
