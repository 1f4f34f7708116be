import Mathlib.Logic.Function.Basic
import Illuvitars.Lib.Word

/-!
# Token balances

A transfer of a fungible token moves an amount between two accounts and nothing else (`Moves`), also from an account to
itself; `transfer` is the checked transfer on balances, and `transfer_moves` is what it does.
-/

namespace Erc20

open Evm

/-- Exactly `amount` moves from `sender` to `recipient`. -/
def Moves (before after : Address → Uint256) (sender recipient : Address) (amount : Uint256) : Prop :=
  ∀ a, (after a).toNat + (if a = sender then amount.toNat else 0) =
    (before a).toNat + (if a = recipient then amount.toNat else 0)

/-- The balances after a transfer. -/
def transfer (balances : Address → Uint256) (sender recipient : Address) (amount : Uint256) :
    Exec (Address → Uint256) := do
  let left ← checkedSub (balances sender) amount
  let balances := Function.update balances sender left
  let gained ← checkedAdd (balances recipient) amount
  pure (Function.update balances recipient gained)

theorem transfer_moves {before after : Address → Uint256} {sender recipient : Address} {amount : Uint256}
    (h : transfer before sender recipient amount = .ok after) : Moves before after sender recipient amount := by
  simp only [transfer, bind_ok_iff, checkedSub_ok_iff, checkedAdd_ok_iff, pure_eq_ok, Except.ok.injEq] at h
  obtain ⟨left, hleft, gained, hgained, rfl⟩ := h
  intro a
  by_cases hr : a = recipient
  · subst hr
    rw [Function.update_self, if_pos rfl, hgained]
    by_cases hs : a = sender
    · subst hs
      rw [Function.update_self, if_pos rfl]
      omega
    · rw [Function.update_of_ne hs, if_neg hs]
      omega
  · rw [Function.update_of_ne hr, if_neg hr]
    by_cases hs : a = sender
    · subst hs
      rw [Function.update_self, if_pos rfl]
      omega
    · rw [Function.update_of_ne hs, if_neg hs]

end Erc20
