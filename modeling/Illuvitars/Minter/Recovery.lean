import Illuvitars.Minter.Treasury

/-!
# Who can recover what the Minter holds

Ether and sILV leave the Minter only when its owner withdraws. So they can be recovered as long as there is an owner who
can make calls, and are stuck once the ownership is renounced, or given to the Minter itself.

* `stuck_run`: without such an owner, no run lowers what the Minter holds;
* `recover`: with one, two calls bring everything to an account that accepts it;
* `recoverable_iff`: both together.
-/

namespace Illuvitars
namespace Minter

open Evm

variable {X : Type} {chain : Chain X} {w w' : World X}

/-- Neither ether nor sILV is left. -/
def Drained (chain : Chain X) (w : World X) : Prop := w.held chain .ether = 0 ∧ w.held chain .sIlv = 0

/-- The owner can make calls. The Minter makes none to itself. -/
def HasOwner (chain : Chain X) (w : World X) : Prop := w.storage.owner ≠ 0 ∧ w.storage.owner ≠ chain.this

/-! ## Without an owner -/

/-- What a step takes from the Minter, unless the owner withdraws. -/
theorem Books.held_le {l : Label} {es : List Movement} (laws : TreasuryLaws chain w.storage.sIlv w.storage.vrf.LINK)
    (hw : w.storage.initialized = true) (hno : ∀ msg, l = .call msg .withdraw → msg.sender ≠ w.storage.owner)
    (h : Books chain w l w' es) {a : Asset} (ha : a ≠ .link) : w.held chain a ≤ w'.held chain a := by
  have hbalance := h.balance laws hw a
  have hdebit : (es.map (Movement.debit chain.this a)).sum = 0 := by
    cases h with
    | paidMint hself => simp [Movement.debit, hself, Ne.symm ha]
    | withdraw ho => exact absurd ho (hno _ rfl)
    | other => rfl
    | reverts => rfl
    | outside => simp [Movement.debit]
  omega

/-- **Without an owner who can make calls, the ownership and what the Minter holds are stuck.** -/
theorem stuck_run {ls : List Label} (laws : TreasuryLaws chain w.storage.sIlv w.storage.vrf.LINK)
    (h : Reachable chain w) (howner : ¬HasOwner chain w)
    (hself : ∀ msg op, Label.call msg op ∈ ls → msg.sender ≠ chain.this) (hrun : Lts.Run (Step chain) w ls w') :
    w'.storage.owner = w.storage.owner ∧ ∀ a ≠ Asset.link, w.held chain a ≤ w'.held chain a := by
  have hI := hrun.invariant (P := fun l => ∀ msg op, l = .call msg op → msg.sender ≠ chain.this)
    (I := fun u => Keeping chain w u ∧ u.storage.owner = w.storage.owner ∧
      ∀ a ≠ Asset.link, w.held chain a ≤ u.held chain a) ?_ (fun l hl msg op he => hself msg op (he ▸ hl))
    ⟨⟨h, .refl _⟩, rfl, fun _ _ => Nat.le_refl _⟩
  · exact hI.2
  rintro u l u' hl ⟨hu, hsame, hle⟩ hs
  have hw := (Reachable.fixed hu.reachable).1
  have htransition := step_transition hs hw
  have hothers : ∀ msg op, l = .call msg op → msg.sender ≠ u.storage.owner := by
    intro msg op he hsender
    refine howner ⟨?_, ?_⟩
    · rw [← hsame, ← hsender]
      exact msg.sender_ne_zero
    · rw [← hsame, ← hsender]
      exact hl msg op he
  refine ⟨hu.step hs, ?_, ?_⟩
  · have hadmin := (htransition.undecided fun msg op _ he hsender _ =>
      hothers msg op he hsender).administration
    exact (congrArg Administration.owner hadmin).trans hsame
  · intro a ha
    obtain ⟨es, hbooks⟩ := htransition.books (hu.laws laws) hl
    have hstep := hbooks.held_le (hu.laws laws) hw (fun msg he => hothers msg _ he) ha
    exact (hle a ha).trans hstep

/-! ## With an owner -/

/-- The recipient takes any amount of ether, and then the sILV of the Minter. -/
structure Accepts (chain : Chain X) (sIlv recipient : Address) (x : X) : Prop where
  ether : ∀ value, ∃ x', chain.sendEther recipient value x = .ok x'
  token : ∀ x', (x' = x ∨ ∃ value, chain.sendEther recipient value x = .ok x') →
    ∃ x'', chain.safeTransfer sIlv recipient (chain.balanceOf sIlv x' chain.this) x' = .ok x''

/-- The message of an owner. -/
def World.ownerMsg (w : World X) (h : w.storage.owner ≠ 0) : Msg := ⟨w.storage.owner, 0, 0, h⟩

/-- A withdrawal to a treasury that accepts it. -/
theorem exists_withdraw (h : Accepts chain w.storage.sIlv w.storage.treasury w.outside) :
    ∃ x₁ x₂, withdrawEther chain w = .ok x₁ ∧ withdrawSIlv chain w.storage x₁ = .ok x₂ := by
  obtain ⟨x₁, h₁, hx₁⟩ : ∃ x₁, withdrawEther chain w = .ok x₁ ∧
      (x₁ = w.outside ∨ ∃ value, chain.sendEther w.storage.treasury value w.outside = .ok x₁) := by
    unfold withdrawEther
    by_cases hz : w.balance = 0
    · exact ⟨w.outside, by simp [hz], .inl rfl⟩
    · obtain ⟨x₁, hx₁⟩ := h.ether w.balance
      exact ⟨x₁, by simp [hz, hx₁], .inr ⟨_, hx₁⟩⟩
  obtain ⟨x₂, h₂⟩ : ∃ x₂, withdrawSIlv chain w.storage x₁ = .ok x₂ := by
    unfold withdrawSIlv
    split
    · exact h.token x₁ hx₁
    · exact ⟨x₁, rfl⟩
  exact ⟨x₁, x₂, h₁, h₂⟩

/-- After a withdrawal to another account nothing is left. -/
theorem drained_withdraw {x₁ x₂ : X} (laws : TreasuryLaws chain w.storage.sIlv w.storage.vrf.LINK)
    (hother : w.storage.treasury ≠ chain.this) (h₂ : withdrawSIlv chain w.storage x₁ = .ok x₂) :
    Drained chain { w with balance := 0, outside := x₂ } := by
  obtain ⟨hmoves, -⟩ := withdrawSIlv_law laws h₂
  have hmove := hmoves chain.this
  rw [if_pos rfl, if_neg hother.symm] at hmove
  refine ⟨rfl, ?_⟩
  simp only [World.held]
  omega

/-- **An owner can recover everything** with two calls, which leave all requests as they are. -/
theorem recover {recipient : Address} (laws : TreasuryLaws chain w.storage.sIlv w.storage.vrf.LINK)
    (howner : w.storage.owner ≠ 0) (hrecipient : recipient ≠ 0) (hother : recipient ≠ chain.this)
    (haccept : Accepts chain w.storage.sIlv recipient w.outside) :
    ∃ w', Lts.Run (Step chain) w
        [.call (w.ownerMsg howner) (.setTreasury recipient), .call (w.ownerMsg howner) .withdraw] w' ∧
      Drained chain w' ∧ w'.storage = { w.storage with treasury := recipient } ∧
      w'.logs = w.logs ++ [.treasurySet recipient] := by
  let w₁ : World X := { w with
    storage := { w.storage with treasury := recipient }, logs := w.logs ++ [.treasurySet recipient] }
  obtain ⟨x₁, x₂, h₁, h₂⟩ := exists_withdraw (w := w₁) haccept
  have hset : Acts chain (w.ownerMsg howner) w (.setTreasury recipient) w₁ := .owner rfl rfl (.treasury hrecipient)
  have hwithdraw : Acts chain (w.ownerMsg howner) w₁ .withdraw { w₁ with balance := 0, outside := x₂ } :=
    .owner rfl rfl (.withdraw h₁ h₂)
  have hstep₁ : Step chain w (.call (w.ownerMsg howner) (.setTreasury recipient)) w₁ := step_of_call hset.succeeds
  have hstep₂ : Step chain w₁ (.call (w.ownerMsg howner) .withdraw) { w₁ with balance := 0, outside := x₂ } :=
    step_of_call hwithdraw.succeeds
  exact ⟨_, .cons hstep₁ (.cons hstep₂ (.nil _)), drained_withdraw (w := w₁) laws hother h₂, rfl, rfl⟩

/-- **What the Minter holds can be recovered if and only if it has an owner who can make calls**, or there is nothing to
recover. Where it has, two calls of the owner are enough and leave everything but the treasury as it is; where it has
not, that never changes, and no run lowers what the Minter holds. -/
theorem recoverable_iff {recipient : Address} (h : Reachable chain w)
    (laws : TreasuryLaws chain w.storage.sIlv w.storage.vrf.LINK) (hrecipient : recipient ≠ 0)
    (hother : recipient ≠ chain.this) (haccept : Accepts chain w.storage.sIlv recipient w.outside) :
    ((∃ ls w', Lts.Run (Step chain) w ls w' ∧ (∀ msg op, Label.call msg op ∈ ls → msg.sender ≠ chain.this) ∧
      Drained chain w') ↔ HasOwner chain w ∨ Drained chain w) ∧
    (HasOwner chain w → ∃ m₁ m₂ w', Lts.Run (Step chain) w [.call m₁ (.setTreasury recipient), .call m₂ .withdraw] w' ∧
      m₁.sender = w.storage.owner ∧ m₂.sender = w.storage.owner ∧ Drained chain w' ∧
      w'.storage = { w.storage with treasury := recipient }) ∧
    (¬HasOwner chain w → ∀ ls w', Lts.Run (Step chain) w ls w' →
      (∀ msg op, Label.call msg op ∈ ls → msg.sender ≠ chain.this) →
      ¬HasOwner chain w' ∧ ∀ a ≠ Asset.link, w.held chain a ≤ w'.held chain a) := by
  have hstuck : ¬HasOwner chain w → ∀ ls w', Lts.Run (Step chain) w ls w' →
      (∀ msg op, Label.call msg op ∈ ls → msg.sender ≠ chain.this) →
      ¬HasOwner chain w' ∧ ∀ a ≠ Asset.link, w.held chain a ≤ w'.held chain a := by
    intro howner ls w' hrun hself
    obtain ⟨hsame, hle⟩ := stuck_run laws h howner hself hrun
    refine ⟨?_, hle⟩
    rw [HasOwner, hsame]
    exact howner
  refine ⟨⟨?_, ?_⟩, ?_, hstuck⟩
  · rintro ⟨ls, w', hrun, hself, hether, hsIlv⟩
    by_cases howner : HasOwner chain w
    · exact .inl howner
    · have hle := (hstuck howner ls w' hrun hself).2
      have h₁ := hle .ether (by decide)
      have h₂ := hle .sIlv (by decide)
      exact .inr ⟨by omega, by omega⟩
  · rintro (howner | hdrained)
    · obtain ⟨w', hrun, hdrained, -⟩ := recover laws howner.1 hrecipient hother haccept
      refine ⟨_, w', hrun, ?_, hdrained⟩
      intro msg op hmem
      simp only [List.mem_cons, Label.call.injEq, List.not_mem_nil, or_false] at hmem
      rcases hmem with ⟨rfl, -⟩ | ⟨rfl, -⟩
      · exact howner.2
      · exact howner.2
    · exact ⟨[], w, .nil w, fun _ _ hmem => absurd hmem List.not_mem_nil, hdrained⟩
  · intro howner
    obtain ⟨w', hrun, hdrained, hstorage, -⟩ := recover laws howner.1 hrecipient hother haccept
    exact ⟨_, _, w', hrun, rfl, rfl, hdrained, hstorage⟩

/-- A box has been paid for, and the owner is there. -/
def Deployment.paidBox : World Outside := transactions bank
  (opening ++ [(user 5, .paidMint [] [] [⟨.bronze, 1⟩] false)]) genesis

theorem recoverable_iff_paidBox :
    (∃ ls w', Lts.Run (Step Deployment.bank) Deployment.paidBox ls w' ∧ Drained Deployment.bank w') ∧
      Deployment.paidBox.balance = 5 := by
  have hreach : Reachable Deployment.bank Deployment.paidBox := reachable_transactions _
    (Lts.Reachable.of_start ⟨Deployment.owner, Deployment.params, Deployment.start, ⟨rfl, rfl⟩, rfl⟩)
  have haccept : Accepts Deployment.bank 0x40 0x51 Deployment.paidBox.outside := by
    refine ⟨fun _ => ⟨_, rfl⟩, ?_⟩
    rintro x' (rfl | ⟨_, hx'⟩)
    · exact ⟨_, rfl⟩
    · cases hx'
      exact ⟨_, rfl⟩
  have howner : HasOwner Deployment.bank Deployment.paidBox := by
    refine ⟨?_, ?_⟩ <;> decide
  obtain ⟨hiff, -⟩ := recoverable_iff hreach Deployment.bank_laws (show (0x51 : Address) ≠ 0 by decide) (by decide)
    haccept
  obtain ⟨ls, w', hrun, -, hdrained⟩ := hiff.2 (.inl howner)
  exact ⟨⟨ls, w', hrun, hdrained⟩, by decide⟩

end Minter
end Illuvitars
