import Illuvitars.Minter.Outside

/-!
# The price of a paid request

`paidMint` prices every unit of its lists exactly (`etherPrice`) and collects sILV exactly, but it never compares the
ether it receives with the price. `paidInFull_iff` is the condition under which its successful calls are paid in full;
`paidMint_unpaid` is a call that gets a box for nothing.
-/

namespace Illuvitars
namespace Minter

open Evm

section Payment

variable {X : Type} {chain : Chain X} {msg : Msg} {ps : List PortraitMintParams}
  {ss : List AccessorySemiRandomMintParams} {fs : List AccessoryFullRandomMintParams} {useSIlv : Bool} {w w' : World X}

/-- The ether that a call owes: the price, or nothing if it is paid in sILV. -/
def etherDue (ps : List PortraitMintParams) (ss : List AccessorySemiRandomMintParams)
    (fs : List AccessoryFullRandomMintParams) (useSIlv : Bool) (s : Storage) : ℕ :=
  if useSIlv then 0 else etherPrice ps ss fs s

/-- The call from `w` to `w'` is paid in full, in ether or in sILV. -/
structure PaidInFull (chain : Chain X) (msg : Msg) (ps : List PortraitMintParams)
    (ss : List AccessorySemiRandomMintParams) (fs : List AccessoryFullRandomMintParams) (useSIlv : Bool)
    (w w' : World X) : Prop where
  ether : msg.value.toNat = etherDue ps ss fs useSIlv w.storage
  no_sIlv : useSIlv = false → chain.balanceOf w.storage.sIlv w'.outside = chain.balanceOf w.storage.sIlv w.outside
  sIlv : useSIlv = true → etherPrice ps ss fs w.storage ≠ 0 → ∃ amount,
    chain.ethToIlv w.storage.illuvitarsPriceOracle w.outside (BitVec.ofNat 256 (etherPrice ps ss fs w.storage)) =
        .ok amount ∧
      Erc20.Moves (chain.balanceOf w.storage.sIlv w.outside) (chain.balanceOf w.storage.sIlv w'.outside) msg.sender
        chain.this amount

/-- The call passes the checks that `paidMint` makes, and its sILV payment goes through. -/
def PaidMintAccepts (chain : Chain X) (msg : Msg) (ps : List PortraitMintParams)
    (ss : List AccessorySemiRandomMintParams) (fs : List AccessoryFullRandomMintParams) (useSIlv : Bool)
    (w : World X) : Prop :=
  ∃ x₁ x₂, PaidChecks chain msg ps ss fs w x₁ ∧
    paySIlv chain msg w.storage (BitVec.ofNat 256 (etherPrice ps ss fs w.storage)) useSIlv x₁ = .ok x₂

/-- Without the flag no sILV is paid. -/
theorem paySIlv_false {e : Uint256} {x x' : X} (h : paySIlv chain msg w.storage e false x = .ok x') : x' = x := by
  unfold paySIlv at h
  split at h
  · rw [if_neg (by decide)] at h
    exact (Except.ok.inj h).symm
  · exact (Except.ok.inj h).symm

/-- With the flag the price is converted and moved from the caller to the Minter. -/
theorem paySIlv_true {e : Uint256} {x x' : X} (he : e ≠ 0) (h : paySIlv chain msg w.storage e true x = .ok x') :
    ∃ amount, chain.ethToIlv w.storage.illuvitarsPriceOracle x e = .ok amount ∧
      chain.safeTransferFrom w.storage.sIlv msg.sender chain.this amount x = .ok x' := by
  rw [paySIlv, if_pos he, if_pos rfl] at h
  exact bind_ok_iff.1 h

/-- A successful call collects exactly the sILV that it should. -/
theorem paidMint_sIlv (laws : TokenLaws chain w.storage.sIlv w.storage.vrf.LINK)
    (h : paidMint chain msg ps ss fs useSIlv w = .ok w') :
    (useSIlv = false → chain.balanceOf w.storage.sIlv w'.outside = chain.balanceOf w.storage.sIlv w.outside) ∧
      (useSIlv = true → etherPrice ps ss fs w.storage ≠ 0 → ∃ amount,
        chain.ethToIlv w.storage.illuvitarsPriceOracle w.outside (BitVec.ofNat 256 (etherPrice ps ss fs w.storage)) =
            .ok amount ∧
          Erc20.Moves (chain.balanceOf w.storage.sIlv w.outside) (chain.balanceOf w.storage.sIlv w'.outside)
            msg.sender chain.this amount) := by
  obtain ⟨x₁, x₂, hc, hpay, rfl⟩ := paidMint_ok_iff.1 h
  have hlink := laws.link_balances hc.request
  constructor
  · rintro rfl
    show chain.balanceOf w.storage.sIlv x₂ = _
    rw [paySIlv_false hpay]
    exact hlink
  · rintro rfl hP
    have hne : BitVec.ofNat 256 (etherPrice ps ss fs w.storage) ≠ 0 := by
      intro h0
      have := congrArg BitVec.toNat h0
      rw [BitVec.toNat_ofNat, Nat.mod_eq_of_lt hc.price] at this
      exact hP this
    obtain ⟨amount, hquote, hmove⟩ := paySIlv_true hne hpay
    refine ⟨amount, ?_, ?_⟩
    · rw [← laws.link_price hc.request]
      exact hquote
    · rw [← hlink]
      exact laws.transferFrom hmove

/-- **A successful `paidMint` is paid in full iff the ether sent is the ether due**, which the code does not check. -/
theorem paidInFull_iff (laws : TokenLaws chain w.storage.sIlv w.storage.vrf.LINK) :
    (∀ w', paidMint chain msg ps ss fs useSIlv w = .ok w' → PaidInFull chain msg ps ss fs useSIlv w w') ↔
      (PaidMintAccepts chain msg ps ss fs useSIlv w → msg.value.toNat = etherDue ps ss fs useSIlv w.storage) := by
  constructor
  · intro h hacc
    obtain ⟨x₁, x₂, hc, hpay⟩ := hacc
    exact (h _ (paidMint_ok_iff.2 ⟨x₁, x₂, hc, hpay, rfl⟩)).ether
  · intro h w' hok
    obtain ⟨x₁, x₂, hc, hpay, -⟩ := paidMint_ok_iff.1 hok
    obtain ⟨hno, hsIlv⟩ := paidMint_sIlv laws hok
    exact ⟨h ⟨x₁, x₂, hc, hpay⟩, hno, hsIlv⟩

end Payment

/-- A purchase with sILV, paid in full. -/
theorem paidInFull_with_sIlv :
    PaidInFull Deployment.chain (Deployment.user 0) [⟨.bronze, 2⟩] [] [] true Deployment.sale
      (transact Deployment.chain (Deployment.user 0) (.paidMint [⟨.bronze, 2⟩] [] [] true) Deployment.sale) :=
  (paidInFull_iff (Outside.tokenLaws (by decide))).2 (fun _ => by decide) _ rfl

/-- A full-random bronze accessory costs 5, and is recorded for a caller who sends nothing. -/
theorem paidMint_unpaid :
    Reachable Deployment.chain Deployment.sale ∧
      TokenLaws Deployment.chain Deployment.sale.storage.sIlv Deployment.sale.storage.vrf.LINK ∧
      etherPrice [] [] [⟨.bronze, 1⟩] Deployment.sale.storage = 5 ∧
      ∃ w', paidMint Deployment.chain (Deployment.user 0) [] [] [⟨.bronze, 1⟩] false Deployment.sale = .ok w' ∧
        (w'.storage.mintRequests 0).requester = (Deployment.user 0).sender ∧
        (w'.storage.mintRequests 0).accessoryFullRandomMintParams = [⟨.bronze, 1⟩] ∧
        ¬PaidInFull Deployment.chain (Deployment.user 0) [] [] [⟨.bronze, 1⟩] false Deployment.sale w' := by
  refine ⟨Deployment.sale_reachable, Outside.tokenLaws (by decide), by decide,
    transact Deployment.chain (Deployment.user 0) (.paidMint [] [] [⟨.bronze, 1⟩] false) Deployment.sale, rfl,
    by decide, by decide, ?_⟩
  intro h
  exact absurd h.ether (by decide)

end Minter
end Illuvitars
