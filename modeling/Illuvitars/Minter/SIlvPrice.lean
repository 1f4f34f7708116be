import Illuvitars.Minter.Payment
import Illuvitars.Oracle.Conversion

/-!
# The sILV price

The Minter with the oracle it is deployed with: the price of a `paidMint` in sILV is the oracle's conversion of the
ether price. The conversion is not always a price (`quoteSound_iff`), and then a request may cost nothing:
`sIlvPrice_iff` says exactly when this cannot happen, `sIlvPrice_zero` is a call that gets an accessory for 0 sILV.
-/

namespace Illuvitars
namespace Minter

open Evm IlluvitarsPriceOracleV1

section Price

variable {X : Type} {chain : Chain X} {msg : Msg} {ps : List PortraitMintParams}
  {ss : List AccessorySemiRandomMintParams} {fs : List AccessoryFullRandomMintParams} {w w' : World X}
  {own : Own} {feed : Feed}

/-- The oracle of the Minter has these variables of its own and reads this feed, at the time of the call. -/
def Consults (chain : Chain X) (msg : Msg) (own : Own) (feed : Feed) (w : World X) : Prop :=
  ∀ ethOut, chain.ethToIlv w.storage.illuvitarsPriceOracle w.outside ethOut = ethToIlv own msg.timestamp feed ethOut

/-- No successful call that pays in sILV for a nonzero price moves zero sILV. -/
def PaysNonzero (chain : Chain X) (msg : Msg) (ps : List PortraitMintParams) (ss : List AccessorySemiRandomMintParams)
    (fs : List AccessoryFullRandomMintParams) (w : World X) : Prop :=
  ∀ w', paidMint chain msg ps ss fs true w = .ok w' → etherPrice ps ss fs w.storage ≠ 0 → ∃ amount,
    chain.ethToIlv w.storage.illuvitarsPriceOracle w.outside (BitVec.ofNat 256 (etherPrice ps ss fs w.storage)) =
        .ok amount ∧ amount ≠ 0 ∧
      Erc20.Moves (chain.balanceOf w.storage.sIlv w.outside) (chain.balanceOf w.storage.sIlv w'.outside) msg.sender
        chain.this amount

/-- The price in sILV, with the answer read as an unsigned word. -/
theorem amount_ne_zero_iff {e amount : Uint256} (h : ethToIlv own msg.timestamp feed e = .ok amount) :
    amount ≠ 0 ↔ feed.latestRoundData.answer.toNat ≤ e.toNat * 10 ^ feed.decimals.toNat := by
  obtain ⟨-, hpos, hv⟩ := ethToIlv_ok_iff.1 h
  have hzero : amount = 0 ↔ amount.toNat = 0 := by simp [BitVec.toNat_eq]
  rw [Ne, hzero, hv, Nat.div_eq_zero_iff_lt hpos, Nat.not_lt]

/-- **A conversion is sound iff, whenever it is accepted, the answer is not negative and not above the product; and no
purchase is free of charge iff, whenever it is accepted, the answer as an unsigned word is not above the product.** -/
theorem sIlvPrice_iff (laws : TokenLaws chain w.storage.sIlv w.storage.vrf.LINK)
    (hquote : Consults chain msg own feed w) :
    (∀ ethOut : Uint256, QuoteSound own msg.timestamp feed ethOut ↔
      (Accepted own msg.timestamp feed ethOut → 0 ≤ feed.latestRoundData.answer.toInt ∧
        feed.latestRoundData.answer.toInt ≤ ethOut.toNat * 10 ^ feed.decimals.toNat)) ∧
    (PaysNonzero chain msg ps ss fs w ↔
      (PaidMintAccepts chain msg ps ss fs true w → etherPrice ps ss fs w.storage ≠ 0 →
        feed.latestRoundData.answer.toNat ≤ etherPrice ps ss fs w.storage * 10 ^ feed.decimals.toNat)) := by
  refine ⟨fun ethOut => quoteSound_iff, ?_⟩
  constructor
  · rintro h ⟨x₁, x₂, hc, hpay⟩ hP
    obtain ⟨amount, hok, hne, -⟩ := h _ (paidMint_ok_iff.2 ⟨x₁, x₂, hc, hpay, rfl⟩) hP
    rw [hquote] at hok
    have hle := (amount_ne_zero_iff hok).1 hne
    rwa [BitVec.toNat_ofNat, Nat.mod_eq_of_lt hc.price] at hle
  · intro h w' hok hP
    obtain ⟨x₁, x₂, hc, hpay, -⟩ := paidMint_ok_iff.1 hok
    obtain ⟨amount, hamount, hmoves⟩ := (paidMint_sIlv laws hok).2 rfl hP
    refine ⟨amount, hamount, ?_, hmoves⟩
    rw [hquote] at hamount
    refine (amount_ne_zero_iff hamount).2 ?_
    rw [BitVec.toNat_ofNat, Nat.mod_eq_of_lt hc.price]
    exact h ⟨x₁, x₂, hc, hpay⟩ hP

end Price

/-! ## A deployment with the oracle -/

namespace OracleDeployment

/-- A round of 18 decimals that is one second old. -/
def feed (answer : Int256) : Feed := ⟨⟨1, answer, 199999, 199999, 1⟩, 18⟩

def user : Msg := { Deployment.user 0 with timestamp := 200000 }

/-- The outside of the Minter, with the oracle as deployed. -/
def chain (answer : Int256) : Chain Outside :=
  { Deployment.chain with ethToIlv := fun _ _ ethOut => ethToIlv deployed.own 200000 (feed answer) ethOut }

def genesis (answer : Int256) : World Outside :=
  transact (chain answer) Deployment.owner (.initializeMinter Deployment.params)
    ⟨Storage.zero, 0, [], Deployment.start⟩

def sale (answer : Int256) : World Outside := transactions (chain answer) Deployment.opening (genesis answer)

theorem sale_reachable (answer : Int256) : Reachable (chain answer) (sale answer) := by
  have h : Deployed (chain answer) (genesis answer) :=
    ⟨Deployment.owner, Deployment.params, Deployment.start, ⟨rfl, rfl⟩, rfl⟩
  exact reachable_transactions _ (Lts.Reachable.of_start h)

theorem tokenLaws (answer : Int256) : TokenLaws (chain answer) 0x40 0x30 where
  transferFrom hx := (Outside.move_ok hx).1
  link_balances hx := Outside.transferAndCall_balances hx (by decide)
  link_price _ _ _ := rfl

end OracleDeployment

/-- A bronze accessory of price 5 costs 500 sILV. -/
theorem sIlvPrice_hundred :
    PaysNonzero (OracleDeployment.chain 10000000000000000) OracleDeployment.user [] [] [⟨.bronze, 1⟩]
        (OracleDeployment.sale 10000000000000000) ∧
      QuoteSound deployed.own 200000 (OracleDeployment.feed 10000000000000000) 5 := by
  have hlaws := OracleDeployment.tokenLaws 10000000000000000
  have hconsults : Consults (OracleDeployment.chain 10000000000000000) OracleDeployment.user deployed.own
      (OracleDeployment.feed 10000000000000000) (OracleDeployment.sale 10000000000000000) := fun _ => rfl
  obtain ⟨hquote, hpays⟩ := sIlvPrice_iff hlaws hconsults
  exact ⟨hpays.2 (fun _ _ => by decide), (hquote 5).2 (fun _ => by decide)⟩

/-- The payment of a price that the oracle converts to zero. -/
theorem paySIlv_zero {answer : Int256} {e : Uint256} {x x' : Outside} (he : e ≠ 0)
    (hquote : ethToIlv deployed.own 200000 (OracleDeployment.feed answer) e = .ok 0)
    (hmove : x.move 0x40 OracleDeployment.user.sender 0x10 0 = .ok x') :
    paySIlv (OracleDeployment.chain answer) OracleDeployment.user (OracleDeployment.sale answer).storage e true x =
      .ok x' := by
  rw [paySIlv, if_pos he, if_pos rfl]
  exact bind_ok_iff.2 ⟨0, hquote, hmove⟩

/-- The feed answers -1: the oracle returns 0, and a request of price 5 is recorded for 0 sILV. -/
theorem sIlvPrice_zero :
    IlluvitarsPriceOracleV1.Reachable 0x60 deployed ∧
      ethToIlv deployed.own 200000 (OracleDeployment.feed (-1)) 5 = .ok 0 ∧
      ¬QuoteSound deployed.own 200000 (OracleDeployment.feed (-1)) 5 ∧
      Reachable (OracleDeployment.chain (-1)) (OracleDeployment.sale (-1)) ∧
      etherPrice [] [] [⟨.bronze, 1⟩] (OracleDeployment.sale (-1)).storage = 5 ∧
      ¬PaysNonzero (OracleDeployment.chain (-1)) OracleDeployment.user [] [] [⟨.bronze, 1⟩]
        (OracleDeployment.sale (-1)) ∧
      ∃ w', paidMint (OracleDeployment.chain (-1)) OracleDeployment.user [] [] [⟨.bronze, 1⟩] true
          (OracleDeployment.sale (-1)) = .ok w' ∧
        (w'.storage.mintRequests 0).requester = OracleDeployment.user.sender ∧
        w'.outside.balances 0x40 OracleDeployment.user.sender = 1000 := by
  have hzero : ethToIlv deployed.own 200000 (OracleDeployment.feed (-1)) 5 = .ok 0 := rfl
  have hzero' : ethToIlv deployed.own 200000 (OracleDeployment.feed (-1)) (BitVec.ofNat 256
      (etherPrice [] [] [⟨.bronze, 1⟩] (OracleDeployment.sale (-1)).storage)) = .ok 0 := hzero
  -- the LINK fee, then the payment of zero sILV
  obtain ⟨x₁, x₂, hlink, hmove, hbalance⟩ : ∃ x₁ x₂, (OracleDeployment.chain (-1)).transferAndCall 0x30 0x20 1 [7, 0]
      (OracleDeployment.sale (-1)).outside = .ok x₁ ∧ x₁.move 0x40 OracleDeployment.user.sender 0x10 0 = .ok x₂ ∧
      x₂.balances 0x40 OracleDeployment.user.sender = 1000 := ⟨_, _, rfl, rfl, by decide⟩
  have hchecks : PaidChecks (OracleDeployment.chain (-1)) OracleDeployment.user [] [] [⟨.bronze, 1⟩]
      (OracleDeployment.sale (-1)) x₁ :=
    { request := hlink
      nonce := by decide
      fresh := by decide
      portraits := ⟨fun h => absurd rfl h, by decide, fun h => (by cases h), by decide⟩
      accessories := ⟨by decide, by decide, fun h => (by cases h), by decide⟩
      price := by decide }
  have hpay := paySIlv_zero (by decide) hzero' hmove
  have hmint := paidMint_ok_iff.2 ⟨x₁, x₂, hchecks, hpay, rfl⟩
  refine ⟨deployed_reachable 0x60, hzero, ?_, OracleDeployment.sale_reachable (-1), by decide, ?_, _, hmint, rfl,
    hbalance⟩
  · intro h
    exact absurd (h 0 hzero).2.1 (by decide)
  · intro h
    obtain ⟨amount, hamount, hne, -⟩ := h _ hmint (by decide)
    have heq : (Except.ok amount : Exec Uint256) = .ok 0 := hamount.symm.trans hzero'
    exact hne (Except.ok.inj heq)

end Minter
end Illuvitars
