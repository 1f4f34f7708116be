import Illuvitars.Minter.SIlvPrice
import Illuvitars.Oracle.Managers

/-!
# The Minter and its price oracle as one system

The oracle is a contract with a storage and managers of its own. A `Market` is an outside of the Minter with the oracle
in it, so that purchases, calls of the oracle, new rounds of the feed and the passing of time follow each other in any
order.

* `oracle_reachable`: in every reachable world of the two contracts the oracle is in a state that it reaches alone;
* `purchase_ok_iff`: when a purchase in sILV succeeds, split into what the oracle decides and all the rest;
* `sIlv_purchases`: in every reachable world a purchase is charged the quote of the feed, or reverts;
* `oracle_power`: which purchases a coalition of the oracle's accounts can let through, and which it can stop.
-/

namespace Illuvitars
namespace Minter

open Evm IlluvitarsPriceOracleV1

/-- The outside of a Minter together with its price oracle: the tokens, the oracle's storage, the feed that it reads
and the time. -/
structure Market (X : Type) where
  tokens : X
  oracle : UpgradeableAccessControl.Storage Own
  feed : Feed
  now256 : Uint256

namespace Market

variable {X : Type}

/-- A call of a token leaves the oracle, its feed and the time as they are. -/
def token (x : Market X) (r : Exec X) : Exec (Market X) := do
  let tokens ← r
  pure { x with tokens }

/-- The outside `base` with an oracle at the address `oracle`. Between two calls of the Minter anybody may call the
oracle, its aggregator may answer anything, and time passes. -/
def chain (base : Chain X) (oracle : Address) : Chain (Market X) where
  this := base.this
  keccak256 := base.keccak256
  transferAndCall link recipient value data x := x.token (base.transferAndCall link recipient value data x.tokens)
  ethToIlv address x ethOut :=
    if address = oracle then ethToIlv x.oracle.own x.now256 x.feed ethOut else .error .empty
  balanceOf token x account := base.balanceOf token x.tokens account
  safeTransfer token recipient amount x := x.token (base.safeTransfer token recipient amount x.tokens)
  safeTransferFrom token sender recipient amount x :=
    x.token (base.safeTransferFrom token sender recipient amount x.tokens)
  sendEther recipient value x := x.token (base.sendEther recipient value x.tokens)
  deployed x := base.deployed x.tokens ∧ IlluvitarsPriceOracleV1.Reachable oracle x.oracle
  evolves x x' := base.evolves x.tokens x'.tokens ∧ Governed oracle Set.univ x.oracle x'.oracle ∧
    x.now256.toNat ≤ x'.now256.toNat

/-- The world of the Minter without the oracle. -/
def bare (w : World (Market X)) : World X := ⟨w.storage, w.balance, w.logs, w.outside.tokens⟩

theorem token_ok_iff {x x' : Market X} {r : Exec X} :
    x.token r = .ok x' ↔ ∃ tokens, r = .ok tokens ∧ x' = { x with tokens } := by
  simp only [token, bind_ok_iff, pure_eq_ok, Except.ok.injEq]
  constructor
  · rintro ⟨tokens, h, rfl⟩
    exact ⟨tokens, h, rfl⟩
  · rintro ⟨tokens, h, rfl⟩
    exact ⟨tokens, h, rfl⟩

variable {base : Chain X} {oracle : Address} {x x' : Market X} {w w' : World (Market X)}

/-- The laws of the tokens do not depend on the oracle. -/
theorem tokenLaws {sIlv link : Address} (laws : TokenLaws base sIlv link) :
    TokenLaws (chain base oracle) sIlv link where
  transferFrom h := by
    obtain ⟨tokens, ht, rfl⟩ := token_ok_iff.1 h
    exact laws.transferFrom ht
  link_balances h := by
    obtain ⟨tokens, ht, rfl⟩ := token_ok_iff.1 h
    exact laws.link_balances ht
  link_price h := by
    obtain ⟨tokens, -, rfl⟩ := token_ok_iff.1 h
    exact fun _ _ => rfl

/-! ## The oracle in a reachable world -/

/-- The oracle is as it was. -/
def Same (x x' : Market X) : Prop := ∃ tokens, x' = { x with tokens }

theorem Same.refl (x : Market X) : Same x x := ⟨x.tokens, rfl⟩

theorem Same.trans {x'' : Market X} (h : Same x x') (h' : Same x' x'') : Same x x'' := by
  obtain ⟨_, rfl⟩ := h
  obtain ⟨tokens, rfl⟩ := h'
  exact ⟨tokens, rfl⟩

theorem same_of_token {r : Exec X} (h : x.token r = .ok x') : Same x x' := by
  obtain ⟨tokens, -, rfl⟩ := token_ok_iff.1 h
  exact ⟨tokens, rfl⟩

theorem same_of_payments (h : Payments (chain base oracle) x x') : Same x x' := by
  induction h with
  | refl => exact Same.refl x
  | tail _ h ih =>
    cases h with
    | sendEther h => exact ih.trans (same_of_token h)
    | safeTransfer h => exact ih.trans (same_of_token h)
    | safeTransferFrom h => exact ih.trans (same_of_token h)

/-- No call of the Minter changes the oracle. -/
theorem same_of_effect {msg : Msg} {op : Op} (h : Effect (chain base oracle) msg w op w') :
    Same w.outside w'.outside := by
  cases h with
  | paidMint hc hpay => exact (same_of_token hc.request).trans (same_of_payments (paySIlv_payments hpay))
  | admin _ _ hp _ _ => exact same_of_payments hp
  | _ => exact Same.refl _

/-- **In every reachable world of the two contracts the oracle is in a reachable state of its own.** -/
theorem oracle_reachable (h : Reachable (chain base oracle) w) :
    IlluvitarsPriceOracleV1.Reachable oracle w.outside.oracle := by
  refine Lts.Reachable.invariant (I := fun w => IlluvitarsPriceOracleV1.Reachable oracle w.outside.oracle) ?_ ?_ h
  · rintro w ⟨msg, p, x, hx, hw⟩
    rw [(initializeMinter_ok hw).2.2]
    exact hx.2
  · intro w l w' hr hI hs
    rcases step_cases hs (Reachable.fixed hr).1 with ⟨_, _, _, _, he⟩ | ⟨-, -, hout | hout⟩
    · obtain ⟨_, hsame⟩ := same_of_effect he
      rw [hsame]
      exact hI
    · rw [hout]
      exact hI
    · exact hout.2.1.reachable hI

end Market

/-! ## Purchases in sILV -/

section Purchases

variable {X : Type} {base : Chain X} {oracle : Address} {msg : Msg} {ps : List PortraitMintParams}
  {ss : List AccessorySemiRandomMintParams} {fs : List AccessoryFullRandomMintParams} {w w' : World (Market X)}

/-- The checks of a purchase do not look at the oracle. -/
theorem paidChecks_market_iff {x : Market X} :
    PaidChecks (Market.chain base oracle) msg ps ss fs w x ↔
      ∃ tokens, PaidChecks base msg ps ss fs (Market.bare w) tokens ∧ x = { w.outside with tokens } := by
  constructor
  · intro h
    obtain ⟨tokens, ht, rfl⟩ := Market.token_ok_iff.1 h.request
    exact ⟨tokens, ⟨ht, h.nonce, h.fresh, h.portraits, h.accessories, h.price⟩, rfl⟩
  · rintro ⟨tokens, h, rfl⟩
    exact ⟨Market.token_ok_iff.2 ⟨tokens, h.request, rfl⟩, h.nonce, h.fresh, h.portraits, h.accessories, h.price⟩

/-- The payment in sILV is the conversion by the oracle, then a transfer. -/
theorem paySIlv_market_iff {s : Storage} {e : Uint256} {x x' : Market X} (he : e ≠ 0)
    (horacle : s.illuvitarsPriceOracle = oracle) :
    paySIlv (Market.chain base oracle) msg s e true x = .ok x' ↔
      ∃ amount tokens, ethToIlv x.oracle.own x.now256 x.feed e = .ok amount ∧
        base.safeTransferFrom s.sIlv msg.sender base.this amount x.tokens = .ok tokens ∧ x' = { x with tokens } := by
  rw [paySIlv, if_pos he, if_pos rfl, bind_ok_iff]
  simp only [Market.chain, horacle, if_true, Market.token_ok_iff]
  constructor
  · rintro ⟨amount, hquote, tokens, hmove, rfl⟩
    exact ⟨amount, tokens, hquote, hmove, rfl⟩
  · rintro ⟨amount, tokens, hquote, hmove, rfl⟩
    exact ⟨amount, hquote, tokens, hmove, rfl⟩

/-- The ether price as the word that is converted. -/
abbrev priceWord (ps : List PortraitMintParams) (ss : List AccessorySemiRandomMintParams)
    (fs : List AccessoryFullRandomMintParams) (s : Storage) : Uint256 := BitVec.ofNat 256 (etherPrice ps ss fs s)

theorem priceWord_ne_zero {s : Storage} (hlt : etherPrice ps ss fs s < 2 ^ 256) (hP : etherPrice ps ss fs s ≠ 0) :
    priceWord ps ss fs s ≠ 0 := by
  intro h0
  have hnat := congrArg BitVec.toNat h0
  rw [BitVec.toNat_ofNat, Nat.mod_eq_of_lt hlt] at hnat
  exact hP hnat

/-- The caller's part of a purchase in sILV: it passes the checks, and can pay the quote after the LINK fee is paid. -/
def Payable (base : Chain X) (msg : Msg) (ps : List PortraitMintParams) (ss : List AccessorySemiRandomMintParams)
    (fs : List AccessoryFullRandomMintParams) (w : World (Market X)) : Prop :=
  ∃ t₁ t₂, PaidChecks base msg ps ss fs (Market.bare w) t₁ ∧
    base.safeTransferFrom w.storage.sIlv msg.sender base.this
      (quote w.outside.feed (priceWord ps ss fs w.storage)) t₁ = .ok t₂

/-- Everything but the age of the price: the caller's part, and a usable feed. -/
def Ready (base : Chain X) (msg : Msg) (ps : List PortraitMintParams) (ss : List AccessorySemiRandomMintParams)
    (fs : List AccessoryFullRandomMintParams) (w : World (Market X)) : Prop :=
  Payable base msg ps ss fs w ∧ Usable w.outside.now256 w.outside.feed (priceWord ps ss fs w.storage)

/-- **A purchase in sILV succeeds iff everything else is ready and the price is younger than the threshold.** -/
theorem purchase_ok_iff (hreach : IlluvitarsPriceOracleV1.Reachable oracle w.outside.oracle)
    (horacle : w.storage.illuvitarsPriceOracle = oracle) (hclock : 604800 ≤ w.outside.now256.toNat)
    (hP : etherPrice ps ss fs w.storage ≠ 0) :
    (∃ w', paidMint (Market.chain base oracle) msg ps ss fs true w = .ok w') ↔
      Ready base msg ps ss fs w ∧
        age w.outside.now256 w.outside.feed < w.outside.oracle.own.oldAnswerThreshold.toNat := by
  constructor
  · rintro ⟨w', hok⟩
    obtain ⟨x₁, x₂, hc, hpay, -⟩ := paidMint_ok_iff.1 hok
    obtain ⟨t₁, ht₁, rfl⟩ := paidChecks_market_iff.1 hc
    obtain ⟨amount, t₂, hconvert, ht₂, -⟩ := (paySIlv_market_iff (priceWord_ne_zero hc.price hP) horacle).1 hpay
    obtain ⟨husable, hyoung, rfl⟩ := (ethToIlv_usable_iff hreach hclock).1 hconvert
    exact ⟨⟨⟨t₁, t₂, ht₁, ht₂⟩, husable⟩, hyoung⟩
  · rintro ⟨⟨⟨t₁, t₂, ht₁, ht₂⟩, husable⟩, hyoung⟩
    have hconvert := (ethToIlv_usable_iff hreach hclock).2 ⟨husable, hyoung, rfl⟩
    have hpay : paySIlv (Market.chain base oracle) msg w.storage (priceWord ps ss fs w.storage) true
        { w.outside with tokens := t₁ } = .ok { w.outside with tokens := t₂ } :=
      (paySIlv_market_iff (priceWord_ne_zero ht₁.price hP) horacle).2 ⟨_, t₂, hconvert, ht₂, rfl⟩
    exact ⟨_, paidMint_ok_iff.2 ⟨_, _, paidChecks_market_iff.2 ⟨t₁, ht₁, rfl⟩, hpay, rfl⟩⟩

/-- **In every reachable world of the two contracts a purchase in sILV reverts, or is charged exactly what the feed says
now.** -/
theorem sIlv_purchases (laws : TokenLaws base w.storage.sIlv w.storage.vrf.LINK)
    (hw : Reachable (Market.chain base oracle) w) (horacle : w.storage.illuvitarsPriceOracle = oracle)
    (hclock : 604800 ≤ w.outside.now256.toNat) (hP : etherPrice ps ss fs w.storage ≠ 0) :
    ((∃ w', paidMint (Market.chain base oracle) msg ps ss fs true w = .ok w') ↔
      Ready base msg ps ss fs w ∧
        age w.outside.now256 w.outside.feed < w.outside.oracle.own.oldAnswerThreshold.toNat) ∧
    ∀ w', paidMint (Market.chain base oracle) msg ps ss fs true w = .ok w' →
      Erc20.Moves (base.balanceOf w.storage.sIlv w.outside.tokens) (base.balanceOf w.storage.sIlv w'.outside.tokens)
          msg.sender base.this (quote w.outside.feed (priceWord ps ss fs w.storage)) ∧
        age w.outside.now256 w.outside.feed < 604799 ∧ Market.Same w.outside w'.outside := by
  have hreach := Market.oracle_reachable hw
  refine ⟨purchase_ok_iff hreach horacle hclock hP, ?_⟩
  intro w' hok
  obtain ⟨amount, hquote, hmoves⟩ := (paidMint_sIlv (Market.tokenLaws laws) hok).2 rfl hP
  have hconvert : ethToIlv w.outside.oracle.own w.outside.now256 w.outside.feed (priceWord ps ss fs w.storage) =
      .ok amount := by
    simpa [Market.chain, horacle] using hquote
  obtain ⟨-, hyoung, rfl⟩ := (ethToIlv_usable_iff hreach hclock).1 hconvert
  have hvalid := (threshold_reachable hreach).2
  refine ⟨hmoves, by omega, ?_⟩
  have hcall : call (Market.chain base oracle) msg (.paidMint ps ss fs true) w = .ok w' := hok
  exact Market.same_of_effect (call_effect hcall (Reachable.fixed hw).1)

/-! ## The power over the oracle -/

/-- The world after calls of the oracle by members of a coalition. -/
def Governs (oracle : Address) (S : Set Address) (w w' : World (Market X)) : Prop :=
  ∃ o, Governed oracle S w.outside.oracle o ∧ w' = { w with outside := { w.outside with oracle := o } }

/-- Some account of the coalition is a manager of the oracle. -/
def HasManager (S : Set Address) (w : World (Market X)) : Prop :=
  ¬Rights.Lacks S 16 (UpgradeableAccessControl.rights w.outside.oracle)

/-- The thresholds after calls of a coalition. -/
theorem exists_governs_iff (hw : Reachable (Market.chain base oracle) w) {S : Set Address} {value : Uint256} :
    (∃ w₁, Governs oracle S w w₁ ∧ w₁.outside.oracle.own.oldAnswerThreshold = value) ↔
      value = w.outside.oracle.own.oldAnswerThreshold ∨ (HasManager S w ∧ ValidThreshold ⟨value⟩) := by
  rw [HasManager, ← exists_governed_iff (Market.oracle_reachable hw)]
  constructor
  · rintro ⟨_, ⟨o, ho, rfl⟩, hvalue⟩
    exact ⟨o, ho, hvalue⟩
  · rintro ⟨o, ho, hvalue⟩
    exact ⟨_, ⟨o, ho, rfl⟩, hvalue⟩

/-- After calls of a coalition the threshold decides with the rest as it was. -/
theorem purchase_governed_iff (hw : Reachable (Market.chain base oracle) w)
    (horacle : w.storage.illuvitarsPriceOracle = oracle) (hclock : 604800 ≤ w.outside.now256.toNat)
    (hP : etherPrice ps ss fs w.storage ≠ 0) {S : Set Address} {w₁ : World (Market X)} (h : Governs oracle S w w₁) :
    (∃ w₂, paidMint (Market.chain base oracle) msg ps ss fs true w₁ = .ok w₂) ↔
      Ready base msg ps ss fs w ∧
        age w.outside.now256 w.outside.feed < w₁.outside.oracle.own.oldAnswerThreshold.toNat := by
  obtain ⟨o, ho, rfl⟩ := h
  exact purchase_ok_iff (ho.reachable (Market.oracle_reachable hw)) horacle hclock hP

/-- **The purchases that a coalition can let through**: a manager can accept every price of less than seven days. -/
theorem exists_purchase_iff (hw : Reachable (Market.chain base oracle) w)
    (horacle : w.storage.illuvitarsPriceOracle = oracle) (hclock : 604800 ≤ w.outside.now256.toNat)
    (hP : etherPrice ps ss fs w.storage ≠ 0) {S : Set Address} :
    (∃ w₁, Governs oracle S w w₁ ∧ ∃ w₂, paidMint (Market.chain base oracle) msg ps ss fs true w₁ = .ok w₂) ↔
      Ready base msg ps ss fs w ∧
        (age w.outside.now256 w.outside.feed < w.outside.oracle.own.oldAnswerThreshold.toNat ∨
          HasManager S w ∧ age w.outside.now256 w.outside.feed < 604799) := by
  constructor
  · rintro ⟨w₁, hw₁, hok⟩
    obtain ⟨hready, hyoung⟩ := (purchase_governed_iff hw horacle hclock hP hw₁).1 hok
    refine ⟨hready, ?_⟩
    rcases (exists_governs_iff hw).1 ⟨w₁, hw₁, rfl⟩ with hold | ⟨hmanager, -, hhigh⟩
    · exact .inl (hold ▸ hyoung)
    · dsimp only at hhigh
      exact .inr ⟨hmanager, by omega⟩
  · rintro ⟨hready, hage⟩
    -- the threshold that there is, or the highest one
    obtain ⟨value, hvalue, hyoung⟩ : ∃ value : Uint256,
        (value = w.outside.oracle.own.oldAnswerThreshold ∨ HasManager S w ∧ ValidThreshold ⟨value⟩) ∧
          age w.outside.now256 w.outside.feed < value.toNat := by
      rcases hage with hyoung | ⟨hmanager, hyoung⟩
      · exact ⟨_, .inl rfl, hyoung⟩
      · exact ⟨604799, .inr ⟨hmanager, by decide⟩, hyoung⟩
    obtain ⟨w₁, hw₁, rfl⟩ := (exists_governs_iff hw).2 hvalue
    exact ⟨w₁, hw₁, (purchase_governed_iff hw horacle hclock hP hw₁).2 ⟨hready, hyoung⟩⟩

/-- **The purchases that a coalition can stop**: a manager cannot stop those at a price of at most an hour. -/
theorem exists_refusal_iff (hw : Reachable (Market.chain base oracle) w)
    (horacle : w.storage.illuvitarsPriceOracle = oracle) (hclock : 604800 ≤ w.outside.now256.toNat)
    (hP : etherPrice ps ss fs w.storage ≠ 0) {S : Set Address} :
    (∃ w₁, Governs oracle S w w₁ ∧ ¬∃ w₂, paidMint (Market.chain base oracle) msg ps ss fs true w₁ = .ok w₂) ↔
      ¬Ready base msg ps ss fs w ∨
        w.outside.oracle.own.oldAnswerThreshold.toNat ≤ age w.outside.now256 w.outside.feed ∨
          HasManager S w ∧ 3600 < age w.outside.now256 w.outside.feed := by
  constructor
  · rintro ⟨w₁, hw₁, hno⟩
    rw [purchase_governed_iff hw horacle hclock hP hw₁, not_and_or, Nat.not_lt] at hno
    rcases hno with hready | hold
    · exact .inl hready
    · rcases (exists_governs_iff hw).1 ⟨w₁, hw₁, rfl⟩ with hsame | ⟨hmanager, hlow, -⟩
      · exact .inr (.inl (hsame ▸ hold))
      · dsimp only at hlow
        exact .inr (.inr ⟨hmanager, by omega⟩)
  · intro h
    -- the threshold that there is, or the lowest one
    obtain ⟨value, hvalue, hno⟩ : ∃ value : Uint256,
        (value = w.outside.oracle.own.oldAnswerThreshold ∨ HasManager S w ∧ ValidThreshold ⟨value⟩) ∧
          (¬Ready base msg ps ss fs w ∨ value.toNat ≤ age w.outside.now256 w.outside.feed) := by
      rcases h with hready | hold | ⟨hmanager, hage⟩
      · exact ⟨_, .inl rfl, .inl hready⟩
      · exact ⟨_, .inl rfl, .inr hold⟩
      · exact ⟨3601, .inr ⟨hmanager, by decide⟩, .inr hage⟩
    obtain ⟨w₁, hw₁, rfl⟩ := (exists_governs_iff hw).2 hvalue
    refine ⟨w₁, hw₁, ?_⟩
    rwa [purchase_governed_iff hw horacle hclock hP hw₁, not_and_or, Nat.not_lt]

/-- **What a coalition of accounts can do to a purchase by calling the oracle.** -/
theorem oracle_power (hw : Reachable (Market.chain base oracle) w)
    (horacle : w.storage.illuvitarsPriceOracle = oracle) (hclock : 604800 ≤ w.outside.now256.toNat)
    (hP : etherPrice ps ss fs w.storage ≠ 0) (S : Set Address) :
    ((∃ w₁, Governs oracle S w w₁ ∧ ∃ w₂, paidMint (Market.chain base oracle) msg ps ss fs true w₁ = .ok w₂) ↔
      Ready base msg ps ss fs w ∧
        (age w.outside.now256 w.outside.feed < w.outside.oracle.own.oldAnswerThreshold.toNat ∨
          HasManager S w ∧ age w.outside.now256 w.outside.feed < 604799)) ∧
    ((∃ w₁, Governs oracle S w w₁ ∧ ¬∃ w₂, paidMint (Market.chain base oracle) msg ps ss fs true w₁ = .ok w₂) ↔
      ¬Ready base msg ps ss fs w ∨
        w.outside.oracle.own.oldAnswerThreshold.toNat ≤ age w.outside.now256 w.outside.feed ∨
          HasManager S w ∧ 3600 < age w.outside.now256 w.outside.feed) :=
  ⟨exists_purchase_iff hw horacle hclock hP, exists_refusal_iff hw horacle hclock hP⟩

end Purchases

/-! ## A deployment with the oracle in it -/

namespace MarketDeployment

/-- A round of 18 decimals that is 100000 seconds old, with 4 sILV for 1 ether. -/
def feed : Feed := ⟨⟨1, 250000000000000000, 900000, 900000, 1⟩, 18⟩

abbrev chain : Chain (Market Outside) := Market.chain Deployment.chain 0x60

def genesis : World (Market Outside) :=
  transact chain Deployment.owner (.initializeMinter Deployment.params)
    ⟨Storage.zero, 0, [], ⟨Deployment.start, deployed, feed, 1000000⟩⟩

def sale : World (Market Outside) := transactions chain Deployment.opening genesis

theorem sale_reachable : Reachable chain sale := by
  have h : Deployed chain genesis :=
    ⟨Deployment.owner, Deployment.params, _, ⟨⟨rfl, rfl⟩, deployed_reachable 0x60⟩, rfl⟩
  exact reachable_transactions _ (Lts.Reachable.of_start h)

/-- A user can pay 20 sILV for a bronze accessory of price 5. -/
theorem sale_ready : Ready Deployment.chain (Deployment.user 0) [] [] [⟨.bronze, 1⟩] sale := by
  obtain ⟨t₁, t₂, hlink, hmove⟩ : ∃ t₁ t₂, Deployment.chain.transferAndCall 0x30 0x20 1 [7, 0] sale.outside.tokens =
      .ok t₁ ∧ t₁.move 0x40 (Deployment.user 0).sender 0x10 20 = .ok t₂ := ⟨_, _, rfl, rfl⟩
  refine ⟨⟨t₁, t₂, ?_, hmove⟩, ⟨rfl, by decide, by decide, by decide, by decide, by decide⟩⟩
  exact
    { request := hlink
      nonce := by decide
      fresh := by decide
      portraits := ⟨fun h => absurd rfl h, by decide, fun h => (by cases h), by decide⟩
      accessories := ⟨by decide, by decide, fun h => (by cases h), by decide⟩
      price := by decide }

end MarketDeployment

open MarketDeployment in
/-- The accessory costs 20 sILV. -/
theorem sIlv_purchases_sale :
    ∃ w', paidMint MarketDeployment.chain (Deployment.user 0) [] [] [⟨.bronze, 1⟩] true sale = .ok w' ∧
      Erc20.Moves (sale.outside.tokens.balances 0x40) (w'.outside.tokens.balances 0x40) 2 0x10 20 := by
  obtain ⟨hiff, hcharge⟩ := @sIlv_purchases _ Deployment.chain 0x60 (Deployment.user 0) [] [] [⟨.bronze, 1⟩] sale
    (Outside.tokenLaws (by decide)) sale_reachable rfl (by decide) (by decide)
  obtain ⟨w', hok⟩ := hiff.2 ⟨sale_ready, by decide⟩
  have hquote : quote sale.outside.feed (priceWord [] [] [⟨.bronze, 1⟩] sale.storage) = 20 := by decide
  obtain ⟨hmoves, -⟩ := hcharge w' hok
  rw [hquote] at hmoves
  exact ⟨w', hok, hmoves⟩

open MarketDeployment in
/-- The deployer of the oracle can stop this purchase and can let it through; the buyer can only let it through. -/
theorem oracle_power_sale :
    (∃ w₁, Governs 0x60 {1} sale w₁ ∧
      ¬∃ w₂, paidMint MarketDeployment.chain (Deployment.user 0) [] [] [⟨.bronze, 1⟩] true w₁ = .ok w₂) ∧
    (∃ w₁, Governs 0x60 {2} sale w₁ ∧
      ∃ w₂, paidMint MarketDeployment.chain (Deployment.user 0) [] [] [⟨.bronze, 1⟩] true w₁ = .ok w₂) ∧
    ¬∃ w₁, Governs 0x60 {2} sale w₁ ∧
      ¬∃ w₂, paidMint MarketDeployment.chain (Deployment.user 0) [] [] [⟨.bronze, 1⟩] true w₁ = .ok w₂ := by
  have hpower := @oracle_power _ Deployment.chain 0x60 (Deployment.user 0) [] [] [⟨.bronze, 1⟩] sale sale_reachable rfl
    (by decide) (by decide)
  have hone : HasManager {1} sale := by
    intro h
    exact h 1 rfl (by decide : (deployed.userRoles 1).getLsbD 16 = true)
  have htwo : ¬HasManager {2} sale := by
    rw [HasManager, not_not]
    rintro _ rfl hbit
    exact absurd hbit (by decide : ¬(deployed.userRoles 2).getLsbD 16 = true)
  refine ⟨(hpower {1}).2.2 (.inr (.inr ⟨hone, by decide⟩)), (hpower {2}).1.2 ⟨sale_ready, .inl (by decide)⟩, ?_⟩
  rw [(hpower {2}).2]
  rintro (hready | hold | ⟨hmanager, -⟩)
  · exact hready sale_ready
  · exact absurd hold (by decide)
  · exact htwo hmanager

end Minter
end Illuvitars
