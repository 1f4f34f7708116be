import Illuvitars.Minter.Outside

/-!
# The authority of the owner

* `Acts`: everything that a successful call does, with the functions of the owner one by one (`call_acts`);
* `Storage.administration`: what only the owner sets, and what nobody sets after the deployment;
* `authority_of_run`: while no call of the owner succeeds, nobody changes the administration and no ether leaves the
  Minter; a Minter without an owner stays as it is.
-/

namespace Illuvitars
namespace Minter

open Evm

variable {X : Type} {chain : Chain X} {msg : Msg} {op : Op} {w w' : World X}

/-! ## The functions of the owner -/

/-- **Everything that the functions of the owner do.** -/
inductive OwnerEffect (chain : Chain X) (w : World X) : Op → World X → Prop
  | saleWindow {saleWindow : SaleWindow} : saleWindow.start.toNat < saleWindow.endTime.toNat →
      OwnerEffect chain w (.setPortraitSaleWindow saleWindow)
        { w with storage := { w.storage with portraitSaleWindow := saleWindow } }
  | limits {freePortraitLimitPerTx freeAccessoryLimitPerTx : Uint256} :
      OwnerEffect chain w (.setFreeMintLimitPerTx freePortraitLimitPerTx freeAccessoryLimitPerTx)
        { w with storage := { w.storage with freePortraitLimitPerTx, freeAccessoryLimitPerTx } }
  | treasury {treasury : Address} : treasury ≠ 0 → OwnerEffect chain w (.setTreasury treasury)
      { w with storage := { w.storage with treasury }, logs := w.logs ++ [.treasurySet treasury] }
  | withdraw {x₁ x₂ : X} : withdrawEther chain w = .ok x₁ → withdrawSIlv chain w.storage x₁ = .ok x₂ →
      OwnerEffect chain w .withdraw { w with balance := 0, outside := x₂ }
  | portraitMintInfo {boxType : BoxType} {mintInfo : PortraitMintInfo} : boxType ≠ .virtual →
      ValidTierChances mintInfo.tierChances → OwnerEffect chain w (.setPortraitMintInfo boxType mintInfo)
        { w with storage := { w.storage with
          portraitMintInfo := Function.update w.storage.portraitMintInfo boxType mintInfo } }
  | accessoryMintInfo {boxType : BoxType} {mintInfo : AccessoryMintInfo} : boxType ≠ .virtual →
      ValidTierChances mintInfo.tierChances → OwnerEffect chain w (.setAccessoryMintInfo boxType mintInfo)
        { w with storage := { w.storage with
          accessoryMintInfo := Function.update w.storage.accessoryMintInfo boxType mintInfo } }
  | transfer {newOwner : Address} : newOwner ≠ 0 →
      OwnerEffect chain w (.transferOwnership newOwner) (setOwner newOwner w)
  | renounce : OwnerEffect chain w .renounceOwnership (setOwner 0 w)

/-- **Everything that a successful call does, and who may make it.** -/
inductive Acts (chain : Chain X) (msg : Msg) (w : World X) : Op → World X → Prop
  | paidMint {ps ss fs useSIlv x₁ x₂} : PaidChecks chain msg ps ss fs w x₁ →
      paySIlv chain msg w.storage (BitVec.ofNat 256 (etherPrice ps ss fs w.storage)) useSIlv x₁ = .ok x₂ →
      Acts chain msg w (.paidMint ps ss fs useSIlv) (paidWorld chain msg ps ss fs w x₂)
  | freeMint {ps ss fs} : msg.value = 0 → PortraitChecks w.storage msg.timestamp true ps →
      AccessoryChecks w.storage true ss fs → w.storage.freeRequestCount.toNat + 1 < 2 ^ 256 →
      Acts chain msg w (.freeMint ps ss fs) (freeWorld chain msg ps ss fs w)
  | fulfil {id r} : FulfilChecks msg id w → Acts chain msg w (.rawFulfillRandomness id r) (fulfilledWorld id r w)
  | owner {op : Op} {w' : World X} : msg.sender = w.storage.owner → msg.value = 0 → OwnerEffect chain w op w' →
      Acts chain msg w op w'

/-- A successful call acts. -/
theorem call_acts (h : call chain msg op w = .ok w') (hw : w.storage.initialized = true) : Acts chain msg w op w' := by
  cases op with
  | paidMint ps ss fs useSIlv =>
    obtain ⟨x₁, x₂, hc, hpay, rfl⟩ := paidMint_ok_iff.1 h
    exact .paidMint hc hpay
  | freeMint ps ss fs =>
    obtain ⟨hv, hp, ha, hn, rfl⟩ := freeMint_ok_iff.1 h
    exact .freeMint hv hp ha hn
  | rawFulfillRandomness id r =>
    obtain ⟨hc, rfl⟩ := rawFulfillRandomness_ok_iff.1 h
    exact .fulfil hc
  | setPortraitSaleWindow saleWindow =>
    simp only [call, setPortraitSaleWindow, bind_ok_iff, nonPayable_ok_iff, onlyOwner_ok_iff, require_ok_iff,
      exists_const, pure_eq_ok, Except.ok.injEq] at h
    obtain ⟨hv, ho, hs, rfl⟩ := h
    exact .owner ho.symm hv (.saleWindow hs)
  | setFreeMintLimitPerTx p a =>
    simp only [call, setFreeMintLimitPerTx, bind_ok_iff, nonPayable_ok_iff, onlyOwner_ok_iff, exists_const,
      pure_eq_ok, Except.ok.injEq] at h
    obtain ⟨hv, ho, rfl⟩ := h
    exact .owner ho.symm hv .limits
  | setTreasury t =>
    simp only [call, setTreasury, bind_ok_iff, nonPayable_ok_iff, onlyOwner_ok_iff, require_ok_iff, exists_const,
      pure_eq_ok, Except.ok.injEq] at h
    obtain ⟨hv, ho, ht, rfl⟩ := h
    exact .owner ho.symm hv (.treasury ht)
  | withdraw =>
    simp only [call, withdraw, bind_ok_iff, nonPayable_ok_iff, onlyOwner_ok_iff, exists_const, pure_eq_ok,
      Except.ok.injEq] at h
    obtain ⟨hv, ho, x₁, h₁, x₂, h₂, rfl⟩ := h
    exact .owner ho.symm hv (.withdraw h₁ h₂)
  | setPortraitMintInfo b info =>
    simp only [call, setPortraitMintInfo, bind_ok_iff, nonPayable_ok_iff, onlyOwner_ok_iff, validateTierChances_ok_iff,
      require_ok_iff, exists_const, pure_eq_ok, Except.ok.injEq] at h
    obtain ⟨hv, ho, hb, hc, rfl⟩ := h
    exact .owner ho.symm hv (.portraitMintInfo hb hc)
  | setAccessoryMintInfo b info =>
    simp only [call, setAccessoryMintInfo, bind_ok_iff, nonPayable_ok_iff, onlyOwner_ok_iff, validateTierChances_ok_iff,
      require_ok_iff, exists_const, pure_eq_ok, Except.ok.injEq] at h
    obtain ⟨hv, ho, hb, hc, rfl⟩ := h
    exact .owner ho.symm hv (.accessoryMintInfo hb hc)
  | transferOwnership o =>
    simp only [call, transferOwnership, bind_ok_iff, nonPayable_ok_iff, onlyOwner_ok_iff, require_ok_iff, exists_const,
      pure_eq_ok, Except.ok.injEq] at h
    obtain ⟨hv, ho, hne, rfl⟩ := h
    exact .owner ho.symm hv (.transfer hne)
  | renounceOwnership =>
    simp only [call, renounceOwnership, bind_ok_iff, nonPayable_ok_iff, onlyOwner_ok_iff, exists_const, pure_eq_ok,
      Except.ok.injEq] at h
    obtain ⟨hv, ho, rfl⟩ := h
    exact .owner ho.symm hv .renounce
  | initializeMinter p =>
    simp only [call, initializeMinter, bind_ok_iff, require_ok_iff, exists_const] at h
    obtain ⟨-, -, hi, -⟩ := h
    rw [hw] at hi
    cases hi

/-- A call that can act does so. -/
theorem Acts.succeeds (h : Acts chain msg w op w') : call chain msg op w = .ok w' := by
  cases h with
  | paidMint hc hpay => exact paidMint_ok_iff.2 ⟨_, _, hc, hpay, rfl⟩
  | freeMint hv hp ha hn => exact freeMint_ok_iff.2 ⟨hv, hp, ha, hn, rfl⟩
  | fulfil hc => exact rawFulfillRandomness_ok_iff.2 ⟨hc, rfl⟩
  | owner hs hv ho =>
    have hvalue : nonPayable msg = .ok () := nonPayable_ok_iff.2 hv
    have howner : onlyOwner msg w.storage = .ok () := onlyOwner_ok_iff.2 hs.symm
    cases ho with
    | saleWindow h => simp only [call, setPortraitSaleWindow, hvalue, howner, require_pos h, ok_bind, pure_eq_ok]
    | limits => simp only [call, setFreeMintLimitPerTx, hvalue, howner, ok_bind, pure_eq_ok]
    | treasury h => simp only [call, setTreasury, hvalue, howner, require_pos h, ok_bind, pure_eq_ok]
    | withdraw h₁ h₂ => simp only [call, withdraw, hvalue, howner, h₁, h₂, ok_bind, pure_eq_ok]
    | portraitMintInfo hb ht =>
      have hchances := validateTierChances_ok_iff (u := ()) |>.2 ht
      simp only [call, setPortraitMintInfo, hvalue, howner, require_pos hb, hchances, ok_bind, pure_eq_ok]
    | accessoryMintInfo hb ht =>
      have hchances := validateTierChances_ok_iff (u := ()) |>.2 ht
      simp only [call, setAccessoryMintInfo, hvalue, howner, require_pos hb, hchances, ok_bind, pure_eq_ok]
    | transfer h => simp only [call, transferOwnership, hvalue, howner, require_pos h, ok_bind, pure_eq_ok]
    | renounce => simp only [call, renounceOwnership, hvalue, howner, ok_bind, pure_eq_ok]

/-- A step is a call that acts, a call that reverts, or a change of the outside. -/
inductive Transition (chain : Chain X) (w : World X) : Label → World X → Prop
  | acts {msg : Msg} {op : Op} {w' : World X} : call chain msg op w = .ok w' → Acts chain msg w op w' →
      Transition chain w (.call msg op) w'
  | reverts {msg : Msg} {op : Op} {e : Revert} : call chain msg op w = .error e → Transition chain w (.call msg op) w
  | outside {x : X} {balance : ℕ} : chain.evolves w.outside x → w.balance ≤ balance →
      Transition chain w .outside { w with outside := x, balance }

theorem step_transition {l : Label} (h : Step chain w l w') (hw : w.storage.initialized = true) :
    Transition chain w l w' := by
  cases h with
  | call msg op =>
    unfold transact
    cases hc : call chain msg op w with
    | ok w' => exact .acts hc (call_acts hc hw)
    | error e => exact .reverts hc
  | outside he hb => exact .outside he hb

/-! ## What only the owner sets -/

/-- The owner, the sale window, the treasury, the free limits, the prices and chances of the boxes, and the price
oracle, the sILV token and the VRF configuration, which are set once. -/
structure Administration where
  owner : Address
  portraitSaleWindow : SaleWindow
  treasury : Address
  freePortraitLimitPerTx : Uint256
  freeAccessoryLimitPerTx : Uint256
  portraitMintInfo : BoxType → PortraitMintInfo
  accessoryMintInfo : BoxType → AccessoryMintInfo
  illuvitarsPriceOracle : Address
  sIlv : Address
  vrfCoordinator : Address
  LINK : Address
  vrfKeyHash : Bytes32
  vrfFee : Uint256

def Storage.administration (s : Storage) : Administration where
  owner := s.owner
  portraitSaleWindow := s.portraitSaleWindow
  treasury := s.treasury
  freePortraitLimitPerTx := s.freePortraitLimitPerTx
  freeAccessoryLimitPerTx := s.freeAccessoryLimitPerTx
  portraitMintInfo := s.portraitMintInfo
  accessoryMintInfo := s.accessoryMintInfo
  illuvitarsPriceOracle := s.illuvitarsPriceOracle
  sIlv := s.sIlv
  vrfCoordinator := s.vrf.vrfCoordinator
  LINK := s.vrf.LINK
  vrfKeyHash := s.vrfKeyHash
  vrfFee := s.vrfFee

/-- Nothing that the owner decides has happened between the two worlds: the administration is the same, no ether has
left, and no decision of an owner has been announced. -/
structure Undecided (w w' : World X) : Prop where
  administration : w'.storage.administration = w.storage.administration
  balance : w.balance ≤ w'.balance
  logs : ∃ es, w'.logs = w.logs ++ es ∧ ∀ e ∈ es, ¬e.Admin

theorem Undecided.refl (w : World X) : Undecided w w :=
  ⟨rfl, Nat.le_refl _, [], (List.append_nil _).symm, fun _ he => by cases he⟩

theorem Undecided.trans {w₁ w₂ w₃ : World X} (h : Undecided w₁ w₂) (h' : Undecided w₂ w₃) : Undecided w₁ w₃ := by
  obtain ⟨es, hes, hadmin⟩ := h.logs
  obtain ⟨fs, hfs, hadmin'⟩ := h'.logs
  refine ⟨h'.administration.trans h.administration, h.balance.trans h'.balance, es ++ fs, ?_, ?_⟩
  · rw [hfs, hes, List.append_assoc]
  · intro e he
    rcases List.mem_append.1 he with he | he
    · exact hadmin e he
    · exact hadmin' e he

/-- A call of somebody else decides nothing. -/
theorem Acts.undecided (h : Acts chain msg w op w') (ho : msg.sender ≠ w.storage.owner) : Undecided w w' := by
  cases h with
  | paidMint hc hpay => exact ⟨rfl, Nat.le_add_right _ _, _, rfl, by simp [Event.Admin]⟩
  | freeMint hv hp ha hn => exact ⟨rfl, Nat.le_refl _, _, rfl, by simp [Event.Admin]⟩
  | fulfil hc => exact ⟨rfl, Nat.le_refl _, _, rfl, by simp [Event.Admin]⟩
  | owner hsender => exact absurd hsender ho

/-- The step is no successful call of the account. -/
def NoCallOf (chain : Chain X) (account : Address) (w : World X) (l : Label) : Prop :=
  ∀ msg op w', l = .call msg op → msg.sender = account → call chain msg op w ≠ .ok w'

theorem Transition.undecided {l : Label} (h : Transition chain w l w') (ho : NoCallOf chain w.storage.owner w l) :
    Undecided w w' := by
  cases h with
  | acts hc ha => exact ha.undecided fun hsender => ho _ _ _ rfl hsender hc
  | reverts => exact .refl w
  | outside _ hb => exact ⟨rfl, hb, [], (List.append_nil _).symm, fun _ he => by cases he⟩

/-- A step without a successful call of the account. -/
def StepWithout (chain : Chain X) (account : Address) (w : World X) (l : Label) (w' : World X) : Prop :=
  Step chain w l w' ∧ NoCallOf chain account w l

/-- **Without a successful call of the owner nothing is decided**, whatever all others do. With the owner renounced,
this is so for every run. -/
theorem authority_of_run {ls : List Label} (h : Reachable chain w)
    (hrun : Lts.Run (StepWithout chain w.storage.owner) w ls w') : Undecided w w' := by
  have hI := hrun.invariant (P := fun _ => True) (I := fun u => Reachable chain u ∧ Undecided w u) ?_
    (fun _ _ => trivial) ⟨h, .refl w⟩
  · exact hI.2
  · rintro u l u' - ⟨hreach, hu⟩ ⟨hs, hwithout⟩
    have howner : u.storage.owner = w.storage.owner := congrArg Administration.owner hu.administration
    have hstep : Undecided u u' :=
      (step_transition hs (Reachable.fixed hreach).1).undecided (by rwa [howner])
    exact ⟨hreach.snoc hs, hu.trans hstep⟩

/-- A user pays for a box and tries to become the treasury, and a call of the owner reverts. -/
def Deployment.intrusion : List (Msg × Op) :=
  [(user 5, .paidMint [] [] [⟨.bronze, 1⟩] false), (user 0, .setTreasury 2), (owner, .setTreasury 0)]

theorem authority_of_run_intrusion :
    (transactions Deployment.chain Deployment.intrusion Deployment.sale).balance = 5 ∧
      Undecided Deployment.sale (transactions Deployment.chain Deployment.intrusion Deployment.sale) := by
  have huser : ∀ value op w, NoCallOf Deployment.chain Deployment.sale.storage.owner w
      (.call (Deployment.user value) op) := by
    rintro value op w msg op' w' he hsender
    cases he
    exact absurd hsender (show (2 : Address) ≠ Deployment.sale.storage.owner by decide)
  have howner : ∀ w, NoCallOf Deployment.chain Deployment.sale.storage.owner w
      (.call Deployment.owner (.setTreasury 0)) := by
    rintro w msg op w' he - hok
    cases he
    simp only [call, setTreasury, bind_ok_iff, require_ok_iff, exists_const] at hok
    obtain ⟨-, -, -, -, hne, -⟩ := hok
    exact hne rfl
  have hrun : Lts.Run (StepWithout Deployment.chain Deployment.sale.storage.owner) Deployment.sale
      (Deployment.intrusion.map fun t => .call t.1 t.2)
      (transactions Deployment.chain Deployment.intrusion Deployment.sale) :=
    .cons ⟨.call _ _ _, huser _ _ _⟩ (.cons ⟨.call _ _ _, huser _ _ _⟩ (.cons ⟨.call _ _ _, howner _⟩ (.nil _)))
  exact ⟨by decide, authority_of_run Deployment.sale_reachable hrun⟩

end Minter
end Illuvitars
