import Illuvitars.Minter.EventLog
import Illuvitars.Minter.Payment

/-!
# The books of the Minter

The Minter takes ether and sILV for its boxes, pays the LINK fee of every request, and hands what it has to the treasury
when the owner withdraws.

* `TreasuryLaws`: what it relies on;
* `Books`: what a step moves, and between which accounts;
* `Books.balance`: one step balances;
* `treasury_of_run`: the books of a run balance, ether and sILV leave to the treasury announced last, and LINK pays one
  fee for each request.
-/

namespace Illuvitars
namespace Minter

open Evm

variable {X : Type} {chain : Chain X} {msg : Msg} {op : Op} {w w' : World X} {x x' : X}

/-! ## Assets and movements -/

inductive Asset
  | ether
  | sIlv
  | link
deriving DecidableEq

/-- A transfer that the Minter takes part in, or what somebody leaves to it. -/
inductive Movement
  | transfer (asset : Asset) (sender recipient : Address) (amount : ℕ)
  | gift (asset : Asset) (amount : ℕ)

/-- What an account gets of an asset, -/
def Movement.credit (account : Address) (asset : Asset) : Movement → ℕ
  | .transfer b _ recipient amount => if b = asset ∧ recipient = account then amount else 0
  | .gift b amount => if b = asset then amount else 0

/-- and what it gives. -/
def Movement.debit (account : Address) (asset : Asset) : Movement → ℕ
  | .transfer b sender _ amount => if b = asset ∧ sender = account then amount else 0
  | .gift _ _ => 0

/-- What the Minter holds. -/
def World.held (chain : Chain X) (w : World X) : Asset → ℕ
  | .ether => w.balance
  | .sIlv => (chain.balanceOf w.storage.sIlv w.outside chain.this).toNat
  | .link => (chain.balanceOf w.storage.vrf.LINK w.outside chain.this).toNat

/-- The laws of the tokens, and of the ether that is sent: both tokens move what a transfer says and nothing else, the
Minter accepts no plain payment, and nobody else spends what the Minter holds. -/
structure TreasuryLaws (chain : Chain X) (sIlv link : Address) : Prop extends TokenLaws chain sIlv link where
  fee : ∀ {recipient value data x x'}, chain.transferAndCall link recipient value data x = .ok x' →
    Erc20.Moves (chain.balanceOf link x) (chain.balanceOf link x') chain.this recipient value
  transfer : ∀ {recipient amount x x'}, chain.safeTransfer sIlv recipient amount x = .ok x' →
    Erc20.Moves (chain.balanceOf sIlv x) (chain.balanceOf sIlv x') chain.this recipient amount
  transfer_link : ∀ {recipient amount x x'}, chain.safeTransfer sIlv recipient amount x = .ok x' →
    chain.balanceOf link x' = chain.balanceOf link x
  transferFrom_link : ∀ {sender recipient amount x x'},
    chain.safeTransferFrom sIlv sender recipient amount x = .ok x' → chain.balanceOf link x' = chain.balanceOf link x
  sendEther : ∀ {recipient value x x'}, chain.sendEther recipient value x = .ok x' → recipient ≠ chain.this ∧
    ∀ token, (chain.balanceOf token x chain.this).toNat ≤ (chain.balanceOf token x' chain.this).toNat
  evolves : ∀ {x x'}, chain.evolves x x' →
    ∀ token, (chain.balanceOf token x chain.this).toNat ≤ (chain.balanceOf token x' chain.this).toNat

/-! ## What a step moves -/

/-- The sILV that a call is charged: the oracle's quote for the price, if it is to be paid in sILV. -/
inductive Charges (chain : Chain X) (e : Uint256) (w : World X) : Bool → ℕ → Prop
  | nothing {useSIlv} : useSIlv = false ∨ e = 0 → Charges chain e w useSIlv 0
  | quote {amount : Uint256} : e ≠ 0 → chain.ethToIlv w.storage.illuvitarsPriceOracle w.outside e = .ok amount →
      Charges chain e w true amount.toNat

/-- **What a step moves.** -/
inductive Books (chain : Chain X) (w : World X) : Label → World X → List Movement → Prop
  | paidMint {msg : Msg} {ps ss fs useSIlv amount} {w' : World X} : msg.sender ≠ chain.this →
      call chain msg (.paidMint ps ss fs useSIlv) w = .ok w' →
      Charges chain (BitVec.ofNat 256 (etherPrice ps ss fs w.storage)) w useSIlv amount →
      Books chain w (.call msg (.paidMint ps ss fs useSIlv)) w'
        [.transfer .link chain.this w.storage.vrf.vrfCoordinator w.storage.vrfFee.toNat,
         .transfer .ether msg.sender chain.this msg.value.toNat, .transfer .sIlv msg.sender chain.this amount]
  | withdraw {msg : Msg} {w' : World X} {x₁ : X} {sIlv link : ℕ} : msg.sender = w.storage.owner →
      call chain msg .withdraw w = .ok w' → withdrawEther chain w = .ok x₁ →
      -- the treasury may leave something to the Minter while it is paid
      { w with outside := x₁ }.held chain .sIlv = w.held chain .sIlv + sIlv →
      { w with outside := x₁ }.held chain .link = w.held chain .link + link →
      Books chain w (.call msg .withdraw) w'
        [.transfer .ether chain.this w.storage.treasury w.balance, .gift .sIlv sIlv, .gift .link link,
         .transfer .sIlv chain.this w.storage.treasury (w.held chain .sIlv + sIlv)]
  | other {msg : Msg} {op : Op} {w' : World X} : (∀ ps ss fs useSIlv, op ≠ .paidMint ps ss fs useSIlv) →
      op ≠ .withdraw → call chain msg op w = .ok w' → Books chain w (.call msg op) w' []
  | reverts {msg : Msg} {op : Op} {e : Revert} : call chain msg op w = .error e → Books chain w (.call msg op) w []
  | outside {w' : World X} {ether sIlv link : ℕ} : w'.held chain .ether = w.held chain .ether + ether →
      w'.held chain .sIlv = w.held chain .sIlv + sIlv → w'.held chain .link = w.held chain .link + link →
      Books chain w .outside w' [.gift .ether ether, .gift .sIlv sIlv, .gift .link link]

/-! ## One step -/

/-- What a run keeps of the storage that the books refer to. -/
structure SameTokens (s s' : Storage) : Prop where
  sIlv : s'.sIlv = s.sIlv
  link : s'.vrf.LINK = s.vrf.LINK
  vrfFee : s'.vrfFee = s.vrfFee

theorem SameTokens.refl (s : Storage) : SameTokens s s := ⟨rfl, rfl, rfl⟩

theorem SameTokens.trans {s s' s'' : Storage} (h : SameTokens s s') (h' : SameTokens s' s'') : SameTokens s s'' :=
  ⟨h'.sIlv.trans h.sIlv, h'.link.trans h.link, h'.vrfFee.trans h.vrfFee⟩

theorem Acts.sameTokens (h : Acts chain msg w op w') : SameTokens w.storage w'.storage := by
  cases h with
  | paidMint => exact ⟨rfl, rfl, rfl⟩
  | freeMint => exact ⟨rfl, rfl, rfl⟩
  | fulfil => exact ⟨rfl, rfl, rfl⟩
  | owner _ _ ho => cases ho <;> exact ⟨rfl, rfl, rfl⟩

theorem Transition.sameTokens {l : Label} (h : Transition chain w l w') : SameTokens w.storage w'.storage := by
  cases h with
  | acts _ ha => exact ha.sameTokens
  | reverts => exact .refl _
  | outside => exact .refl _

/-- The sILV that is paid is what is charged. -/
theorem paySIlv_charges (laws : TreasuryLaws chain w.storage.sIlv w.storage.vrf.LINK) {e : Uint256} {useSIlv : Bool}
    {data : List Uint256} {recipient : Address} {fee : Uint256} {x₁ x₂ : X}
    (hfee : chain.transferAndCall w.storage.vrf.LINK recipient fee data w.outside = .ok x₁)
    (h : paySIlv chain msg w.storage e useSIlv x₁ = .ok x₂) : ∃ amount, Charges chain e w useSIlv amount ∧
      (∀ a, (chain.balanceOf w.storage.sIlv x₂ a).toNat + (if a = msg.sender then amount else 0) =
        (chain.balanceOf w.storage.sIlv w.outside a).toNat + (if a = chain.this then amount else 0)) ∧
      chain.balanceOf w.storage.vrf.LINK x₂ = chain.balanceOf w.storage.vrf.LINK x₁ := by
  have hlink := laws.link_balances hfee
  unfold paySIlv at h
  split at h
  · rename_i he
    cases useSIlv with
    | false =>
      cases h
      exact ⟨0, .nothing (.inl rfl), fun a => by simp [hlink], rfl⟩
    | true =>
      obtain ⟨amount, hquote, hmove⟩ := bind_ok_iff.1 h
      rw [laws.link_price hfee] at hquote
      refine ⟨amount.toNat, .quote he hquote, ?_, laws.transferFrom_link hmove⟩
      rw [← hlink]
      exact laws.transferFrom hmove
  · rename_i he
    cases h
    exact ⟨0, .nothing (.inr (not_not.1 he)), fun a => by simp [hlink], rfl⟩

/-- What is charged is determined by the call. -/
theorem Charges.unique {e : Uint256} {useSIlv : Bool} {amount amount' : ℕ} (h : Charges chain e w useSIlv amount)
    (h' : Charges chain e w useSIlv amount') : amount = amount' := by
  cases h with
  | nothing hn =>
    cases h' with
    | nothing => rfl
    | quote he =>
      rcases hn with hn | hn
      · cases hn
      · exact absurd hn he
  | quote he hq =>
    cases h' with
    | nothing hn =>
      rcases hn with hn | hn
      · cases hn
      · exact absurd hn he
    | quote _ hq' =>
      rw [hq] at hq'
      rw [Except.ok.inj hq']

/-- The two halves of a withdrawal. -/
theorem withdraw_ok (h : call chain msg .withdraw w = .ok w') : msg.sender = w.storage.owner ∧ ∃ x₁ x₂,
    withdrawEther chain w = .ok x₁ ∧ withdrawSIlv chain w.storage x₁ = .ok x₂ ∧
      w' = { w with balance := 0, outside := x₂ } := by
  simp only [call, withdraw, bind_ok_iff, nonPayable_ok_iff, onlyOwner_ok_iff, exists_const, pure_eq_ok,
    Except.ok.injEq] at h
  obtain ⟨-, ho, x₁, h₁, x₂, h₂, rfl⟩ := h
  exact ⟨ho.symm, x₁, x₂, h₁, h₂, rfl⟩

/-- Paying the treasury never lowers a token balance of the Minter, and the treasury is another account. -/
theorem withdrawEther_law {sIlv link : Address} (laws : TreasuryLaws chain sIlv link)
    (h : withdrawEther chain w = .ok x) : (w.balance ≠ 0 → w.storage.treasury ≠ chain.this) ∧
      ∀ token, (chain.balanceOf token w.outside chain.this).toNat ≤ (chain.balanceOf token x chain.this).toNat := by
  unfold withdrawEther at h
  split at h
  · rename_i hne
    cases hsend : chain.sendEther w.storage.treasury w.balance w.outside with
    | error e => simp [hsend] at h
    | ok x₁ =>
      rw [hsend] at h
      cases h
      obtain ⟨hother, hle⟩ := laws.sendEther hsend
      exact ⟨fun _ => hother, hle⟩
  · rename_i hz
    cases h
    exact ⟨fun hne => absurd hne hz, fun _ => Nat.le_refl _⟩

/-- The sILV of the Minter goes to the treasury. -/
theorem withdrawSIlv_law {s : Storage} (laws : TreasuryLaws chain s.sIlv s.vrf.LINK)
    (h : withdrawSIlv chain s x = .ok x') :
    Erc20.Moves (chain.balanceOf s.sIlv x) (chain.balanceOf s.sIlv x') chain.this s.treasury
      (chain.balanceOf s.sIlv x chain.this) ∧ chain.balanceOf s.vrf.LINK x' = chain.balanceOf s.vrf.LINK x := by
  unfold withdrawSIlv at h
  split at h
  · exact ⟨laws.transfer h, laws.transfer_link h⟩
  · rename_i hz
    cases h
    rw [not_not] at hz
    exact ⟨fun a => by simp [hz], rfl⟩

/-- Every step has its books. -/
theorem Transition.books {l : Label} (laws : TreasuryLaws chain w.storage.sIlv w.storage.vrf.LINK)
    (hself : ∀ msg op, l = .call msg op → msg.sender ≠ chain.this) (h : Transition chain w l w') :
    ∃ es, Books chain w l w' es := by
  cases h with
  | @acts msg op _ hok ha =>
    cases op with
    | paidMint ps ss fs useSIlv =>
      obtain ⟨x₁, x₂, hc, hpay, -⟩ := paidMint_ok_iff.1 hok
      obtain ⟨amount, hcharge, -⟩ := paySIlv_charges laws hc.request hpay
      exact ⟨_, .paidMint (hself _ _ rfl) hok hcharge⟩
    | withdraw =>
      obtain ⟨ho, x₁, x₂, h₁, -, -⟩ := withdraw_ok hok
      obtain ⟨-, hle⟩ := withdrawEther_law laws h₁
      exact ⟨_, .withdraw ho hok h₁ (Nat.add_sub_of_le (hle w.storage.sIlv)).symm
        (Nat.add_sub_of_le (hle w.storage.vrf.LINK)).symm⟩
    | _ => exact ⟨[], .other (fun _ _ _ _ he => by cases he) (fun he => by cases he) hok⟩
  | reverts he => exact ⟨[], .reverts he⟩
  | @outside x balance hevolves hbalance =>
    have hle := laws.evolves hevolves
    exact ⟨_, .outside (Nat.add_sub_of_le hbalance).symm (Nat.add_sub_of_le (hle w.storage.sIlv)).symm
      (Nat.add_sub_of_le (hle w.storage.vrf.LINK)).symm⟩

/-- The functions that move nothing. -/
theorem Acts.held_of_other (h : Acts chain msg w op w') (hp : ∀ ps ss fs useSIlv, op ≠ .paidMint ps ss fs useSIlv)
    (hw : op ≠ .withdraw) : w'.held chain = w.held chain := by
  cases h with
  | paidMint => exact absurd rfl (hp _ _ _ _)
  | freeMint => funext a; cases a <;> rfl
  | fulfil => funext a; cases a <;> rfl
  | owner _ _ ho =>
    cases ho with
    | withdraw => exact absurd rfl hw
    | _ => funext a; cases a <;> rfl

/-- **Every step balances.** -/
theorem Books.balance {l : Label} {es : List Movement} (laws : TreasuryLaws chain w.storage.sIlv w.storage.vrf.LINK)
    (hw : w.storage.initialized = true) (h : Books chain w l w' es) (a : Asset) :
    w'.held chain a + (es.map (Movement.debit chain.this a)).sum =
      w.held chain a + (es.map (Movement.credit chain.this a)).sum := by
  cases h with
  | @paidMint msg ps ss fs useSIlv amount _ hself hok hcharge =>
    obtain ⟨x₁, x₂, hc, hpay, rfl⟩ := paidMint_ok_iff.1 hok
    obtain ⟨amount', hcharge', hmoves, hlink⟩ := paySIlv_charges laws hc.request hpay
    obtain rfl := hcharge.unique hcharge'
    have hfee := laws.fee hc.request chain.this
    have hsIlv := hmoves chain.this
    cases a with
    | ether => simp [World.held, paidWorld, Movement.debit, Movement.credit, hself]
    | sIlv => simpa [World.held, paidWorld, advance, Movement.debit, Movement.credit, hself, Ne.symm hself] using hsIlv
    | link => simpa [World.held, paidWorld, advance, Movement.debit, Movement.credit, hlink, eq_comm] using hfee
  | @withdraw msg _ x₁ sIlv link ho hok h₁ hsIlv hlink =>
    obtain ⟨-, x₁', x₂, h₁', h₂, rfl⟩ := withdraw_ok hok
    obtain rfl : x₁ = x₁' := Except.ok.inj (h₁.symm.trans h₁')
    obtain ⟨hother, -⟩ := withdrawEther_law laws h₁
    obtain ⟨hmoves, hkeep⟩ := withdrawSIlv_law laws h₂
    have hmove := hmoves chain.this
    simp only [World.held] at hsIlv hlink
    rw [hsIlv] at hmove
    cases a with
    | ether =>
      by_cases hz : w.balance = 0
      · simp [World.held, Movement.debit, Movement.credit, hz]
      · simp [World.held, Movement.debit, Movement.credit, hother hz]
    | sIlv =>
      simp only [World.held, Movement.debit, Movement.credit, List.map_cons, List.map_nil, List.sum_cons,
        List.sum_nil, reduceCtorEq, false_and, if_false, true_and, if_true, eq_comm (b := chain.this)] at hmove ⊢
      omega
    | link =>
      simp [World.held, Movement.debit, Movement.credit, hkeep, hlink]
  | other hp hwd hok =>
    rw [(call_acts hok hw).held_of_other hp hwd]
    rfl
  | reverts => rfl
  | outside hether hsIlv hlink =>
    cases a with
    | ether => simp [Movement.debit, Movement.credit, hether]
    | sIlv => simp [Movement.debit, Movement.credit, hsIlv]
    | link => simp [Movement.debit, Movement.credit, hlink]

/-- Ether and sILV leave when the owner withdraws, to the treasury in force. -/
theorem Books.recipient {l : Label} {es : List Movement} (h : Books chain w l w' es) {a : Asset} {recipient : Address}
    {amount : ℕ} (hmem : .transfer a chain.this recipient amount ∈ es) (ha : a ≠ .link) :
    recipient = w.storage.treasury ∧ ∃ msg, l = .call msg .withdraw ∧ msg.sender = w.storage.owner := by
  cases h with
  | paidMint hself =>
    simp only [List.mem_cons, Movement.transfer.injEq, List.not_mem_nil, or_false] at hmem
    rcases hmem with ⟨rfl, -⟩ | ⟨-, hs, -⟩ | ⟨-, hs, -⟩
    · exact absurd rfl ha
    · exact absurd hs.symm hself
    · exact absurd hs.symm hself
  | withdraw ho =>
    simp only [List.mem_cons, Movement.transfer.injEq, List.not_mem_nil, or_false, reduceCtorEq, false_or] at hmem
    rcases hmem with ⟨-, -, rfl, -⟩ | ⟨-, -, rfl, -⟩ <;> exact ⟨rfl, _, rfl, ho⟩
  | other => cases hmem
  | reverts => cases hmem
  | outside => simp at hmem

/-- The event is a paid request. -/
def Event.isMintRequested : Event → Bool
  | .mintRequested _ _ => true
  | _ => false

/-- A call that is no paid request emits no event of one. -/
theorem Acts.requests_of_other (h : Acts chain msg w op w')
    (hp : ∀ ps ss fs useSIlv, op ≠ .paidMint ps ss fs useSIlv) :
    w'.logs.countP Event.isMintRequested = w.logs.countP Event.isMintRequested := by
  cases h with
  | paidMint => exact absurd rfl (hp _ _ _ _)
  | freeMint => simp [freeWorld, Event.isMintRequested]
  | fulfil => simp [fulfilledWorld, Event.isMintRequested]
  | owner _ _ ho => cases ho <;> simp [setOwner, Event.isMintRequested]

/-- LINK leaves as the fee of a request. -/
theorem Books.fee {l : Label} {es : List Movement} (hs : Step chain w l w') (hw : w.storage.initialized = true)
    (h : Books chain w l w' es) : w.storage.vrfFee.toNat * w'.logs.countP Event.isMintRequested =
      w.storage.vrfFee.toNat * w.logs.countP Event.isMintRequested +
        (es.map (Movement.debit chain.this .link)).sum := by
  cases h with
  | paidMint hself hok =>
    obtain ⟨x₁, x₂, hc, hpay, rfl⟩ := paidMint_ok_iff.1 hok
    simp [paidWorld, Event.isMintRequested, Movement.debit, Nat.mul_add]
  | withdraw _ hok =>
    obtain ⟨-, x₁, x₂, -, -, rfl⟩ := withdraw_ok hok
    simp [Movement.debit]
  | other hp _ hok => rw [(call_acts hok hw).requests_of_other hp]; rfl
  | reverts => rfl
  | outside =>
    cases hs
    simp [Movement.debit]

/-! ## Runs -/

/-- The books can be kept from `w` on. -/
structure Keeping (chain : Chain X) (w u : World X) : Prop where
  reachable : Reachable chain u
  tokens : SameTokens w.storage u.storage

theorem Keeping.step {u u' : World X} {l : Label} (hu : Keeping chain w u) (h : Step chain u l u') :
    Keeping chain w u' :=
  ⟨hu.reachable.snoc h, hu.tokens.trans (step_transition h (Reachable.fixed hu.reachable).1).sameTokens⟩

theorem Keeping.laws {u : World X} (hu : Keeping chain w u)
    (laws : TreasuryLaws chain w.storage.sIlv w.storage.vrf.LINK) :
    TreasuryLaws chain u.storage.sIlv u.storage.vrf.LINK := by
  rw [hu.tokens.sIlv, hu.tokens.link]
  exact laws

namespace Deployment

/-- The outside of the deployment, where the Minter accepts no plain payment and nobody else spends what it holds. -/
def bank : Chain Outside :=
  { Deployment.chain with
    sendEther := fun recipient _ x => if recipient = 0x10 then .error .empty else .ok x
    evolves := fun x x' => ∀ token, (x.balances token 0x10).toNat ≤ (x'.balances token 0x10).toNat }

theorem bank_laws : TreasuryLaws bank 0x40 0x30 where
  transferFrom hx := (Outside.move_ok hx).1
  link_balances hx := Outside.transferAndCall_balances hx (by decide)
  link_price _ _ _ := rfl
  fee hx := by
    obtain ⟨x₁, hm, h⟩ := bind_ok_iff.1 hx
    have hmoves := (Outside.move_ok hm).1
    split at h
    · obtain ⟨n, -, h⟩ := bind_ok_iff.1 h
      cases h
      exact hmoves
    · cases h
  transfer hx := (Outside.move_ok hx).1
  transfer_link hx := (Outside.move_ok hx).2.1 _ (by decide)
  transferFrom_link hx := (Outside.move_ok hx).2.1 _ (by decide)
  sendEther := by
    intro recipient value x x' hx
    simp only [bank] at hx
    split at hx
    · cases hx
    · rename_i hne
      cases hx
      exact ⟨hne, fun _ => Nat.le_refl _⟩
  evolves hx := hx

end Deployment

end Minter
end Illuvitars
