import Illuvitars.Lib.Sequential
import Illuvitars.Minter.Authority
import Illuvitars.Minter.Callbacks

/-!
# Callbacks add nothing to the record

What the Minter records when the contracts that it pays call it back, it could also record without. A purchase that is
called back takes effect between its two payments, after what the coordinator does and before what the sILV token does;
a withdrawal changes no storage. So the calls that have taken effect can be made one after the other, by accounts that
are never called.

* `permissive`: an environment that accepts every payment, where the sequence of calls is made, since the tokens may
  find themselves in states there that are not those of the run;
* `Serial`: the sequence leads to the storage of the run; `keeps_serial`: every call keeps that, if its callees do;
* `sees_serial`: and every callee finds it so;
* `reentrancy_safe`: the storages reached with callbacks are those reached without, and no callee finds any other.
-/

namespace Illuvitars
namespace Minter
namespace Reentrant

open Evm Callbacks

variable {X : Type} {chain : Chain X} {callees : Place → World X → Exec (World X)} {msg : Msg} {op : Op}
  {w w' : World X}

/-! ## The permissive environment -/

/-- An environment that accepts every payment and has no state. -/
def permissive (chain : Chain X) : Chain Unit where
  this := chain.this
  keccak256 := chain.keccak256
  transferAndCall _ _ _ _ _ := .ok ()
  ethToIlv _ _ _ := .ok 0
  balanceOf _ _ _ := 0
  safeTransfer _ _ _ _ := .ok ()
  safeTransferFrom _ _ _ _ _ := .ok ()
  sendEther _ _ _ := .ok ()
  deployed _ := True
  evolves _ _ := True

/-- The Minter there, before it has received any ether. -/
def bare (w : World X) : World Unit := ⟨w.storage, 0, w.logs, ()⟩

/-- The calls of the Minter as a contract that hands over to nobody. -/
abbrev plain (chain : Chain X) : Reentrancy.Contract (World X) (Msg × Op) := fun c _ => Minter.call chain c.1 c.2

theorem paySIlv_permissive (s : Storage) (e : Uint256) (b : Bool) :
    Minter.paySIlv (permissive chain) msg s e b () = .ok () := by
  unfold Minter.paySIlv
  split
  · split
    · rfl
    · rfl
  · rfl

/-- What is recorded between the payments is recorded there. -/
theorem paidMint_permissive {ps ss fs} {s' : Storage} {etherPrice : Uint256} {requestId : Bytes32} {useSIlv : Bool}
    {u : World Unit}
    (h : recordRequest chain msg u.storage.vrfKeyHash ps ss fs u.storage = .ok (s', etherPrice, requestId)) :
    Minter.paidMint (permissive chain) msg ps ss fs useSIlv u = .ok
      { storage := s'
        balance := u.balance + msg.value.toNat
        logs := u.logs ++ [.mintRequested msg.sender requestId]
        outside := () } := by
  have h' : recordRequest (permissive chain) msg u.storage.vrfKeyHash ps ss fs u.storage =
    .ok (s', etherPrice, requestId) := h
  rw [← paidMint_accept]
  unfold paidMint
  dsimp only
  have : (permissive chain).transferAndCall u.storage.vrf.LINK u.storage.vrf.vrfCoordinator u.storage.vrfFee
      [u.storage.vrfKeyHash, VRFConsumerBase.USER_SEED_PLACEHOLDER] u.outside = .ok () := rfl
  rw [this, ok_bind, ok_bind]
  dsimp only
  rw [h', ok_bind]
  dsimp only
  rw [paySIlv_accept, paySIlv_permissive, ok_bind, ok_bind]
  rfl

theorem withdraw_permissive {u : World Unit} (hv : msg.value = 0) (ho : u.storage.owner = msg.sender) :
    Minter.withdraw (permissive chain) msg u = .ok { u with balance := 0 } := by
  have hvalue : nonPayable msg = .ok () := nonPayable_ok_iff.2 hv
  have howner : onlyOwner msg u.storage = .ok () := onlyOwner_ok_iff.2 ho
  have hether : Minter.withdrawEther (permissive chain) u = .ok () := by
    unfold Minter.withdrawEther
    split
    · rfl
    · rfl
  have hsIlv : Minter.withdrawSIlv (permissive chain) u.storage () = .ok () := by
    unfold Minter.withdrawSIlv
    split
    · rfl
    · rfl
  simp only [Minter.withdraw, hvalue, howner, hether, hsIlv, ok_bind, pure_eq_ok]

/-- The function calls nobody. -/
def CallsNobody : Op → Prop
  | .paidMint _ _ _ _ | .withdraw => False
  | _ => True

/-- A call that emits nothing. -/
theorem acts_quiet (hlogs : w'.logs = w.logs)
    (h : ∀ balance logs, Acts (permissive chain) msg ⟨w.storage, balance, logs, ()⟩ op
      ⟨w'.storage, balance, logs, ()⟩) :
    ∃ es, w'.logs = w.logs ++ es ∧ ∀ balance logs, Acts (permissive chain) msg ⟨w.storage, balance, logs, ()⟩ op
      ⟨w'.storage, balance, logs ++ es, ()⟩ := by
  refine ⟨[], by rw [hlogs, List.append_nil], fun balance logs => ?_⟩
  rw [List.append_nil]
  exact h balance logs

/-- **A function that calls nobody does there what it does here.** -/
theorem acts_permissive (hop : CallsNobody op) (h : Acts chain msg w op w') :
    ∃ es, w'.logs = w.logs ++ es ∧ ∀ balance logs, Acts (permissive chain) msg ⟨w.storage, balance, logs, ()⟩ op
      ⟨w'.storage, balance, logs ++ es, ()⟩ := by
  cases h with
  | paidMint => cases hop
  | freeMint hv hp ha hn => exact ⟨[_], rfl, fun _ _ => .freeMint hv hp ha hn⟩
  | fulfil hc => exact ⟨[_], rfl, fun _ _ => .fulfil ⟨hc.value, hc.coordinator, hc.exist, hc.unfulfilled⟩⟩
  | owner hs hv ho =>
    cases ho with
    | saleWindow h => exact acts_quiet rfl fun _ _ => .owner hs hv (.saleWindow h)
    | limits => exact acts_quiet rfl fun _ _ => .owner hs hv .limits
    | treasury h => exact ⟨[_], rfl, fun _ _ => .owner hs hv (.treasury h)⟩
    | withdraw => cases hop
    | portraitMintInfo hb ht => exact acts_quiet rfl fun _ _ => .owner hs hv (.portraitMintInfo hb ht)
    | accessoryMintInfo hb ht => exact acts_quiet rfl fun _ _ => .owner hs hv (.accessoryMintInfo hb ht)
    | transfer h => exact ⟨[_], rfl, fun _ _ => .owner hs hv (.transfer h)⟩
    | renounce => exact ⟨[_], rfl, fun _ _ => .owner hs hv .renounce⟩

/-! ## The run and the sequence together -/

/-- Calls in `Q`, made one after the other in the permissive environment, lead from `w₀` to the storage of `w`. They
emit the same events, with the ones that are due, in some order. -/
structure Serial (Q : Msg × Op → Prop) (w₀ : World X) (due : List Event) (chain : Chain X) (w : World X) : Prop where
  initialized : w.storage.initialized = true
  keyHash : w.storage.vrfKeyHash = w₀.storage.vrfKeyHash
  calls : ∃ cs u, (∀ c ∈ cs, Q c) ∧ Reentrancy.sequential (plain (permissive chain)) cs (bare w₀) = .ok u ∧
    u.storage = w.storage ∧ u.logs.Perm (w.logs ++ due)

variable {Q : Msg × Op → Prop} {w₀ : World X} {due due' : List Event}

/-- The balance and the outside do not matter. -/
theorem Serial.congr (h : Serial Q w₀ due chain w) (hstorage : w'.storage = w.storage) (hlogs : w'.logs = w.logs) :
    Serial Q w₀ due chain w' := by
  refine ⟨?_, ?_, ?_⟩
  · rw [hstorage]
    exact h.initialized
  · rw [hstorage]
    exact h.keyHash
  · rw [hstorage, hlogs]
    exact h.calls

/-- One more call of the sequence. -/
theorem Serial.extend {es : List Event} (h : Serial Q w₀ due chain w) (hQ : Q (msg, op))
    (hcall : ∀ u : World Unit, u.storage = w.storage → ∃ u', Minter.call (permissive chain) msg op u = .ok u' ∧
      u'.storage = w'.storage ∧ u'.logs = u.logs ++ es)
    (hlogs : (w.logs ++ due ++ es).Perm (w'.logs ++ due')) : Serial Q w₀ due' chain w' := by
  obtain ⟨cs, u, hcs, hseq, hstorage, hperm⟩ := h.calls
  obtain ⟨u', hok, hstorage', hes⟩ := hcall u hstorage
  have hfixed := (call_effect hok (hstorage ▸ h.initialized)).fixed
  refine ⟨?_, ?_, cs ++ [(msg, op)], u', ?_, Reentrancy.sequential_extend hseq hok, hstorage', ?_⟩
  · rw [← hstorage', hfixed.1, hstorage]
    exact h.initialized
  · rw [← hstorage', hfixed.2.2.1, hstorage]
    exact h.keyHash
  · intro c hc
    rcases List.mem_append.1 hc with hc | hc
    · exact hcs c hc
    · rw [List.mem_singleton.1 hc]
      exact hQ
  · rw [hes]
    exact (hperm.append_right es).trans hlogs

/-- A payment in sILV keeps what its callee keeps. -/
theorem paySIlv_keeps {I : World X → Prop} (hcallee : ∀ w w', I w → callees .sIlvPayment w = .ok w' → I w')
    (hoff : ∀ w x, I w → I { w with outside := x }) {e : Uint256} {b : Bool} (hw : I w)
    (h : paySIlv chain callees msg e b w = .ok w') : I w' := by
  unfold paySIlv at h
  split at h
  · split at h
    · obtain ⟨amount, -, h⟩ := bind_ok_iff.1 h
      obtain ⟨x, -, h⟩ := bind_ok_iff.1 h
      exact hcallee _ _ (hoff w x hw) h
    · cases h
      exact hw
  · cases h
    exact hw

/-- So does a payment in ether, -/
theorem withdrawEther_keeps {I : World X → Prop} (hcallee : ∀ w w', I w → callees .treasury w = .ok w' → I w')
    (hoff : ∀ w balance x, I w → I { w with balance, outside := x }) (hw : I w)
    (h : withdrawEther chain callees w = .ok w') : I w' := by
  unfold withdrawEther at h
  split at h
  · split at h
    · rename_i w₁ hsend
      obtain ⟨x, -, hreceive⟩ := bind_ok_iff.1 hsend
      cases h
      exact hcallee _ _ (hoff w 0 x hw) hreceive
    · cases h
  · cases h
    exact hw

/-- and the payment of the treasury in sILV. -/
theorem withdrawSIlv_keeps {I : World X → Prop} (hcallee : ∀ w w', I w → callees .sIlvPayout w = .ok w' → I w')
    (hoff : ∀ w x, I w → I { w with outside := x }) (hw : I w) (h : withdrawSIlv chain callees w = .ok w') : I w' := by
  unfold withdrawSIlv at h
  split at h
  · obtain ⟨x, -, hreceive⟩ := bind_ok_iff.1 h
    exact hcallee _ _ (hoff w x hw) hreceive
  · cases h
    exact hw

/-- What is recorded between the payments is one more call. Its event is due until the sILV is paid. -/
theorem Serial.record {ps ss fs} {useSIlv : Bool} {w₁ : World X} {s : Storage} {etherPrice : Uint256}
    {requestId : Bytes32} (hw : Serial Q w₀ due chain w) (hw₁ : Serial Q w₀ due chain w₁)
    (hQ : Q (msg, .paidMint ps ss fs useSIlv))
    (h : recordRequest chain msg w.storage.vrfKeyHash ps ss fs w₁.storage = .ok (s, etherPrice, requestId)) :
    Serial Q w₀ (.mintRequested msg.sender requestId :: due) chain { w₁ with storage := s } := by
  have hkey : w.storage.vrfKeyHash = w₁.storage.vrfKeyHash := hw.keyHash.trans hw₁.keyHash.symm
  rw [hkey] at h
  refine hw₁.extend hQ (fun u hu => ⟨_, paidMint_permissive (hu ▸ h), rfl, rfl⟩) ?_
  rw [List.append_assoc]
  exact (List.perm_append_singleton _ due).append_left w₁.logs

section Keeps

variable (hcallees : ∀ p due w w', Serial Q w₀ due chain w → callees p w = .ok w' → Serial Q w₀ due chain w')
include hcallees

/-- A purchase comes after what the coordinator does in the middle of it, and before what the sILV token does. -/
theorem Serial.paidMint {ps ss fs} {useSIlv : Bool} (hw : Serial Q w₀ due chain w)
    (hQ : Q (msg, .paidMint ps ss fs useSIlv))
    (h : Reentrant.paidMint chain callees msg ps ss fs useSIlv w = .ok w') : Serial Q w₀ due chain w' := by
  simp only [Reentrant.paidMint, bind_ok_iff, Prod.exists, pure_eq_ok, Except.ok.injEq] at h
  obtain ⟨x, -, w₁, h₁, s, etherPrice, requestId, hrecord, w₂, hpay, rfl⟩ := h
  have hpaid : Serial Q w₀ due chain { w with balance := w.balance + msg.value.toNat, outside := x } :=
    hw.congr rfl rfl
  have hw₁ : Serial Q w₀ due chain w₁ := hcallees .link due _ w₁ hpaid h₁
  have hrecorded := hw.record hw₁ hQ hrecord
  have hw₂ := paySIlv_keeps (hcallees .sIlvPayment _) (fun _ _ h => h.congr rfl rfl) hrecorded hpay
  refine ⟨hw₂.initialized, hw₂.keyHash, ?_⟩
  obtain ⟨cs, u, hcs, hseq, hstorage, hperm⟩ := hw₂.calls
  rw [List.append_cons] at hperm
  exact ⟨cs, u, hcs, hseq, hstorage, hperm⟩

/-- A withdrawal comes before what the treasury does in the middle of it. -/
theorem Serial.withdraw (hw : Serial Q w₀ due chain w) (hQ : Q (msg, .withdraw))
    (h : Reentrant.withdraw chain callees msg w = .ok w') : Serial Q w₀ due chain w' := by
  simp only [Reentrant.withdraw, bind_ok_iff, nonPayable_ok_iff, onlyOwner_ok_iff, exists_const] at h
  obtain ⟨hv, ho, w₁, h₁, h₂⟩ := h
  have hcall : ∀ u : World Unit, u.storage = w.storage → ∃ u', Minter.call (permissive chain) msg .withdraw u = .ok u' ∧
      u'.storage = w.storage ∧ u'.logs = u.logs ++ [] :=
    fun u hu => ⟨_, withdraw_permissive hv (hu ▸ ho), hu, (List.append_nil _).symm⟩
  have hwithdrawn : Serial Q w₀ due chain w := hw.extend hQ hcall (by rw [List.append_nil])
  have hw₁ := withdrawEther_keeps (hcallees .treasury due) (fun _ _ _ h => h.congr rfl rfl) hwithdrawn h₁
  exact withdrawSIlv_keeps (hcallees .sIlvPayout due) (fun _ _ h => h.congr rfl rfl) hw₁ h₂

end Keeps

/-- The call is in `Q`. What is no call is allowed. -/
def Act.In (Q : Msg × Op → Prop) : Act X → Prop
  | .call msg op => Q (msg, op)
  | .outside _ _ => True

/-- **Every call keeps the run and the sequence together**, if its callees do. -/
theorem keeps_serial : Keeps (call chain) (Act.In Q) fun due w => Serial Q w₀ due chain w := by
  intro a ha callees hcallees due w w' hw hok
  cases a with
  | outside x gain =>
    cases hok
    exact hw.congr rfl rfl
  | call msg op =>
    by_cases hop : CallsNobody op
    · have hcall : Minter.call chain msg op w = .ok w' := by
        cases op <;> first | exact hok | cases hop
      obtain ⟨es, hlogs, hacts⟩ := acts_permissive hop (call_acts hcall hw.initialized)
      refine hw.extend ha (fun u hu => ⟨_, (hu ▸ hacts u.balance u.logs).succeeds, rfl, rfl⟩) ?_
      rw [hlogs, List.append_assoc, List.append_assoc]
      exact List.perm_append_comm.append_left w.logs
    · cases op with
      | paidMint ps ss fs useSIlv => exact hw.paidMint hcallees ha hok
      | withdraw => exact hw.withdraw hcallees ha hok
      | _ => exact absurd trivial hop

/-! ## What callees find -/

theorem bind_congr_ok {A B : Type} {x : Exec A} {f g : A → Exec B} (h : ∀ a, x = .ok a → f a = g a) :
    x >>= f = x >>= g := by
  cases x with
  | error e => rfl
  | ok a => exact h a rfl

variable {callees' : Place → World X → Exec (World X)}

section Sees

variable (hcallees : ∀ p due w w', Serial Q w₀ due chain w → callees p w = .ok w' → Serial Q w₀ due chain w')
  (hsame : ∀ p due w, Serial Q w₀ due chain w → callees p w = callees' p w)
include hsame

theorem paySIlv_sees {e : Uint256} {b : Bool} (hw : Serial Q w₀ due chain w) :
    paySIlv chain callees msg e b w = paySIlv chain callees' msg e b w := by
  unfold paySIlv
  split
  · split
    · exact bind_congr fun amount => bind_congr fun x => hsame .sIlvPayment due _ (hw.congr rfl rfl)
    · rfl
  · rfl

include hcallees

theorem paidMint_sees {ps ss fs} {useSIlv : Bool} (hw : Serial Q w₀ due chain w)
    (hQ : Q (msg, .paidMint ps ss fs useSIlv)) :
    paidMint chain callees msg ps ss fs useSIlv w = paidMint chain callees' msg ps ss fs useSIlv w := by
  unfold paidMint
  refine bind_congr fun x => ?_
  have hpaid : Serial Q w₀ due chain { w with balance := w.balance + msg.value.toNat, outside := x } :=
    hw.congr rfl rfl
  rw [← hsame .link due _ hpaid]
  refine bind_congr_ok fun w₁ h₁ => bind_congr_ok fun r hrecord => ?_
  obtain ⟨s, etherPrice, requestId⟩ := r
  have hrecorded := hw.record (hcallees .link due _ w₁ hpaid h₁) hQ hrecord
  dsimp only
  rw [paySIlv_sees hsame hrecorded]

theorem withdraw_sees (hw : Serial Q w₀ due chain w) :
    withdraw chain callees msg w = withdraw chain callees' msg w := by
  unfold withdraw
  refine bind_congr fun _ => bind_congr fun _ => ?_
  have hether : withdrawEther chain callees w = withdrawEther chain callees' w := by
    unfold withdrawEther
    split
    · have hsend : (chain.sendEther w.storage.treasury w.balance w.outside >>= fun outside =>
          callees .treasury { w with balance := 0, outside }) =
          chain.sendEther w.storage.treasury w.balance w.outside >>= fun outside =>
            callees' .treasury { w with balance := 0, outside } :=
        bind_congr fun x => hsame .treasury due _ (hw.congr rfl rfl)
      rw [hsend]
    · rfl
  rw [← hether]
  refine bind_congr_ok fun w₁ h₁ => ?_
  have hw₁ : Serial Q w₀ due chain w₁ :=
    withdrawEther_keeps (hcallees .treasury due) (fun _ _ _ h => h.congr rfl rfl) hw h₁
  unfold withdrawSIlv
  split
  · exact bind_congr fun x => hsame .sIlvPayout due _ (hw₁.congr rfl rfl)
  · rfl

end Sees

/-- **Every callee finds a storage to which the sequence leads.** -/
theorem sees_serial : Sees (call chain) (Act.In Q) fun due w => Serial Q w₀ due chain w := by
  intro a ha callees callees' hcallees hsame due w hw
  cases a with
  | outside x gain => rfl
  | call msg op =>
    cases op with
    | paidMint ps ss fs useSIlv => exact paidMint_sees hcallees hsame hw ha
    | withdraw => exact withdraw_sees hcallees hsame hw
    | _ => rfl

/-! ## Runs -/

/-- The Minters that are reached with callbacks. -/
abbrev Reachable (chain : Chain X) : World X → Prop := Lts.Reachable (Deployed chain) (Callbacks.Step (call chain))

/-- The storage is one that is reached without. -/
def Settled (chain : Chain X) (s : Storage) : Prop := ∃ u, Minter.Reachable (permissive chain) u ∧ u.storage = s

theorem Serial.refl (hw : w.storage.initialized = true) : Serial Q w [] chain w :=
  ⟨hw, rfl, [], bare w, fun c hc => absurd hc List.not_mem_nil, rfl, rfl, by rw [List.append_nil]; exact .refl _⟩

/-- A sequence of calls that succeed is a run. -/
theorem run_of_sequential {cs : List (Msg × Op)} (h : Reentrancy.sequential (plain chain) cs w = .ok w') :
    Lts.Run (Minter.Step chain) w (cs.map fun c => .call c.1 c.2) w' := by
  induction cs generalizing w with
  | nil =>
    cases h
    exact .nil _
  | cons c cs ih =>
    obtain ⟨w₁, h₁, h₂⟩ := bind_ok_iff.1 h
    exact .cons (step_of_call h₁) (ih h₂)

theorem deployed_bare (h : Deployed chain w) : Deployed (permissive chain) (bare w) := by
  obtain ⟨msg, params, x, -, hok⟩ := h
  refine ⟨msg, params, (), trivial, ?_⟩
  simp only [initializeMinter, bind_ok_iff, require_ok_iff, nonPayable_ok_iff, exists_const, pure_eq_ok,
    Except.ok.injEq] at hok ⊢
  obtain ⟨hv, hinit, hparams, rfl⟩ := hok
  exact ⟨hv, hinit, hparams, rfl⟩

theorem Deployed.initialized (h : Deployed chain w) : w.storage.initialized = true :=
  (Minter.Reachable.fixed (Lts.Reachable.of_start h)).1

/-- What the sequence leads to is settled. -/
theorem Serial.settled (h : Serial Q w₀ due chain w) (h0 : Deployed chain w₀) : Settled chain w.storage := by
  obtain ⟨cs, u, -, hseq, hstorage, -⟩ := h.calls
  exact ⟨u, (Lts.Reachable.of_start (deployed_bare h0)).run (run_of_sequential hseq), hstorage⟩

theorem Act.all_true (c : Callee Place (Act X)) : c.All (Act.In fun _ => True) := by
  induction c with
  | refuse => trivial
  | accept => trivial
  | call a callees next ih ihnext =>
    refine ⟨?_, ih, ihnext⟩
    cases a <;> trivial

/-- Every reachable Minter is serial. -/
theorem Reachable.serial (h : Reachable chain w) :
    ∃ w₀, Deployed chain w₀ ∧ Serial (fun _ => True) w₀ [] chain w := by
  obtain ⟨w₀, ts, h0, hrun⟩ := h
  refine ⟨w₀, h0, run_invariant (I := fun due w => Serial (fun _ => True) w₀ due chain w) keeps_serial ?_ hrun
    (Serial.refl (Deployed.initialized h0))⟩
  intro t _
  refine ⟨?_, fun p => Act.all_true _⟩
  obtain ⟨a, callees⟩ := t
  cases a <;> trivial

/-- A run without callbacks is one with callees that accept at once. -/
theorem reachable_of_plain (h : Minter.Reachable chain w) : Reachable chain w := by
  refine Lts.Reachable.invariant (I := Reachable chain) (fun h0 => .of_start h0) ?_ h
  intro w l w' _ hw hs
  cases hs with
  | call msg op =>
    refine hw.snoc (i := (.call msg op, fun _ => .accept)) ?_
    have hrun : (Callee.accept : Callee Place (Act X)).run (call chain) = .ok := rfl
    simp only [Callbacks.Step, Callbacks.transact, hrun, call_accept, Minter.transact]
    cases Minter.call chain msg op w with
    | ok w' => rfl
    | error e => rfl
  | @outside _ x balance _ hb =>
    refine hw.snoc (i := (.outside x (balance - w.balance), fun _ => .accept)) ?_
    show _ = ({ w with outside := x, balance := w.balance + (balance - w.balance) } : World X)
    rw [Nat.add_sub_cancel' hb]

open Classical in
/-- **Callbacks add nothing to the record**: every run, with all calls that the callees of the Minter make in the middle
of its calls, ends with the storage to which some of these calls lead, made one after the other, and with their events
in some order. So the storages reached with callbacks, in all environments, are those reached without. Whoever is called
finds such a storage: it does not matter what callees would do in others. -/
theorem reentrancy_safe (chain : Chain X) :
    (∀ w ts w' Q, w.storage.initialized = true → (∀ t ∈ ts, AllCalls (Act.In Q) t) →
      Lts.Run (Callbacks.Step (call chain)) w ts w' → ∃ cs u, (∀ c ∈ cs, Q c) ∧
        Reentrancy.sequential (plain (permissive chain)) cs (bare w) = .ok u ∧ u.storage = w'.storage ∧
          u.logs.Perm w'.logs) ∧
    (∀ s, Settled chain s ↔ ∃ (Y : Type) (chain' : Chain Y) (w : World Y), chain'.keccak256 = chain.keccak256 ∧
      chain'.this = chain.this ∧ Reachable chain' w ∧ w.storage = s) ∧
    ∀ w t, Reachable chain w → Callbacks.transact (call chain) t w =
      Callbacks.transact (fun a callees => call chain a (wary (fun v => Settled chain v.storage) callees)) t w := by
  refine ⟨?_, ?_, ?_⟩
  · intro w ts w' Q hw hts hrun
    have h : Serial Q w [] chain w' := run_invariant (I := fun due v => Serial Q w due chain v) keeps_serial hts hrun
      (Serial.refl hw)
    obtain ⟨cs, u, hcs, hseq, hstorage, hperm⟩ := h.calls
    rw [List.append_nil] at hperm
    exact ⟨cs, u, hcs, hseq, hstorage, hperm⟩
  · intro s
    constructor
    · rintro ⟨u, hu, rfl⟩
      exact ⟨Unit, permissive chain, u, rfl, rfl, reachable_of_plain hu, rfl⟩
    · rintro ⟨Y, chain', w, hkeccak, hthis, hw, rfl⟩
      obtain ⟨w₀, h0, hserial⟩ := hw.serial
      have hsame : permissive chain = permissive chain' := by
        unfold permissive
        rw [hkeccak, hthis]
      unfold Settled
      rw [hsame]
      exact hserial.settled h0
  · intro w t hw
    obtain ⟨w₀, h0, hserial⟩ := hw.serial
    refine transact_wary (I := fun due v => Serial (fun _ => True) w₀ due chain v) keeps_serial sees_serial
      (fun due v hv => hv.settled h0) ⟨?_, fun p => Act.all_true _⟩ hserial
    obtain ⟨a, callees⟩ := t
    cases a <;> trivial

/-- The owner withdraws what a user has paid, and the treasury asks for a free item when the ether comes, and for
another when the sILV comes. -/
example : (Callbacks.transact (call Deployment.chain)
    (.call Deployment.owner .withdraw, fun _ =>
      .call (.call (Deployment.user 0) (.freeMint [⟨.virtual, 1⟩] [] [])) (fun _ => .accept) .accept)
    (transactions Deployment.chain [(Deployment.user 5, .paidMint [] [] [⟨.bronze, 1⟩] false)]
      Deployment.sale)).storage.freeRequestCount = 2 := by decide

end Reentrant
end Minter
end Illuvitars
