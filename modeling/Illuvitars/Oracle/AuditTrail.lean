import Mathlib.Data.List.Induction
import Illuvitars.Lib.Journal
import Illuvitars.Oracle.Coalitions
import Illuvitars.Oracle.Managers

/-!
# The events of the price oracle

Every call that succeeds fires one event: `RoleUpdated` with the permissions requested and the ones effectively set, or
`OldAnswerThresholdUpdated` with the old value and the new one. An auditor who has only the events replays them from the
deployment (`read`), and checks each against the state that the ones before it lead to (`audit`).

* `history_iff`: the logs of the oracle are exactly the logs that pass, and each tells the whole storage;
* `Lineage`, `lineage_of_replay`: in such a log every right can be followed back to the deployer, from hand to hand.
-/

namespace Illuvitars
namespace IlluvitarsPriceOracleV1

open Evm Rights UpgradeableAccessControl

inductive Event
  | roleUpdated (operator target : Address) (requested actual : Uint256)
  | oldAnswerThresholdUpdated (operator : Address) (oldVal newVal : Uint256)
deriving DecidableEq, Repr

variable {this : Address} {s t u : Storage Own} {c : Call OwnOp} {e : Event} {es fs : List Event}

/-! ## The events of a call -/

/-- The event of a call that leads from `s` to `s'`. -/
def fired (this sender : Address) (s s' : Storage Own) : Op OwnOp → Event
  | .updateRole operator role => .roleUpdated sender operator role (s'.userRoles operator)
  | .updateFeatures mask => .roleUpdated sender this mask (s'.userRoles this)
  | .own (.setOldAnswerThreshold value) => .oldAnswerThresholdUpdated sender s.own.oldAnswerThreshold value

/-- The events of a transaction: one if the call succeeds, none if it reverts. -/
def emitted (this : Address) (c : Call OwnOp) (s : Storage Own) : List Event :=
  match call oracle this c.sender c.op s with
  | .ok s' => [fired this c.sender s s' c.op]
  | .error _ => []

theorem emitted_of_call (h : call oracle this c.sender c.op s = .ok t) :
    emitted this c s = [fired this c.sender s t c.op] := by
  unfold emitted
  rw [h]

/-- A step writes the events of its call. -/
def Emits (this : Address) (s : Storage Own) (c : Call OwnOp) (_ : Storage Own) (es : List Event) : Prop :=
  es = emitted this c s

/-! ## The auditor -/

/-- The storage after an event, if the event can happen: the roles are updated by an access manager to what
`evaluateBy` gives, and the threshold by the manager of the oracle to a valid value, from the one there is. -/
def audit (s : Storage Own) : Event → Option (Storage Own)
  | .roleUpdated operator target requested actual =>
    if isSenderInRole s.userRoles operator ROLE_ACCESS_MANAGER = true ∧
        actual = evaluateBy s.userRoles operator (s.userRoles target) requested then
      some { s with userRoles := Function.update s.userRoles target actual }
    else none
  | .oldAnswerThresholdUpdated operator oldVal newVal =>
    if isSenderInRole s.userRoles operator (ROLE_PRICE_ORACLE_MANAGER.setWidth 256) = true ∧
        oldVal = s.own.oldAnswerThreshold ∧ ValidThreshold ⟨newVal⟩ then
      some { s with own := ⟨newVal⟩ }
    else none

/-- The event of an update of roles passes iff it is an update of roles. -/
theorem audit_roleUpdated_iff {operator target : Address} {requested actual : Uint256} :
    audit s (.roleUpdated operator target requested actual) = some t ↔
      updateRole operator target requested s = .ok t ∧ actual = t.userRoles target := by
  rw [updateRole_ok_iff, audit, isSenderInRole, isOperatorInRole, accessManager_eq, hasRole_twoPow (by decide)]
  constructor
  · intro h
    split at h
    · rename_i hlegal
      obtain ⟨hrole, rfl⟩ := hlegal
      cases h
      simp [hrole]
    · cases h
  · rintro ⟨⟨hrole, rfl⟩, rfl⟩
    simp [hrole]

/-- The event of the threshold passes iff the threshold is set. -/
theorem audit_thresholdUpdated_iff {operator : Address} {oldVal newVal : Uint256} :
    audit s (.oldAnswerThresholdUpdated operator oldVal newVal) = some t ↔
      ∃ own, setOldAnswerThreshold operator s.userRoles newVal s.own = .ok own ∧ t = { s with own } ∧
        oldVal = s.own.oldAnswerThreshold := by
  simp only [setOldAnswerThreshold_ok_iff, audit, isSenderInRole, isOperatorInRole, oracleManager_eq,
    hasRole_twoPow (show 16 < 256 by decide)]
  constructor
  · intro h
    split at h
    · rename_i hlegal
      cases h
      exact ⟨_, ⟨hlegal.1, hlegal.2.2, rfl⟩, rfl, hlegal.2.1⟩
    · cases h
  · rintro ⟨_, ⟨hrole, hvalid, rfl⟩, rfl, rfl⟩
    rw [if_pos ⟨hrole, rfl, hvalid⟩]

/-- **The events of a step pass, and tell what it does.** -/
theorem replay_emitted (h : Step oracle this s c t) : Lts.replay audit s (emitted this c s) = some t := by
  obtain ⟨sender, op⟩ := c
  unfold Step transact at h
  unfold emitted
  split at h
  · rename_i s' hok
    subst h
    rw [hok]
    dsimp only
    rw [Lts.replay, Option.bind_eq_some_iff]
    refine ⟨s', ?_, rfl⟩
    cases op with
    | updateRole operator role => exact audit_roleUpdated_iff.2 ⟨hok, rfl⟩
    | updateFeatures mask => exact audit_roleUpdated_iff.2 ⟨hok, rfl⟩
    | own op =>
      obtain ⟨own, hown, heq⟩ := bind_ok_iff.1 hok
      cases op with
      | setOldAnswerThreshold value => exact audit_thresholdUpdated_iff.2 ⟨own, hown, (Except.ok.inj heq).symm, rfl⟩
  · rename_i hrevert
    rw [hrevert, h]
    rfl

/-- **Every event that passes is the event of a call.** -/
theorem exists_step_of_audit (this : Address) (h : audit s e = some t) :
    ∃ c, Step oracle this s c t ∧ emitted this c s = [e] := by
  cases e with
  | roleUpdated operator target requested actual =>
    obtain ⟨hok, rfl⟩ := audit_roleUpdated_iff.1 h
    have hcall : call oracle this operator (.updateRole target requested) s = .ok t := hok
    exact ⟨⟨operator, .updateRole target requested⟩, step_of_call hcall, emitted_of_call hcall⟩
  | oldAnswerThresholdUpdated operator oldVal newVal =>
    obtain ⟨own, hok, rfl, rfl⟩ := audit_thresholdUpdated_iff.1 h
    have hcall : call oracle this operator (.own (.setOldAnswerThreshold newVal)) s = .ok { s with own } :=
      bind_ok_iff.2 ⟨own, hok, rfl⟩
    exact ⟨⟨operator, .own (.setOldAnswerThreshold newVal)⟩, step_of_call hcall, emitted_of_call hcall⟩

/-- **The logs of runs from a state are exactly those that pass.** -/
theorem journal_iff :
    (∃ cs, Lts.Journal (Step oracle this) (Emits this) s cs t es) ↔ Lts.replay audit s es = some t := by
  constructor
  · rintro ⟨cs, h⟩
    refine h.replay id (I := fun _ => True) (fun _ _ => trivial) ?_ trivial
    intro s c t es _ hs hes
    rw [hes]
    exact replay_emitted hs
  · intro h
    have hstep : ∀ {s e v}, audit (id s) e = some v →
        ∃ c t, Step oracle this s c t ∧ Emits this s c t [e] ∧ id t = v := by
      intro s e v h
      obtain ⟨c, hs, hc⟩ := exists_step_of_audit this h
      exact ⟨c, v, hs, hc.symm, rfl⟩
    obtain ⟨cs, t', hrun, rfl⟩ := Lts.exists_journal id hstep h
    exact ⟨cs, hrun⟩

/-! ## From the deployment -/

/-- The storage after a deployment. -/
def deployedBy (deployer : Address) : Storage Own :=
  ⟨Function.update (fun _ => 0) deployer FULL_PRIVILEGES_MASK, ⟨108000⟩⟩

theorem exists_initializeOracle_iff {deployer : Address} :
    (∃ aggregator feed, initializeOracle deployer aggregator feed = .ok s) ↔ s = deployedBy deployer := by
  constructor
  · rintro ⟨aggregator, feed, hok⟩
    simp only [initializeOracle, bind_ok_iff, require_ok_iff, exists_const, pure_eq_ok, Except.ok.injEq] at hok
    exact hok.2.2.symm
  · rintro rfl
    exact ⟨7, quarterFeed, rfl⟩

/-- The event of the initialiser. -/
def deploymentEvent (deployer : Address) : Event :=
  .roleUpdated deployer deployer FULL_PRIVILEGES_MASK FULL_PRIVILEGES_MASK

/-- An oracle deployed by `deployer` has the storage `t` after some calls, and its log is `es`. -/
def History (this deployer : Address) (es : List Event) (t : Storage Own) : Prop :=
  ∃ aggregator feed s cs fs, initializeOracle deployer aggregator feed = .ok s ∧
    Lts.Journal (Step oracle this) (Emits this) s cs t fs ∧ es = deploymentEvent deployer :: fs

/-- The storage that a log tells, if all of it passes. The first event gives the deployer all permissions; no event
tells the threshold of 30 hours that the initialiser sets. -/
def read : List Event → Option (Storage Own)
  | .roleUpdated operator target requested actual :: es =>
    if operator = target ∧ requested = FULL_PRIVILEGES_MASK ∧ actual = FULL_PRIVILEGES_MASK then
      Lts.replay audit (deployedBy operator) es
    else none
  | _ => none

theorem read_deployment (deployer : Address) (es : List Event) :
    read (deploymentEvent deployer :: es) = Lts.replay audit (deployedBy deployer) es := by
  rw [deploymentEvent, read, if_pos ⟨rfl, rfl, rfl⟩]

/-- A log passes iff it starts with a deployment and passes from there. -/
theorem read_eq_some_iff :
    read es = some t ↔ ∃ deployer fs, es = deploymentEvent deployer :: fs ∧
      Lts.replay audit (deployedBy deployer) fs = some t := by
  constructor
  · intro h
    unfold read at h
    split at h
    · split at h
      · rename_i hfirst
        obtain ⟨rfl, rfl, rfl⟩ := hfirst
        exact ⟨_, _, rfl, h⟩
      · cases h
    · cases h
  · rintro ⟨deployer, fs, rfl, h⟩
    rw [read_deployment, h]

theorem history_iff {deployer : Address} :
    History this deployer es t ↔
      ∃ fs, es = deploymentEvent deployer :: fs ∧ Lts.replay audit (deployedBy deployer) fs = some t := by
  constructor
  · rintro ⟨aggregator, feed, s, cs, fs, hok, hrun, rfl⟩
    obtain rfl := exists_initializeOracle_iff.1 ⟨aggregator, feed, hok⟩
    exact ⟨fs, rfl, journal_iff.1 ⟨cs, hrun⟩⟩
  · rintro ⟨fs, rfl, h⟩
    obtain ⟨aggregator, feed, hok⟩ := exists_initializeOracle_iff.2 (Eq.refl (deployedBy deployer))
    obtain ⟨cs, hrun⟩ := journal_iff.2 h
    exact ⟨aggregator, feed, _, cs, fs, hok, hrun, rfl⟩

/-- Every reachable storage has a history. -/
theorem exists_history_iff : (∃ deployer es, History this deployer es t) ↔ Reachable this t := by
  constructor
  · rintro ⟨deployer, _, aggregator, feed, s, cs, fs, hok, hrun, rfl⟩
    exact ⟨s, cs, ⟨deployer, aggregator, feed, hok⟩, hrun.run⟩
  · rintro ⟨s, cs, ⟨deployer, aggregator, feed, hok⟩, hrun⟩
    have hjournal : ∃ fs, Lts.Journal (Step oracle this) (Emits this) s cs t fs :=
      hrun.journal (I := fun _ => True) (P := fun _ => True) (fun _ _ => trivial) (fun _ _ _ => ⟨_, rfl⟩)
        (fun _ _ => trivial) trivial
    obtain ⟨fs, hjournal⟩ := hjournal
    exact ⟨deployer, _, aggregator, feed, s, cs, fs, hok, hjournal, rfl⟩

/-! ## Where a right comes from -/

/-- The log `es` shows how `x` came by the right `i`: it is the deployer, or the right was requested for it by an access
manager that held the right at that point of the log, and had come by it in this way. -/
inductive Lineage (deployer : Address) (i : ℕ) : List Event → Address → Prop
  | deployer (es : List Event) : Lineage deployer i (deploymentEvent deployer :: es) deployer
  | granted {es fs : List Event} {u : Storage Own} {operator target : Address} {requested actual : Uint256} :
      Lineage deployer i es operator → read es = some u → 255 ∈ rights u operator → i ∈ rights u operator →
      requested.getLsbD i = true →
      Lineage deployer i (es ++ .roleUpdated operator target requested actual :: fs) target

variable {deployer x : Address} {i : ℕ}

/-- Later events leave a lineage as it is. -/
theorem Lineage.append (h : Lineage deployer i es x) (fs : List Event) : Lineage deployer i (es ++ fs) x := by
  cases h with
  | deployer es => exact .deployer (es ++ fs)
  | granted hop hread hmanager hi hreq =>
    rw [List.append_assoc]
    exact .granted hop hread hmanager hi hreq

/-- A right after an update of roles was there before, or the operator had it and requested it. -/
theorem mem_rights_updateRole {sender operator : Address} {role : Uint256}
    (h : updateRole sender operator role s = .ok t) (hi : i ∈ rights t x) :
    i ∈ rights s x ∨ (x = operator ∧ 255 ∈ rights s sender ∧ i ∈ rights s sender ∧ role.getLsbD i = true) := by
  obtain ⟨hmanager, rfl⟩ := updateRole_ok_iff.1 h
  by_cases hx : x = operator
  · subst hx
    have hlt := lt_of_mem_rights hi
    rw [mem_rights] at hi
    dsimp only at hi
    rw [Function.update_self, evaluateBy_bit _ _ _ _ hlt] at hi
    split at hi
    · rename_i hsender
      exact .inr ⟨rfl, hmanager, hsender, hi⟩
    · exact .inl hi
  · left
    rw [mem_rights] at hi ⊢
    dsimp only at hi
    rwa [Function.update_of_ne hx] at hi

/-- **Every right in a log that passes has a lineage.** -/
theorem lineage_of_replay : ∀ {fs : List Event} {t : Storage Own} {x : Address},
    Lts.replay audit (deployedBy deployer) fs = some t → i ∈ rights t x →
      Lineage deployer i (deploymentEvent deployer :: fs) x := by
  intro fs
  -- from the last event backwards
  induction fs using List.reverseRecOn with
  | nil =>
    intro t x h hi
    cases h
    by_cases hx : x = deployer
    · rw [hx]
      exact .deployer []
    · rw [mem_rights, deployedBy] at hi
      dsimp only at hi
      rw [Function.update_of_ne hx] at hi
      simp at hi
  | append_singleton fs e ih =>
    intro t x h hi
    rw [Lts.replay_append, Option.bind_eq_some_iff] at h
    obtain ⟨u, hu, h⟩ := h
    rw [Lts.replay, Option.bind_eq_some_iff] at h
    obtain ⟨_, he, h⟩ := h
    cases h
    have hkept (hold : i ∈ rights u x) : Lineage deployer i (deploymentEvent deployer :: (fs ++ [e])) x :=
      (ih hu hold).append [e]
    cases e with
    | roleUpdated operator target requested actual =>
      obtain ⟨hok, -⟩ := audit_roleUpdated_iff.1 he
      rcases mem_rights_updateRole hok hi with hold | ⟨rfl, hmanager, hop, hreq⟩
      · exact hkept hold
      · have hread : read (deploymentEvent deployer :: fs) = some u := by rw [read_deployment, hu]
        exact .granted (ih hu hop) hread hmanager hop hreq
    | oldAnswerThresholdUpdated operator oldVal newVal =>
      obtain ⟨own, -, rfl, -⟩ := audit_thresholdUpdated_iff.1 he
      exact hkept hi

/-- **The audit trail is exact**: the reachable storages are those told by the logs that pass; the logs of the oracle
are exactly these; and in them every right can be followed back to the deployer. -/
theorem audit_trail (this : Address) (t : Storage Own) :
    (Reachable this t ↔ ∃ es, read es = some t) ∧
    (∀ es, (∃ deployer, History this deployer es t) ↔ read es = some t) ∧
    ∀ deployer es, History this deployer es t → ∀ i x, i ∈ rights t x → Lineage deployer i es x := by
  have hread : ∀ es, (∃ deployer, History this deployer es t) ↔ read es = some t := by
    intro es
    simp only [history_iff, read_eq_some_iff]
  refine ⟨?_, hread, ?_⟩
  · rw [← exists_history_iff, exists_comm]
    exact exists_congr hread
  · intro deployer es h i x hi
    obtain ⟨fs, rfl, hfs⟩ := history_iff.1 h
    exact lineage_of_replay hfs hi

/-- Account 1 deploys and makes account 2 a manager of the oracle, which sets the threshold to two hours. -/
def handover : List Event :=
  [deploymentEvent 1, .roleUpdated 1 2 0x10000 0x10000, .oldAnswerThresholdUpdated 2 108000 7200]

theorem audit_trail_handover : ∃ t, (∃ deployer, History 9 deployer handover t) ∧ t.own.oldAnswerThreshold = 7200 ∧
    Lineage 1 16 handover 2 := by
  obtain ⟨t, hread, hthreshold, hrole⟩ : ∃ t, read handover = some t ∧ t.own.oldAnswerThreshold = 7200 ∧
      (t.userRoles 2).getLsbD 16 = true := ⟨_, rfl, rfl, by decide⟩
  obtain ⟨-, hhistory, hlineage⟩ := audit_trail 9 t
  obtain ⟨deployer, h⟩ := (hhistory handover).2 hread
  refine ⟨t, ⟨deployer, h⟩, hthreshold, ?_⟩
  have hdeployer : deployer = 1 := by
    obtain ⟨_, hes, -⟩ := history_iff.1 h
    have hfirst := (List.cons.inj hes).1
    unfold deploymentEvent at hfirst
    simp_all
  rw [← hdeployer]
  exact hlineage deployer handover h 16 2 hrole

end IlluvitarsPriceOracleV1
end Illuvitars
