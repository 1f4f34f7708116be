import Illuvitars.Layer.Correspondence

/-!
# The sale flag

The flag of a token is written by `markForSale` only, and a transfer leaves it as it is.

* `flags_reachable`: the flag is the last mark of the token, every mark is by the owner at that time, and the owner is
  whom the token was given to last;
* `saleLaw_reachable`: so a token that is for sale has been marked by an account that owned it, who is still the owner
  if the token has not moved;
* `flag_survives`: a token is for sale in the hands of an account that has never marked it.
-/

namespace Illuvitars
namespace BaseIlluvitar

open Evm Minting Reentrancy

variable {M : Type} {parseBlueprint : List Uint8 → Exec M} {w w' : World M} {c : Call} {id : Uint256} {empty : M}
  {calls : List Call}

/-! ## What the calls say -/

/-- The token that the call gives to an account. -/
def Call.gives : Call → Option (Uint256 × Address)
  | ⟨_, .mintFor recipient _ blob⟩ =>
    match split blob with
    | .ok (id, _) => some (id, recipient)
    | .error _ => none
  | ⟨_, .transferFrom _ recipient tokenId⟩ => some (tokenId, recipient)
  | ⟨_, .safeTransferFrom _ recipient tokenId⟩ => some (tokenId, recipient)
  | _ => none

theorem gives_mint {sender recipient : Address} {quantity : Uint256} {blob blueprint : List Uint8}
    (h : split blob = .ok (id, blueprint)) :
    Call.gives ⟨sender, .mintFor recipient quantity blob⟩ = some (id, recipient) := by
  simp [Call.gives, h]

/-- The mark that the call makes at the token. -/
def Call.mark (id : Uint256) : Call → Option Bool
  | ⟨_, .markForSale tokenId sale⟩ => if tokenId = id then some sale else none
  | _ => none

theorem gives_of_quiet (h : c.function.Quiet) : c.gives = none := by
  obtain ⟨sender, function⟩ := c
  cases function <;> first | rfl | cases h

theorem mark_of_quiet (h : c.function.Quiet) : c.mark id = none := by
  obtain ⟨sender, function⟩ := c
  cases function <;> first | rfl | cases h

/-- Whom the token has been given to last. -/
def ownerAfter (id : Uint256) (calls : List Call) : Address :=
  calls.foldl (fun owner c => match c.gives with
    | some (tokenId, recipient) => if tokenId = id then recipient else owner
    | none => owner) 0

/-- The last mark of the token. -/
def flagAfter (id : Uint256) (calls : List Call) : Bool := calls.foldl (fun sale c => (c.mark id).getD sale) false

theorem flagAfter_snoc (id : Uint256) (calls : List Call) (c : Call) :
    flagAfter id (calls ++ [c]) = (c.mark id).getD (flagAfter id calls) := by
  simp [flagAfter]

theorem ownerAfter_gives {recipient : Address} {id' : Uint256} (h : c.gives = some (id', recipient)) :
    ownerAfter id (calls ++ [c]) = if id' = id then recipient else ownerAfter id calls := by
  simp [ownerAfter, h]

theorem ownerAfter_of_none (h : c.gives = none) : ownerAfter id (calls ++ [c]) = ownerAfter id calls := by
  simp [ownerAfter, h]

/-- Calls that do not give the token leave its owner. -/
theorem ownerAfter_append {post : List Call} (h : ∀ c ∈ post, ∀ recipient, c.gives ≠ some (id, recipient)) :
    ownerAfter id (calls ++ post) = ownerAfter id calls := by
  induction post generalizing calls with
  | nil => rw [List.append_nil]
  | cons c post ih =>
    rw [List.append_cons, ih fun c' hc' => h c' (List.mem_cons_of_mem c hc')]
    cases hc : c.gives with
    | none => exact ownerAfter_of_none hc
    | some p =>
      obtain ⟨id', recipient⟩ := p
      have hne : id' ≠ id := fun he => h c List.mem_cons_self recipient (he ▸ hc)
      rw [ownerAfter_gives hc, if_neg hne]

/-- A flag that is set has been set, and not been written since. -/
theorem exists_mark (h : flagAfter id calls = true) : ∃ pre c post, calls = pre ++ c :: post ∧ c.mark id = some true ∧
    ∀ c' ∈ post, c'.mark id = none := by
  induction calls using List.reverseRecOn with
  | nil => cases h
  | append_singleton calls c ih =>
    rw [flagAfter_snoc] at h
    cases hc : c.mark id with
    | some sale =>
      rw [hc, Option.getD_some] at h
      subst h
      exact ⟨calls, c, [], rfl, hc, by simp⟩
    | none =>
      rw [hc, Option.getD_none] at h
      obtain ⟨pre, c', post, rfl, hc', hpost⟩ := ih h
      refine ⟨pre, c', post ++ [c], by simp, hc', ?_⟩
      intro d hd
      rcases List.mem_append.1 hd with hd | hd
      · exact hpost d hd
      · exact List.mem_singleton.1 hd ▸ hc

theorem mark_eq_some {sale : Bool} : c.mark id = some sale ↔ c.function = .markForSale id sale := by
  obtain ⟨sender, function⟩ := c
  cases function <;> simp [Call.mark]

/-! ## The flags of a layer -/

/-- Owners and flags are what the calls say, and every mark is by the owner at that time. -/
structure Flags (w : World M) : Prop where
  owner : ∀ id, ownerAfter id w.calls = w.owners id
  flag : ∀ id, flagAfter id w.calls = w.openForSale id
  marker : ∀ id pre c post, w.calls = pre ++ c :: post → c.mark id ≠ none → c.sender = ownerAfter id pre

/-- One more call. -/
theorem Flags.snoc (h : Flags w) (hcalls : w'.calls = w.calls ++ [c])
    (howner : ∀ id, ownerAfter id (w.calls ++ [c]) = w'.owners id)
    (hflag : ∀ id, (c.mark id).getD (w.openForSale id) = w'.openForSale id)
    (hmark : ∀ id, c.mark id ≠ none → c.sender = w.owners id) : Flags w' where
  owner id := by rw [hcalls, howner]
  flag id := by rw [hcalls, flagAfter_snoc, h.flag, hflag]
  marker id pre c' post hsplit hc' := by
    rw [hcalls] at hsplit
    rcases List.eq_nil_or_concat post with rfl | ⟨post', d, rfl⟩
    · obtain ⟨rfl, hlast⟩ := List.append_inj' hsplit rfl
      cases hlast
      rw [h.owner]
      exact hmark id hc'
    · rw [List.concat_eq_append, ← List.cons_append, ← List.append_assoc] at hsplit
      obtain ⟨hsplit, -⟩ := List.append_inj' hsplit rfl
      exact h.marker id pre c' post' hsplit hc'

/-- A call that gives a token to an account and marks none. -/
theorem Flags.give (h : Flags w) {recipient : Address} (hgives : c.gives = some (id, recipient))
    (hmark : ∀ id, c.mark id = none) (hcalls : w'.calls = w.calls ++ [c])
    (howners : w'.owners = Function.update w.owners id recipient) (hflags : w'.openForSale = w.openForSale) :
    Flags w' := by
  refine h.snoc hcalls ?_ ?_ fun id' hid' => absurd (hmark id') hid'
  · intro id'
    rw [ownerAfter_gives hgives, howners, h.owner]
    by_cases he : id' = id
    · subst he
      simp
    · rw [if_neg (Ne.symm he), Function.update_of_ne he]
  · intro id'
    rw [hmark, hflags]
    rfl

/-- **Every call keeps the flags**, also with calls of the recipient in between. -/
theorem keeps_flags : Keeps (call parseBlueprint) (fun (_ : Unit) (w : World M) => Flags w) := by
  rintro c hook hhook i w w' hw hok
  cases call_effect hok with
  | mint hsplit hrecipient hfree hcallee hparse =>
    rename_i id bp balances m w₁
    have h₁ : Flags w₁ := by
      refine hhook i _ w₁ ?_ hcallee
      exact hw.give (gives_mint hsplit) (fun _ => rfl) rfl rfl rfl
    exact ⟨h₁.owner, h₁.flag, h₁.marker⟩
  | transfer hholder hne hrecipient => exact hw.give rfl (fun _ => rfl) rfl rfl rfl
  | safeTransfer hholder hne hrecipient hcallee =>
    refine hhook i _ w' ?_ hcallee
    exact hw.give rfl (fun _ => rfl) rfl rfl rfl
  | mark hsender hne =>
    rename_i sender id sale
    refine hw.snoc rfl ?_ ?_ ?_
    · intro id'
      rw [ownerAfter_of_none rfl, hw.owner]
      rfl
    · intro id'
      by_cases he : id' = id
      · subst he
        simp [Call.mark]
      · simp [Call.mark, Ne.symm he, he]
    · intro id' hid'
      by_cases he : id = id'
      · subst he
        exact hsender.symm
      · simp [Call.mark, he] at hid'
  | approval hq =>
    refine hw.snoc rfl ?_ ?_ fun id hid => absurd (mark_of_quiet hq) hid
    · intro id
      rw [ownerAfter_of_none (gives_of_quiet hq), hw.owner]
      rfl
    · intro id
      rw [mark_of_quiet hq]
      rfl

/-- **In a reachable layer owners and flags are what the calls say.** -/
theorem flags_reachable (h : Reachable parseBlueprint empty w) : Flags w := by
  refine reachable_invariant (i := ()) keeps_flags ?_ h
  intro w h0
  obtain ⟨hcalls, howners, -, hsale⟩ := h0.fresh
  refine ⟨?_, ?_, ?_⟩
  · intro id
    rw [hcalls, howners]
    rfl
  · intro id
    rw [hcalls, hsale]
    rfl
  · intro id pre c post hsplit
    simp [hcalls] at hsplit

/-! ## Between transactions -/

/-- The law of the sale flag. -/
structure SaleLaw (parseBlueprint : List Uint8 → Exec M) (w : World M) : Prop where
  /-- A token for sale has been marked by an account that owned it then, and not been marked otherwise since; if it has
  not been given to anyone since, the account is the owner. -/
  marker : ∀ id, w.openForSale id = true → ∃ pre sender post, w.calls = pre ++ ⟨sender, .markForSale id true⟩ :: post ∧
    sender = ownerAfter id pre ∧ (∀ c ∈ post, c.mark id = none) ∧
    ((∀ c ∈ post, ∀ recipient, c.gives ≠ some (id, recipient)) → sender = w.owners id)
  /-- A transfer leaves all flags as they are. -/
  transferFrom : ∀ sender holder recipient id hook,
    (transact (call parseBlueprint) (⟨sender, .transferFrom holder recipient id⟩, hook) w).openForSale = w.openForSale
  safeTransferFrom : ∀ sender holder recipient id,
    (transact (call parseBlueprint) (⟨sender, .safeTransferFrom holder recipient id⟩, .accept) w).openForSale =
      w.openForSale

/-- **The sale flag follows the marks, not the transfers.** -/
theorem saleLaw_reachable (h : Reachable parseBlueprint empty w) : SaleLaw parseBlueprint w := by
  have hw := flags_reachable h
  refine ⟨?_, ?_, ?_⟩
  · intro id hsale
    rw [← hw.flag] at hsale
    obtain ⟨pre, c, post, hsplit, hmark, hpost⟩ := exists_mark hsale
    obtain ⟨sender, function⟩ := c
    obtain rfl : function = .markForSale id true := mark_eq_some.1 hmark
    have hsender := hw.marker id pre _ post hsplit (by rw [hmark]; simp)
    refine ⟨pre, sender, post, hsplit, hsender, hpost, fun hgive => ?_⟩
    rw [← hw.owner, hsplit, List.append_cons, ownerAfter_append hgive, ownerAfter_of_none rfl]
    exact hsender
  · intro sender holder recipient id hook
    rcases transact_cases (call parseBlueprint) (⟨sender, .transferFrom holder recipient id⟩, hook) w with
      ⟨w', hok, heq⟩ | heq
    · rw [heq]
      cases call_effect hok with
      | transfer => rfl
      | approval hq => cases hq
    · rw [heq]
  · intro sender holder recipient id
    rcases transact_cases (call parseBlueprint) (⟨sender, .safeTransferFrom holder recipient id⟩, .accept) w with
      ⟨w', hok, heq⟩ | heq
    · rw [heq]
      cases call_effect hok with
      | safeTransfer _ _ _ hcallee =>
        cases hcallee
        rfl
      | approval hq => cases hq
    · rw [heq]

/-- The present owner of the token has marked it since it became the owner, and not taken the mark back. -/
def OwnersDecision (w : World M) (id : Uint256) : Prop :=
  w.openForSale id = true → ∃ pre post, w.calls = pre ++ ⟨w.owners id, .markForSale id true⟩ :: post ∧
    (∀ c ∈ post, ∀ recipient, c.gives ≠ some (id, recipient)) ∧ ⟨w.owners id, .markForSale id false⟩ ∉ post

end BaseIlluvitar

namespace PortraitLayer

open Minting BaseIlluvitar Reentrancy

/-- **The sale flag of a portrait follows the marks, not the transfers.** -/
theorem sale_law {w : World Metadata} (h : Reachable w) : SaleLaw parseBlueprint w := saleLaw_reachable h

/-- Account 2 receives portrait 1, marks it for sale, and transfers it to account 3. -/
def sold : List (Call × Hook Call) :=
  [(⟨7, .mintFor 2 1 (mintingBlob 1 [0x31, 0x32])⟩, .accept), (⟨2, .markForSale 1 true⟩, .accept),
    (⟨2, .transferFrom 2 3 1⟩, .accept)]

/-- The mark of portrait 1 is one by its owner at the time. -/
theorem sale_law_sold : ∃ pre sender post, (after sold).calls = pre ++ ⟨sender, .markForSale 1 true⟩ :: post ∧
    sender = ownerAfter 1 pre ∧ ∀ c ∈ post, c.mark 1 = none := by
  obtain ⟨pre, sender, post, hsplit, hsender, hpost, -⟩ := (sale_law (after_reachable sold)).marker 1 (by decide)
  exact ⟨pre, sender, post, hsplit, hsender, hpost⟩

/-- Portrait 1 is for sale in the hands of account 3, who has made no call at all. -/
theorem flag_survives :
    Reachable (after sold) ∧ (after sold).openForSale 1 = true ∧ (after sold).owners 1 = 3 ∧
      (∀ c ∈ (after sold).calls, c.sender ≠ 3) ∧ ¬OwnersDecision (after sold) 1 := by
  have hsale : (after sold).openForSale 1 = true := by decide
  have howner : (after sold).owners 1 = 3 := by decide
  have hsenders : ∀ c ∈ (after sold).calls, c.sender ≠ 3 := by decide
  refine ⟨after_reachable sold, hsale, howner, hsenders, ?_⟩
  intro h
  obtain ⟨pre, post, hsplit, -⟩ := h hsale
  refine hsenders ⟨(after sold).owners 1, .markForSale 1 true⟩ ?_ howner
  rw [hsplit]
  simp

end PortraitLayer
end Illuvitars
