import Mathlib.Data.List.DropRight
import Mathlib.Data.List.GetD
import Illuvitars.Layer.Correspondence
import Illuvitars.Layer.PortraitFormat

/-!
# Which portraits can be minted

The parser of the portrait layer reads strings of at most 255 bytes, and takes an id that is missing at the end for 0.

* `shortest`: a blueprint that the parser reads as the given metadata (`parseBlueprint_shortest`);
* `shortest_le`: no other one is shorter;
* `mintable_iff`: so a portrait can exist iff its tier is one digit and its shortest blueprint is short enough.
-/

namespace Illuvitars
namespace PortraitLayer

open Evm Decimal Minting BaseIlluvitar MaximalRuns Reentrancy

variable {m : Metadata} {bp : List Uint8} {d : Uint8} {ds : List Uint8} {fields : List (List Uint8)}

/-! ## Numbers without trailing zeros -/

/-- What is left of a list of numbers without the zeros at its end. -/
def trimmed (ns : List ℕ) : List ℕ := ns.rdropWhile (· = 0)

/-- The zeros at the end can be read back. -/
theorem getD_trimmed (ns : List ℕ) (i : ℕ) : (trimmed ns).getD i 0 = ns.getD i 0 := by
  induction ns using List.reverseRecOn with
  | nil => rfl
  | append_singleton ns n ih =>
    by_cases hn : n = 0
    · subst hn
      rw [trimmed, List.rdropWhile_concat_pos _ _ _ (by simp)]
      rw [trimmed] at ih
      rw [ih]
      by_cases hi : i < ns.length
      · rw [List.getD_append _ _ _ _ hi]
      · rw [List.getD_append_right _ _ _ _ (by omega), List.getD_eq_default _ _ (by omega)]
        cases i - ns.length <;> rfl
    · rw [trimmed, List.rdropWhile_concat_neg _ _ _ (by simpa using hn)]

theorem trimmed_append_zeros (ns : List ℕ) (k : ℕ) : trimmed (ns ++ List.replicate k 0) = trimmed ns := by
  induction k with
  | zero => simp
  | succ k ih =>
    rw [List.replicate_succ', ← List.append_assoc, trimmed, List.rdropWhile_concat_pos _ _ _ (by simp)]
    exact ih

theorem trimmed_length_le (ns : List ℕ) : (trimmed ns).length ≤ ns.length :=
  (List.rdropWhile_prefix _ ns).length_le

/-! ## The shortest blueprint -/

/-- The ids behind the one of the skin. -/
def Metadata.others (m : Metadata) : List ℕ := [m.bodyId.toNat, m.eyeId.toNat, m.headId.toNat, m.propsId.toNat]

/-- Tier and skin in one run, and the other ids up to the last that is not 0. -/
def shortest (m : Metadata) : List Uint8 :=
  decimal m.tier.toNat ++ decimal m.skinId.toNat ++ ((trimmed m.others).map decimal).flatMap (0x2C :: ·)

/-- The space that numbers take with a separator in front of each. -/
def space (ns : List ℕ) : ℕ := (ns.map fun n => 1 + (decimal n).length).sum

theorem length_shortest (m : Metadata) : (shortest m).length =
    (decimal m.tier.toNat).length + (decimal m.skinId.toNat).length + space (trimmed m.others) := by
  simp [shortest, space, List.length_flatMap, Function.comp_def, Nat.add_comm 1, Nat.add_assoc]

theorem decimal_run (n : ℕ) : decimal n ≠ [] ∧ ∀ c ∈ decimal n, isDecimal c = true :=
  ⟨decimal_ne_nil n, fun _ hc => isDecimal_iff.2 (isDigit_of_mem_decimal hc)⟩

/-- The runs of the shortest blueprint. -/
theorem runs_shortest (htier : m.tier.toNat < 10) : runs isDecimal (shortest m) =
    (code m.tier.toNat.digitChar :: decimal m.skinId.toNat) :: (trimmed m.others).map decimal := by
  have hblock : ∀ f ∈ (trimmed m.others).map decimal, f ≠ [] ∧ ∀ c ∈ f, isDecimal c = true := by
    intro f hf
    obtain ⟨n, -, rfl⟩ := List.mem_map.1 hf
    exact decimal_run n
  have hhead : ∀ c ∈ (((trimmed m.others).map decimal).flatMap (0x2C :: ·)).head?, isDecimal c = false := by
    intro c hc
    cases hfs : (trimmed m.others).map decimal with
    | nil => simp [hfs] at hc
    | cons f fs =>
      rw [hfs] at hc
      cases hc
      decide
  have hfirst : ∀ c ∈ decimal m.tier.toNat ++ decimal m.skinId.toNat, isDecimal c = true := by
    intro c hc
    rcases List.mem_append.1 hc with hc | hc
    · exact (decimal_run _).2 c hc
    · exact (decimal_run _).2 c hc
  have hne : decimal m.tier.toNat ++ decimal m.skinId.toNat ≠ [] := by
    simp [decimal_ne_nil]
  rw [shortest, runs_append hne hfirst hhead, runs_flatMap (by decide) hblock, decimal_of_lt htier]
  rfl

/-- The digit of the tier. -/
theorem digit_tier (htier : m.tier.toNat < 10) : digit (code m.tier.toNat.digitChar) = m.tier.toNat := by
  have hvalue := value_decimal m.tier.toNat
  rw [decimal_of_lt htier, value_cons, value_nil] at hvalue
  omega

/-- The value of a field of the shortest blueprint. -/
theorem value_field (m : Metadata) (i : ℕ) :
    value 0 (((trimmed m.others).map decimal).getD i []) = m.others.getD i 0 := by
  rw [← getD_trimmed, List.getD_eq_getElem?_getD, List.getD_eq_getElem?_getD, List.getElem?_map]
  cases (trimmed m.others)[i]? with
  | none => rfl
  | some n => exact value_decimal n

/-- **The parser reads the shortest blueprint.** -/
theorem parseBlueprint_shortest (htier : m.tier.toNat < 10) (hlen : (shortest m).length < 256) :
    parseBlueprint (shortest m) = .ok m := by
  refine parseBlueprint_ok_iff.2 ⟨hlen, _, _, _, runs_shortest htier, decimal_ne_nil _, ?_, ?_⟩
  · rw [List.length_map]
    exact trimmed_length_le m.others
  · exact ⟨(digit_tier htier).symm, (value_decimal _).symm, (value_field m 0).symm, (value_field m 1).symm,
      (value_field m 2).symm, (value_field m 3).symm⟩

/-! ## No other blueprint is shorter -/

/-- The ids of a blueprint are the values of its fields, and zeros. -/
theorem Fields.others (h : Fields d ds fields m) (hlen : fields.length ≤ 4) :
    m.others = fields.map (value 0) ++ List.replicate (4 - fields.length) 0 := by
  rw [Metadata.others, h.bodyId, h.eyeId, h.headId, h.propsId]
  match fields, hlen with
  | [], _ => rfl
  | [_], _ => rfl
  | [_, _], _ => rfl
  | [_, _, _], _ => rfl
  | [_, _, _, _], _ => rfl
  | _ :: _ :: _ :: _ :: _ :: _, hlen =>
    simp only [List.length_cons] at hlen
    omega

/-- Numbers take no more space than the runs that write them. -/
theorem space_le (h : ∀ f ∈ fields, f ≠ [] ∧ ∀ c ∈ f, isDecimal c = true) :
    space (fields.map (value 0)) ≤ (fields.map List.length).sum + fields.length := by
  induction fields with
  | nil => simp [space]
  | cons f fs ih =>
    obtain ⟨hne, hdigits⟩ := h f List.mem_cons_self
    have hf := length_decimal_value (fun c hc => isDecimal_iff.1 (hdigits c hc)) hne
    have ih := ih fun g hg => h g (List.mem_cons_of_mem f hg)
    simp only [space, List.map_cons, List.sum_cons, List.length_cons] at ih ⊢
    omega

/-- Fewer numbers take less space. -/
theorem space_trimmed_le (ns : List ℕ) : space (trimmed ns) ≤ space ns := by
  obtain ⟨zeros, hzeros⟩ := List.rdropWhile_prefix (· = 0) ns
  have hsplit : space ns = space (trimmed ns) + space zeros := by
    rw [space, space, space, ← List.sum_append, ← List.map_append, trimmed, hzeros]
  omega

/-- **No blueprint is shorter than the shortest.** -/
theorem shortest_le (h : parseBlueprint bp = .ok m) : m.tier.toNat < 10 ∧ (shortest m).length ≤ bp.length := by
  obtain ⟨-, d, ds, fields, hruns, hds, hfields, hm⟩ := parseBlueprint_ok_iff.1 h
  have hmem : ∀ f ∈ (d :: ds) :: fields, f ≠ [] ∧ ∀ c ∈ f, isDecimal c = true := by
    intro f hf
    exact of_mem_runs (hruns ▸ hf)
  have hfirst := (hmem _ List.mem_cons_self).2
  have hd := isDecimal_iff.1 (hfirst d List.mem_cons_self)
  have htier : m.tier.toNat < 10 := by
    have hhi := hd.2
    rw [hm.tier, digit]
    omega
  refine ⟨htier, ?_⟩
  have hskin : (decimal m.skinId.toNat).length ≤ ds.length := by
    rw [hm.skinId]
    exact length_decimal_value (fun c hc => isDecimal_iff.1 (hfirst c (List.mem_cons_of_mem d hc))) hds
  have hothers : space (trimmed m.others) ≤ (fields.map List.length).sum + fields.length := by
    rw [hm.others hfields, trimmed_append_zeros]
    exact (space_trimmed_le _).trans (space_le fun f hf => hmem f (List.mem_cons_of_mem _ hf))
  have hsum := sum_length_runs isDecimal bp
  have hskip : (skip isDecimal bp).length ≤ bp.length := List.length_dropWhile_le _ bp
  rw [hruns] at hsum
  simp only [List.map_cons, List.sum_cons, List.length_cons] at hsum
  rw [length_shortest, decimal_of_lt htier, List.length_singleton]
  omega

/-! ## Portraits -/

/-- The tier is one digit, and the shortest blueprint is within the reach of the parser's cursor. -/
def Mintable (m : Metadata) : Prop := m.tier.toNat < 10 ∧ (shortest m).length < 256

instance (m : Metadata) : Decidable (Mintable m) := inferInstanceAs (Decidable (_ ∧ _))

theorem mintable_of_parse (h : parseBlueprint bp = .ok m) : Mintable m := by
  obtain ⟨htier, hle⟩ := shortest_le h
  have hlen := (parseBlueprint_ok_iff.1 h).1
  exact ⟨htier, by omega⟩

/-- The bridge mints the shortest blueprint. -/
theorem exists_minted (h : Mintable m) : ∃ w, Reachable w ∧ w.owners 1 ≠ 0 ∧ w.metadata 1 = m := by
  refine ⟨after [(⟨7, .mintFor 2 1 (mintingBlob 1 (shortest m))⟩, .accept)], after_reachable _, ?_⟩
  have hparse := parseBlueprint_shortest h.1 h.2
  have hmint : safeMint accepting 7 2 1 genesis.toStorage = .ok { genesis.toStorage with
      balances := Function.update genesis.balances 2 1, owners := Function.update genesis.owners 1 2 } := rfl
  have hcall : ∃ w, call parseBlueprint ⟨7, .mintFor 2 1 (mintingBlob 1 (shortest m))⟩ (Hook.accept.run
      (call parseBlueprint)) genesis = .ok w ∧ w.owners 1 ≠ 0 ∧ w.metadata 1 = m := by
    simp only [call, require_pos, show (7 : Address) = genesis.imxMinter from rfl, ok_bind, split_mintingBlob]
    rw [show genesis.imxMinter = 7 from rfl, hmint, ok_bind]
    simp only [Hook.run, ok_bind, hparse, pure_eq_ok]
    refine ⟨_, rfl, ?_, ?_⟩
    · simp [World.record]
    · simp
  obtain ⟨w, hok, howner, hmeta⟩ := hcall
  have hafter : after [(⟨7, .mintFor 2 1 (mintingBlob 1 (shortest m))⟩, .accept)] = w := by
    simp only [after, transactions, List.foldl_cons, List.foldl_nil, transact, hok]
  rw [hafter]
  exact ⟨howner, hmeta⟩

/-- **A portrait can exist if and only if it is mintable**: in every reachable layer every token has mintable metadata,
and all of it can be had. Its shortest blueprint is read back, and no blueprint for it is shorter. -/
theorem mintable_iff (m : Metadata) :
    ((∃ w id, Reachable w ∧ w.owners id ≠ 0 ∧ w.metadata id = m) ↔ Mintable m) ∧
      (Mintable m → parseBlueprint (shortest m) = .ok m) ∧
      ∀ bp, parseBlueprint bp = .ok m → (shortest m).length ≤ bp.length := by
  refine ⟨⟨?_, ?_⟩, fun h => parseBlueprint_shortest h.1 h.2, fun bp h => (shortest_le h).2⟩
  · rintro ⟨w, id, hreach, hid, rfl⟩
    obtain ⟨bp, -, hparse⟩ := (corresponds_reachable hreach).minted id hid
    exact mintable_of_parse (hparse (Set.notMem_empty id))
  · intro h
    obtain ⟨w, hreach, howner, hmeta⟩ := exists_minted h
    exact ⟨w, 1, hreach, howner, hmeta⟩

/-- Five ids of 78 digits are too long. -/
example : ¬Mintable ⟨5, BitVec.allOnes 256, BitVec.allOnes 256, BitVec.allOnes 256, BitVec.allOnes 256,
    BitVec.allOnes 256⟩ := by decide +kernel

end PortraitLayer
end Illuvitars
