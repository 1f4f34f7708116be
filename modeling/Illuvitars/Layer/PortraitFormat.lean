import Illuvitars.Lib.MaximalRuns
import Illuvitars.Layer.Portrait

/-!
# What the portrait layer accepts

* `atoi_ok_iff`: `_atoi` reads the first run of digits from its offset on and stops behind it, or at the end;
* `parseBlueprint_ok_iff`: the parser accepts exactly the strings of at most 255 bytes whose first run of digits has two
  digits or more, with at most four more runs: the first digit is the tier, and what follows it are the ids, with 0 for
  each that is missing;
* `onlyDocumented_iff`: so the parser keeps to the documented format, six runs of which the first is one digit, exactly
  on the strings that it rejects.
-/

namespace Illuvitars
namespace PortraitLayer

open Evm Decimal Minting BaseIlluvitar MaximalRuns

variable {a bp cs blob : List Uint8} {p q c : Uint8} {i v : Uint256} {m : Metadata}

/-! ## The cursor -/

/-- The cursor `p` stands in front of the part `cs` of the buffer. -/
def At (a : List Uint8) (p : Uint8) (cs : List Uint8) : Prop :=
  a.drop p.toNat = cs ∧ p.toNat + cs.length = a.length

/-- A cursor is known by the part it stands in front of. -/
theorem at_append {xs ys : List Uint8} (h : At a p (xs ++ ys)) : At a q ys ↔ q.toNat = p.toNat + xs.length := by
  obtain ⟨hdrop, hlen⟩ := h
  rw [List.length_append] at hlen
  constructor
  · rintro ⟨-, hq⟩
    omega
  · intro hq
    refine ⟨?_, by omega⟩
    rw [hq, ← List.drop_drop, hdrop, List.drop_left]

theorem at_zero : At a 0 a := ⟨rfl, by simp⟩

/-- The end of the buffer. -/
theorem at_nil (h : At a p cs) : cs = [] ↔ p.toNat = a.length := by
  rw [← List.length_eq_zero_iff]
  have := h.2
  omega

/-- In a short buffer there is a cursor for each part behind a cursor. -/
theorem exists_at {xs ys : List Uint8} (ha : a.length < 256) (h : At a p (xs ++ ys)) : ∃ q, At a q ys := by
  have hlen := h.2
  rw [List.length_append] at hlen
  obtain ⟨q, hq⟩ := (exists_toNat_eq (w := 8)).2 (show p.toNat + xs.length < 2 ^ 8 by omega)
  exact ⟨q, (at_append h).2 hq⟩

/-- There the first digit is found, -/
theorem exists_at_skip (ha : a.length < 256) (h : At a p cs) : ∃ q, At a q (skip isDecimal cs) := by
  rw [show cs = cs.takeWhile (!isDecimal ·) ++ skip isDecimal cs from List.takeWhile_append_dropWhile.symm] at h
  exact exists_at ha h

/-- and the end of the first run. -/
theorem exists_at_rest (ha : a.length < 256) (h : At a p cs) : ∃ q, At a q (rest isDecimal cs) := by
  obtain ⟨p', hp'⟩ := exists_at_skip ha h
  rw [← first_append_rest] at hp'
  exact exists_at ha hp'

/-! ## The loops -/

theorem skipNonDecimalFrom_ok_iff :
    skipNonDecimalFrom cs p = .ok q ↔ q.toNat + (skip isDecimal cs).length = p.toNat + cs.length := by
  induction cs generalizing p with
  | nil => simp [skipNonDecimalFrom, skip, BitVec.toNat_eq, eq_comm]
  | cons c cs ih =>
    rw [skipNonDecimalFrom]
    cases hc : isDecimal c with
    | true => simp [hc, BitVec.toNat_eq, eq_comm]
    | false =>
      have hone : (1 : Uint8).toNat = 1 := rfl
      have hle : (skip isDecimal cs).length ≤ cs.length := (List.dropWhile_sublist _).length_le
      simp only [Bool.false_eq_true, if_false, bind_ok_iff, checkedAdd_ok_iff, ih, skip_of_neg hc, List.length_cons]
      constructor
      · rintro ⟨p', hp', hq⟩
        omega
      · intro hq
        have hlt := q.isLt
        obtain ⟨p', hp'⟩ := (exists_toNat_eq (w := 8)).2 (show p.toNat + 1 < 2 ^ 8 by omega)
        exact ⟨p', by omega, by omega⟩

/-- `_skipNonDecimal` stops in front of the first digit. -/
theorem skipNonDecimal_ok_iff (h : At a p cs) : skipNonDecimal a p = .ok q ↔ At a q (skip isDecimal cs) := by
  have hsplit : cs = cs.takeWhile (!isDecimal ·) ++ skip isDecimal cs := List.takeWhile_append_dropWhile.symm
  rw [skipNonDecimal, h.1, skipNonDecimalFrom_ok_iff, at_append (hsplit ▸ h)]
  have hlen := congrArg List.length hsplit
  rw [List.length_append] at hlen
  omega

/-- The loop of `_atoi` reads on to the end of the run. -/
theorem atoiFrom_ok_iff :
    atoiFrom cs i p = .ok (v, q) ↔ v.toNat = value i.toNat (cs.takeWhile isDecimal) ∧
      q.toNat = p.toNat + (cs.takeWhile isDecimal).length := by
  induction cs generalizing i p with
  | nil => simp [atoiFrom, BitVec.toNat_eq, eq_comm]
  | cons c cs ih =>
    rw [atoiFrom]
    cases hc : isDecimal c with
    | false => simp [hc, BitVec.toNat_eq, eq_comm]
    | true =>
      obtain ⟨hlo, hhi⟩ := isDecimal_iff.1 hc
      have hval : ∀ d : Uint8, (d.setWidth 256).toNat = d.toNat := toNat_widen (by decide)
      have hten : (10 : Uint256).toNat = 10 := rfl
      have hzero : (0x30 : Uint8).toNat = 0x30 := rfl
      have hone : (1 : Uint8).toNat = 1 := rfl
      simp only [Bool.not_true, Bool.false_eq_true, if_false, bind_ok_iff, checkedMul_ok_iff, checkedSub_ok_iff,
        checkedAdd_ok_iff, ih, hval, hten, hzero, hone, List.takeWhile_cons_of_pos hc, value_cons, List.length_cons]
      constructor
      · rintro ⟨tens, ht, d, hd, i', hi', p', hp', hv, hq⟩
        have hpush : i'.toNat = 10 * i.toNat + digit c := by rw [digit]; omega
        exact ⟨hpush ▸ hv, by omega⟩
      · rintro ⟨hv, hq⟩
        -- the value read so far is no larger than the whole, so it fits
        have hle := le_value (cs.takeWhile isDecimal) (10 * i.toNat + digit c)
        have hvlt := v.isLt
        have hqlt := q.isLt
        have hd : digit c + 0x30 = c.toNat := by rw [digit]; omega
        obtain ⟨tens, ht⟩ := exists_toNat_eq.2 (show i.toNat * 10 < 2 ^ 256 by omega)
        obtain ⟨d, hd'⟩ := (exists_toNat_eq (w := 8)).2 (show digit c < 2 ^ 8 by omega)
        obtain ⟨i', hi'⟩ := exists_toNat_eq.2 (show 10 * i.toNat + digit c < 2 ^ 256 by omega)
        obtain ⟨p', hp'⟩ := (exists_toNat_eq (w := 8)).2 (show p.toNat + 1 < 2 ^ 8 by omega)
        exact ⟨tens, ht, d, by omega, i', by omega, p', hp', hi'.symm ▸ hv, by omega⟩

/-- **`_atoi` reads the first run of digits and stops behind it.** -/
theorem atoi_ok_iff (h : At a p cs) :
    atoi a p = .ok (v, q) ↔ v.toNat = value 0 (first isDecimal cs) ∧ At a q (rest isDecimal cs) := by
  have hsplit : cs = cs.takeWhile (!isDecimal ·) ++ skip isDecimal cs := List.takeWhile_append_dropWhile.symm
  have hat : ∀ {p'}, At a p' (skip isDecimal cs) ↔ p'.toNat = p.toNat + (cs.takeWhile (!isDecimal ·)).length :=
    at_append (hsplit ▸ h)
  simp only [atoi, bind_ok_iff, skipNonDecimal_ok_iff h]
  constructor
  · rintro ⟨p', hp', hloop⟩
    rw [hp'.1] at hloop
    obtain ⟨hv, hq⟩ := atoiFrom_ok_iff.1 hloop
    rw [← first_append_rest] at hp'
    exact ⟨hv, (at_append hp').2 hq⟩
  · rintro ⟨hv, hq⟩
    -- the cursor behind the run fits, so the one in front of it does
    have hlen : cs.length = (cs.takeWhile (!isDecimal ·)).length + (skip isDecimal cs).length := by
      rw [← List.length_append, ← hsplit]
    have hrun : (skip isDecimal cs).length = (first isDecimal cs).length + (rest isDecimal cs).length := by
      rw [← List.length_append, first_append_rest]
    have hlt := q.isLt
    have hq2 := hq.2
    have hp2 := h.2
    obtain ⟨p', hp'⟩ := (exists_toNat_eq (w := 8)).2
      (show p.toNat + (cs.takeWhile (!isDecimal ·)).length < 2 ^ 8 by omega)
    have hskip := hat.2 hp'
    refine ⟨p', hskip, ?_⟩
    rw [hskip.1]
    refine atoiFrom_ok_iff.2 ⟨hv, ?_⟩
    rw [← first_append_rest] at hskip
    exact (at_append hskip).1 hq

/-- The two bytes behind the cursor. -/
theorem read_two (h : At a p cs) {c c' : Uint8} :
    a[p.toNat + 1]? = some c' ∧ a[p.toNat]? = some c ↔ ∃ t, cs = c :: c' :: t := by
  have hget : ∀ k, a[p.toNat + k]? = cs[k]? := by
    intro k
    rw [← h.1, List.getElem?_drop]
  rw [hget 1, show a[p.toNat]? = cs[0]? from hget 0]
  cases cs with
  | nil => simp
  | cons x xs =>
    cases xs with
    | nil => simp
    | cons y ys => simp [and_comm]

/-! ## The parser -/

/-- The fields of `m` are the tier digit `d`, the number after it in its run, the other runs, 0 for a missing one. -/
structure Fields (d : Uint8) (ds : List Uint8) (fields : List (List Uint8)) (m : Metadata) : Prop where
  tier : m.tier.toNat = digit d
  skinId : m.skinId.toNat = value 0 ds
  bodyId : m.bodyId.toNat = value 0 (fields.getD 0 [])
  eyeId : m.eyeId.toNat = value 0 (fields.getD 1 [])
  headId : m.headId.toNat = value 0 (fields.getD 2 [])
  propsId : m.propsId.toNat = value 0 (fields.getD 3 [])

/-- The fields of a string whose first digit `d` is followed by `c :: t`, which starts with a digit. -/
structure Scanned (bp : List Uint8) (d c : Uint8) (t : List Uint8) (m : Metadata) : Prop where
  skip : skip isDecimal bp = d :: c :: t
  second : isDecimal c = true
  five : (runs isDecimal (rest isDecimal (c :: t))).length ≤ 4
  fields : Fields d (first isDecimal (c :: t)) (runs isDecimal (rest isDecimal (c :: t))) m

/-- The value of a field, as the scanner reads it. -/
theorem value_iterate (n : ℕ) (cs : List Uint8) :
    value 0 (first isDecimal ((rest isDecimal)^[n] cs)) = value 0 ((runs isDecimal cs).getD n []) := by
  rw [first_iterate]

/-- What the parser has read when it returns. -/
theorem scanned_of_parse (h : parseBlueprint bp = .ok m) : bp.length < 256 ∧ ∃ d c t, Scanned bp d c t m := by
  have hone : (1 : Uint8).toNat = 1 := rfl
  have hzero : (0x30 : Uint8).toNat = 0x30 := rfl
  simp only [parseBlueprint, bind_ok_iff, Prod.exists, skipNonDecimal_ok_iff at_zero, checkedAdd_ok_iff, index_ok_iff,
    require_ok_iff, checkedSub_ok_iff, pure_eq_ok, Except.ok.injEq, hone, hzero] at h
  obtain ⟨p₀, hp₀, n, hn, c', hc', -, hdig, c, hc, p₁, hp₁, tier, htier, v₁, p₂, h₁, v₂, p₃, h₂, v₃, p₄, h₃, v₄, p₅,
    h₄, v₅, p₆, h₅, p₇, h₇, -, hend, rfl⟩ := h
  rw [hn] at hc'
  obtain ⟨t, ht⟩ := (read_two hp₀).1 ⟨hc', hc⟩
  -- the cursors behind the first digit, and behind the runs
  have hat₁ : At bp p₁ (c' :: t) := by
    rw [ht, ← List.singleton_append] at hp₀
    exact (at_append hp₀).2 hp₁
  obtain ⟨hv₁, hat₂⟩ := (atoi_ok_iff hat₁).1 h₁
  obtain ⟨hv₂, hat₃⟩ := (atoi_ok_iff hat₂).1 h₂
  obtain ⟨hv₃, hat₄⟩ := (atoi_ok_iff hat₃).1 h₃
  obtain ⟨hv₄, hat₅⟩ := (atoi_ok_iff hat₄).1 h₄
  obtain ⟨hv₅, hat₆⟩ := (atoi_ok_iff hat₅).1 h₅
  have hat₇ := (skipNonDecimal_ok_iff hat₆).1 h₇
  have hfive := (skip_iterate_eq_nil_iff 4).1 ((at_nil hat₇).2 hend)
  have htier' : tier.toNat = digit c := Nat.eq_sub_of_add_eq htier
  have hfields : Fields c (first isDecimal (c' :: t)) (runs isDecimal (rest isDecimal (c' :: t)))
      ⟨tier, v₁, v₂, v₃, v₄, v₅⟩ :=
    ⟨htier', hv₁, hv₂.trans (value_iterate 0 _), hv₃.trans (value_iterate 1 _), hv₄.trans (value_iterate 2 _),
      hv₅.trans (value_iterate 3 _)⟩
  exact ⟨hend ▸ p₇.isLt, c, c', t, ht, hdig, hfive, hfields⟩

/-- In a short string the parser reads that. -/
theorem Scanned.parse {d : Uint8} {t : List Uint8} (h : Scanned bp d c t m) (hlen : bp.length < 256) :
    parseBlueprint bp = .ok m := by
  have hone : (1 : Uint8).toNat = 1 := rfl
  have hzero : (0x30 : Uint8).toNat = 0x30 := rfl
  simp only [parseBlueprint, bind_ok_iff, Prod.exists, skipNonDecimal_ok_iff at_zero, checkedAdd_ok_iff, index_ok_iff,
    require_ok_iff, checkedSub_ok_iff, pure_eq_ok, Except.ok.injEq, hone, hzero]
  -- the cursors in front of the first digit, behind it, and behind the runs
  obtain ⟨p₀, hat₀⟩ := exists_at_skip hlen at_zero
  have hp₀ := hat₀
  rw [h.skip, ← List.singleton_append] at hat₀
  obtain ⟨p₁, hat₁⟩ := exists_at hlen hat₀
  obtain ⟨p₂, hat₂⟩ := exists_at_rest hlen hat₁
  obtain ⟨p₃, hat₃⟩ := exists_at_rest hlen hat₂
  obtain ⟨p₄, hat₄⟩ := exists_at_rest hlen hat₃
  obtain ⟨p₅, hat₅⟩ := exists_at_rest hlen hat₄
  obtain ⟨p₆, hat₆⟩ := exists_at_rest hlen hat₅
  obtain ⟨p₇, hat₇⟩ := exists_at_skip hlen hat₆
  have hp₁ := (at_append hat₀).1 hat₁
  rw [List.length_singleton] at hp₁
  obtain ⟨hc', hc⟩ := (read_two hat₀).2 ⟨t, rfl⟩
  rw [← hp₁] at hc'
  have hend : p₇.toNat = bp.length := (at_nil hat₇).1 ((skip_iterate_eq_nil_iff 4).2 h.five)
  have hdigit : isDecimal d = true := head_skip d (by rw [h.skip]; rfl)
  have htier : m.tier.toNat + 0x30 = d.toNat := by
    have hlo := (isDecimal_iff.1 hdigit).1
    rw [h.fields.tier, digit]
    omega
  have h₁ := (atoi_ok_iff hat₁).2 ⟨h.fields.skinId, hat₂⟩
  have h₂ := (atoi_ok_iff hat₂).2 ⟨h.fields.bodyId.trans (value_iterate 0 _).symm, hat₃⟩
  have h₃ := (atoi_ok_iff hat₃).2 ⟨h.fields.eyeId.trans (value_iterate 1 _).symm, hat₄⟩
  have h₄ := (atoi_ok_iff hat₄).2 ⟨h.fields.headId.trans (value_iterate 2 _).symm, hat₅⟩
  have h₅ := (atoi_ok_iff hat₅).2 ⟨h.fields.propsId.trans (value_iterate 3 _).symm, hat₆⟩
  exact ⟨p₀, hp₀, p₁, hp₁, c, hc', (), h.second, d, hc, p₁, hp₁, m.tier, htier, m.skinId, p₂, h₁, m.bodyId, p₃, h₂,
    m.eyeId, p₄, h₃, m.headId, p₅, h₄, m.propsId, p₆, h₅, p₇, (skipNonDecimal_ok_iff hat₆).2 hat₇, (), hend, rfl⟩

/-- **The strings the parser accepts, and what it returns.** -/
theorem parseBlueprint_ok_iff :
    parseBlueprint bp = .ok m ↔ bp.length < 256 ∧ ∃ d ds fields, runs isDecimal bp = (d :: ds) :: fields ∧ ds ≠ [] ∧
      fields.length ≤ 4 ∧ Fields d ds fields m := by
  constructor
  · intro h
    obtain ⟨hlen, d, c, t, hs⟩ := scanned_of_parse h
    obtain ⟨hruns, hne⟩ := runs_eq_cons_iff.2 ⟨c, t, hs.skip, hs.second, rfl, rfl⟩
    exact ⟨hlen, d, _, _, hruns, hne, hs.five, hs.fields⟩
  · rintro ⟨hlen, d, ds, fields, hruns, hds, hfive, hfields⟩
    obtain ⟨c, t, hskip, hsecond, rfl, rfl⟩ := runs_eq_cons_iff.1 ⟨hruns, hds⟩
    exact Scanned.parse ⟨hskip, hsecond, hfive, hfields⟩ hlen

/-! ## The documented format -/

/-- The string has the documented format, and its fields are those of `m`. -/
def Documented (bp : List Uint8) (m : Metadata) : Prop :=
  ∃ d skin body eye head props, runs isDecimal bp = [[d], skin, body, eye, head, props] ∧ m.tier.toNat = digit d ∧
    m.skinId.toNat = value 0 skin ∧ m.bodyId.toNat = value 0 body ∧ m.eyeId.toNat = value 0 eye ∧
    m.headId.toNat = value 0 head ∧ m.propsId.toNat = value 0 props

/-- The layer keeps to the documented format on the string: what it parses, and what it mints, is documented. -/
structure OnlyDocumented (bp : List Uint8) : Prop where
  parsed : ∀ m, parseBlueprint bp = .ok m → Documented bp m
  minted : ∀ (receiver : Receiver Metadata) (sender recipient : Address) (quantity tokenId : Uint256)
    (blob : List Uint8) (s s' : Storage Metadata), split blob = .ok (tokenId, bp) →
    mintFor receiver sender recipient quantity blob s = .ok s' → Documented bp (s'.metadata tokenId)

/-- The first run of digits holds the tier and the first id, at most four more follow, and all of it fits. -/
def Merged (bp : List Uint8) : Prop :=
  bp.length < 256 ∧ ∃ d ds fields, runs isDecimal bp = (d :: ds) :: fields ∧ ds ≠ [] ∧ fields.length ≤ 4 ∧
    ∀ f ∈ ds :: fields, value 0 f < 2 ^ 256

/-- The parser accepts exactly these strings. -/
theorem merged_iff : Merged bp ↔ ∃ m, parseBlueprint bp = .ok m := by
  simp only [parseBlueprint_ok_iff]
  constructor
  · rintro ⟨hlen, d, ds, fields, hruns, hds, hfields, hfit⟩
    have hget : ∀ n, value 0 (fields.getD n []) < 2 ^ 256 := by
      intro n
      rw [List.getD_eq_getElem?_getD]
      cases hn : fields[n]? with
      | none => simp
      | some f => exact hfit f (List.mem_cons_of_mem _ (List.mem_of_getElem? hn))
    have hdigit : digit d < 2 ^ 8 := by
      rw [digit]
      omega
    obtain ⟨tier, htier⟩ := exists_toNat_eq.2 hdigit
    obtain ⟨skin, hskin⟩ := exists_toNat_eq.2 (hfit ds List.mem_cons_self)
    obtain ⟨body, hbody⟩ := exists_toNat_eq.2 (hget 0)
    obtain ⟨eye, heye⟩ := exists_toNat_eq.2 (hget 1)
    obtain ⟨head, hhead⟩ := exists_toNat_eq.2 (hget 2)
    obtain ⟨props, hprops⟩ := exists_toNat_eq.2 (hget 3)
    exact ⟨⟨tier, skin, body, eye, head, props⟩, hlen, d, ds, fields, hruns, hds, hfields,
      ⟨htier, hskin, hbody, heye, hhead, hprops⟩⟩
  · rintro ⟨m, hlen, d, ds, fields, hruns, hds, hfields, hm⟩
    refine ⟨hlen, d, ds, fields, hruns, hds, hfields, ?_⟩
    rintro f (_ | ⟨_, hf⟩)
    · exact hm.skinId ▸ m.skinId.isLt
    · obtain ⟨n, hn, rfl⟩ := List.mem_iff_getElem.1 hf
      have hget : fields.getD n [] = fields[n] := by simp [hn]
      rw [← hget]
      obtain rfl | rfl | rfl | rfl : n = 0 ∨ n = 1 ∨ n = 2 ∨ n = 3 := by omega
      · exact hm.bodyId ▸ m.bodyId.isLt
      · exact hm.eyeId ▸ m.eyeId.isLt
      · exact hm.headId ▸ m.headId.isLt
      · exact hm.propsId ▸ m.propsId.isLt

/-- What the parser accepts is not documented: its first run has at least two digits. -/
theorem Merged.not_documented (h : Merged bp) (m : Metadata) : ¬Documented bp m := by
  obtain ⟨-, d, ds, fields, hruns, hds, -⟩ := h
  rintro ⟨d', skin, body, eye, head, props, hruns', -⟩
  rw [hruns] at hruns'
  cases hruns'
  exact hds rfl

/-- **The layer keeps to the documented format exactly on the strings that it rejects.** -/
theorem onlyDocumented_iff (bp : List Uint8) : OnlyDocumented bp ↔ ¬Merged bp := by
  constructor
  · intro h hmerged
    obtain ⟨m, hm⟩ := merged_iff.1 hmerged
    exact hmerged.not_documented m (h.parsed m hm)
  · intro h
    refine ⟨?_, ?_⟩
    · intro m hm
      exact absurd (merged_iff.2 ⟨m, hm⟩) h
    · intro receiver sender recipient quantity tokenId blob s s' hsplit hmint
      exact absurd (merged_iff.2 ⟨_, parsed_of_split hsplit hmint⟩) h

/-- The blueprint `53,20,31,42,68` has five fields, and the first has two digits. The layer mints it as tier 5 with the
skin 3. -/
theorem merged_accepted :
    runs isDecimal ("53,20,31,42,68".toList.map code) = ["53", "20", "31", "42", "68"].map (·.toList.map code) ∧
      parseBlueprint ("53,20,31,42,68".toList.map code) = .ok ⟨5, 3, 20, 31, 42, 68⟩ ∧
      (∃ s', mintFor (fun _ _ _ s => .ok s) 7 8 1 (mintingBlob 1 ("53,20,31,42,68".toList.map code))
        (Storage.deployed 7 ⟨0, 0, 0, 0, 0, 0⟩) = .ok s' ∧ s'.metadata 1 = ⟨5, 3, 20, 31, 42, 68⟩) ∧
      ¬OnlyDocumented ("53,20,31,42,68".toList.map code) := by
  have hparse : parseBlueprint ("53,20,31,42,68".toList.map code) = .ok ⟨5, 3, 20, 31, 42, 68⟩ := by decide
  refine ⟨by decide, hparse, ?_, ?_⟩
  · obtain ⟨s', hok, hm, -⟩ := mintsAs_iff.2 hparse (fun _ _ _ s => .ok s) 7 8 1
      (Storage.deployed 7 ⟨0, 0, 0, 0, 0, 0⟩) _ rfl rfl
    exact ⟨s', hok, hm⟩
  · intro h
    exact (merged_iff.2 ⟨_, hparse⟩).not_documented _ (h.parsed _ hparse)

end PortraitLayer
end Illuvitars
