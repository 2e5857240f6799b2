import Kanatoko.Capture.Coverage

/-!
# Entry metadata

The check of an entry's last-modified and live-until ledgers is made in 32-bit arithmetic. It
says what the same check says in unbounded integers.
-/

namespace Kanatoko

/-! ## The arithmetic -/

theorem saturatingSub_one (m : UInt32) : (saturatingSub m 1).toNat = m.toNat - 1 := by
  unfold saturatingSub
  have hone : (1 : UInt32).toNat = 1 := rfl
  split
  · next hle => rw [UInt32.toNat_sub_of_le _ _ hle, hone]
  · next hlt =>
    rw [UInt32.le_iff_toNat_le, hone] at hlt
    have hzero : (0 : UInt32).toNat = 0 := rfl
    omega

/-- The checked sum is the sum, and is missing exactly when the sum does not fit. -/
theorem checkedAdd_eq_some {a b c : UInt32} :
    checkedAdd a b = some c ↔ c.toNat = a.toNat + b.toNat := by
  unfold checkedAdd
  have hc : c.toNat < 2 ^ 32 := c.toNat_lt
  split
  · next hfits =>
    rw [Option.some.injEq, ← UInt32.toNat_inj, UInt32.toNat_add, Nat.mod_eq_of_lt hfits, eq_comm]
  · next hover =>
    refine iff_of_false (fun h => by cases h) fun h => ?_
    omega

/-! ## The specification -/

/-- A live-until ledger an entry can have at ledger `q` under the longest lifetime `m`. -/
def LiveIn (q m ttl : UInt32) : Prop :=
  (q.toNat : ℤ) ≤ ttl.toNat ∧ (ttl.toNat : ℤ) ≤ q.toNat + m.toNat - 1

/-- What the live-until ledger must be, by the family of the entry. -/
def LiveUntilSpec (data : LedgerEntryData) (liveUntil : Option UInt32) (q m : UInt32) : Prop :=
  match data with
  | .contractCode _ => ∃ ttl, liveUntil = some ttl ∧ (ttl = 0 ∨ LiveIn q m ttl)
  | .contractData d =>
    match d.durability with
    | .persistent => ∃ ttl, liveUntil = some ttl ∧ (ttl = 0 ∨ LiveIn q m ttl)
    | .temporary => ∃ ttl, liveUntil = some ttl ∧ LiveIn q m ttl
  | .account _ | .trustline _ => liveUntil = none
  | _ => False

/-- The whole check, in unbounded integers. -/
structure MetadataSpec (entry : LedgerEntry) (liveUntil : Option UInt32) (q m : UInt32) : Prop where
  lifetime : (1 : ℤ) ≤ m.toNat
  lastModified : (entry.lastModifiedLedgerSeq.toNat : ℤ) ≤ q.toNat
  fits : (q.toNat : ℤ) + m.toNat - 1 ≤ 2 ^ 32 - 1
  liveUntil : LiveUntilSpec entry.data liveUntil q m

/-! ## The check -/

/-- The check of the live-until ledger against the last ledger an entry can live until. -/
theorem liveUntil_check {data : LedgerEntryData} {liveUntil : Option UInt32} {q m last : UInt32}
    (hm : 1 ≤ m.toNat) (hlast : last.toNat = q.toNat + (m.toNat - 1)) :
    (match data with
      | .contractCode _ => liveUntil.any fun ttl => ttl == 0 || (decide (q ≤ ttl) && decide (ttl ≤ last))
      | .contractData data =>
        match data.durability with
        | .persistent => liveUntil.any fun ttl => ttl == 0 || (decide (q ≤ ttl) && decide (ttl ≤ last))
        | .temporary => liveUntil.any fun ttl => decide (q ≤ ttl) && decide (ttl ≤ last)
      | .account _ => liveUntil.isNone
      | .trustline _ => liveUntil.isNone
      | _ => false) = true ↔ LiveUntilSpec data liveUntil q m := by
  have hlive : ∀ ttl, (decide (q ≤ ttl) && decide (ttl ≤ last)) = true ↔ LiveIn q m ttl := by
    intro ttl
    rw [Bool.and_eq_true, decide_eq_true_eq, decide_eq_true_eq, UInt32.le_iff_toNat_le,
      UInt32.le_iff_toNat_le, LiveIn]
    omega
  unfold LiveUntilSpec
  cases data with
  | contractCode code => simp only [Option.any_eq_true, Bool.or_eq_true, beq_iff_eq, hlive]
  | contractData d =>
    cases hd : d.durability with
    | persistent => simp only [hd, Option.any_eq_true, Bool.or_eq_true, beq_iff_eq, hlive]
    | temporary => simp only [hd, Option.any_eq_true, hlive]
  | account a => exact Option.isNone_iff_eq_none
  | trustline t => exact Option.isNone_iff_eq_none
  | offer _ _ _ | data _ _ _ | claimableBalance _ _ | liquidityPool _ _ | configSetting _
  | ttl _ _ => simp

/-- **The check is its integer specification.** -/
theorem validateEntryMetadata_iff {entry : LedgerEntry} {liveUntil : Option UInt32} {q m : UInt32} :
    validateEntryMetadata entry liveUntil q m = true ↔ MetadataSpec entry liveUntil q m := by
  unfold validateEntryMetadata
  by_cases hguard : entry.lastModifiedLedgerSeq > q || m == 0
  · rw [if_pos hguard]
    refine iff_of_false Bool.false_ne_true fun h => ?_
    simp only [Bool.or_eq_true, decide_eq_true_eq, beq_iff_eq, gt_iff_lt,
      UInt32.lt_iff_toNat_lt] at hguard
    have hlifetime := h.lifetime
    have hmodified := h.lastModified
    rcases hguard with hlt | rfl
    · omega
    · have hzero : (0 : UInt32).toNat = 0 := rfl
      omega
  · rw [if_neg hguard]
    simp only [Bool.or_eq_true, decide_eq_true_eq, beq_iff_eq, gt_iff_lt, not_or,
      UInt32.lt_iff_toNat_lt, ← UInt32.toNat_inj] at hguard
    have hzero : (0 : UInt32).toNat = 0 := rfl
    have hm : 1 ≤ m.toNat := by omega
    have hq : q.toNat < 2 ^ 32 := q.toNat_lt
    cases hlast : checkedAdd q (saturatingSub m 1) with
    | none =>
      refine iff_of_false Bool.false_ne_true fun h => ?_
      -- a sum that fits would be the checked sum
      have hfits : q.toNat + (m.toNat - 1) < 2 ^ 32 := by
        have hspec := h.fits
        omega
      have hsome := (checkedAdd_eq_some (a := q) (b := saturatingSub m 1)
        (c := UInt32.ofNat (q.toNat + (m.toNat - 1)))).mpr
        (by rw [saturatingSub_one, UInt32.toNat_ofNat_of_lt' hfits])
      rw [hlast] at hsome
      cases hsome
    | some last =>
      have hsum := checkedAdd_eq_some.mp hlast
      rw [saturatingSub_one] at hsum
      have hmax : last.toNat < 2 ^ 32 := last.toNat_lt
      refine (liveUntil_check hm hsum).trans ⟨fun h => ⟨?_, ?_, ?_, h⟩, MetadataSpec.liveUntil⟩
      · omega
      · omega
      · omega

/-- **Entry metadata is validated as in unbounded integers**, and no step of the check wraps. -/
theorem metadata_validation_exact (entry : LedgerEntry) (liveUntil : Option UInt32)
    (q m : UInt32) :
    (validateEntryMetadata entry liveUntil q m = true ↔ MetadataSpec entry liveUntil q m) ∧
      (saturatingSub m 1).toNat = m.toNat - 1 ∧
      ∀ last, checkedAdd q (saturatingSub m 1) = some last ↔
        last.toNat = q.toNat + (m.toNat - 1) := by
  refine ⟨validateEntryMetadata_iff, saturatingSub_one m, fun last => ?_⟩
  rw [checkedAdd_eq_some, saturatingSub_one]

end Kanatoko
