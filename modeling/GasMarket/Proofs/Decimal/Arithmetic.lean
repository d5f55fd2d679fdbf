import GasMarket.Proofs.Decimal.Rounding

namespace GasMarket.Decimal

theorem inRange_of_natAbs_le {n : Int} {k : Nat} (h : n.natAbs ≤ k) (hk : k < 2 ^ 255) :
    InRange n := by
  unfold InRange bound
  omega

theorem InRange.tdiv {n : Int} (h : InRange n) {d : Int} (hd : 0 < d) : InRange (n.tdiv d) := by
  have hle := Int.natAbs_tdiv_le_natAbs n d
  have hsign : n ≤ 0 → n.tdiv d ≤ 0 := fun hn => by
    simpa using Int.tdiv_le_tdiv hd hn
  unfold InRange bound at *
  omega

theorem add_eq_ok_iff {a b c : Decimal} : a.add b = .ok c ↔ c.units = a.units + b.units :=
  ofUnits_eq_ok_iff

theorem sub_eq_ok_iff {a b c : Decimal} : a.sub b = .ok c ↔ c.units = a.units - b.units :=
  ofUnits_eq_ok_iff

theorem ofInt_eq_ok_iff {n : Int} {c : Decimal} : ofInt n = .ok c ↔ c.units = scale * n :=
  ofUnits_eq_ok_iff

section Rounded

variable {r : Rounding} {a b c : Decimal} {fault : ArithmeticFault}

theorem roundedQuotient_scale (r : Rounding) {n : Int} (h : InRange n) :
    roundedQuotient r n scale = .ok (r.divide n scale) ∧ InRange (r.divide n scale) := by
  have hquotient : InRange (n.tdiv scale) := h.tdiv (by decide)
  exact ⟨roundedQuotient_eq r h (by decide) (by decide) hquotient,
    inRange_divide r h (by decide) hquotient⟩

theorem inRange_tdiv_of_scaled {n : Int} (h : InRange (n * scale)) (d : Int) :
    InRange ((n * scale).tdiv d) := by
  apply inRange_tdiv h
  unfold bound scale
  omega

theorem roundedQuotient_scaled (r : Rounding) {n d : Int} (h : InRange (n * scale)) (hd : InRange d)
    (hd' : d ≠ 0) : roundedQuotient r (n * scale) d = .ok (r.divide (n * scale) d) ∧
      InRange (r.divide (n * scale) d) := by
  have hquotient := inRange_tdiv_of_scaled h d
  exact ⟨roundedQuotient_eq r h hd hd' hquotient, inRange_divide r h hd' hquotient⟩

theorem mulWith_of_inRange (r : Rounding) (h : InRange (a.units * b.units)) :
    ∃ c, mulWith r a b = .ok c ∧ c.units = r.divide (a.units * b.units) scale := by
  obtain ⟨hquotient, hrange⟩ := roundedQuotient_scale r h
  refine ⟨⟨_, hrange⟩, ?_, rfl⟩
  simp only [mulWith, bind_eq_ok_iff, checked_eq_ok_iff]
  exact ⟨_, ⟨h, rfl⟩, _, hquotient, ofUnits_eq_ok_iff.2 rfl⟩

theorem mulWith_of_not_inRange (r : Rounding) (h : ¬ InRange (a.units * b.units)) :
    mulWith r a b = .error .overflow := by
  rw [mulWith, checked, if_neg h]
  rfl

theorem quoWith_of_zero (r : Rounding) (h : b.units = 0) : quoWith r a b = .error .divisionByZero :=
  if_pos h

theorem quoWith_of_inRange (r : Rounding) (hb : b.units ≠ 0) (h : InRange (a.units * scale)) :
    ∃ c, quoWith r a b = .ok c ∧ c.units = r.divide (a.units * scale) b.units := by
  obtain ⟨hquotient, hrange⟩ := roundedQuotient_scaled r h b.inRange hb
  refine ⟨⟨_, hrange⟩, ?_, rfl⟩
  simp only [quoWith, if_neg hb, bind_eq_ok_iff, checked_eq_ok_iff]
  exact ⟨_, ⟨h, rfl⟩, _, hquotient, ofUnits_eq_ok_iff.2 rfl⟩

theorem quoWith_of_not_inRange (r : Rounding) (hb : b.units ≠ 0) (h : ¬ InRange (a.units * scale)) :
    quoWith r a b = .error .overflow := by
  rw [quoWith, if_neg hb, checked, if_neg h]
  rfl

theorem mul_eq_ok_iff : a.mul b = .ok c ↔
    InRange (a.units * b.units) ∧ c.units = (a.units * b.units).tdiv scale := by
  unfold mul
  by_cases h : InRange (a.units * b.units)
  · obtain ⟨c', hc, hunits⟩ := mulWith_of_inRange .truncate h
    rw [hc, Except.ok.injEq, Decimal.ext_iff, hunits, eq_comm]
    exact (and_iff_right h).symm
  · rw [mulWith_of_not_inRange .truncate h]
    exact ⟨nofun, fun hc => absurd hc.1 h⟩

theorem quo_eq_ok_iff : a.quo b = .ok c ↔
    b.units ≠ 0 ∧ InRange (a.units * scale) ∧ c.units = (a.units * scale).tdiv b.units := by
  unfold quo
  by_cases hb : b.units = 0
  · rw [quoWith_of_zero .truncate hb]
    exact ⟨nofun, fun hc => absurd hb hc.1⟩
  · by_cases h : InRange (a.units * scale)
    · obtain ⟨c', hc, hunits⟩ := quoWith_of_inRange .truncate hb h
      rw [hc, Except.ok.injEq, Decimal.ext_iff, hunits, eq_comm]
      exact ⟨fun hc => ⟨hb, h, hc⟩, fun hc => hc.2.2⟩
    · rw [quoWith_of_not_inRange .truncate hb h]
      exact ⟨nofun, fun hc => absurd hc.2.1 h⟩

theorem toInt_eq (r : Rounding) (a : Decimal) : a.toInt r = .ok (a.round r) :=
  (roundedQuotient_scale r a.inRange).1

theorem toAmount_eq (r : Rounding) (a : Decimal) : a.toAmount r =
    if a.round r < 0 then .error .overflow else .ok (BitVec.ofInt 256 (a.round r)) := by
  rw [toAmount, toInt_eq]
  rfl

theorem toAmount_eq_ok_iff {n : Amount} : a.toAmount r = .ok n ↔ (n.toNat : Int) = a.round r := by
  have hlt : a.round r < bound := (roundedQuotient_scale r a.inRange).2.2
  rw [toAmount_eq]
  generalize a.round r = k at hlt ⊢
  unfold bound at hlt
  by_cases h : k < 0
  · rw [if_pos h]
    constructor
    · intro heq
      cases heq
    · intro heq
      omega
  · rw [if_neg h]
    obtain ⟨m, rfl⟩ := Int.eq_ofNat_of_zero_le (Int.not_lt.1 h)
    rw [BitVec.ofInt_natCast, Except.ok.injEq, ← BitVec.toNat_inj, BitVec.toNat_ofNat,
      Nat.mod_eq_of_lt (by omega)]
    omega

end Rounded

theorem units_mul {a b c : Decimal} (h : a.mul b = .ok c) :
    c.units = (a.units * b.units).tdiv scale :=
  (mul_eq_ok_iff.1 h).2

theorem mul_tdiv_scale_le {n : Int} {b : Decimal} (hn : 0 ≤ n) (hb : b ≤ .one) :
    (n * b.units).tdiv scale ≤ n := by
  have hle : n * b.units ≤ n * scale := by
    apply Int.mul_le_mul_of_nonneg_left _ hn
    simpa [le_def] using hb
  calc (n * b.units).tdiv scale
      ≤ (n * scale).tdiv scale := Int.tdiv_le_tdiv (by decide) hle
    _ = n := Int.mul_tdiv_cancel _ (by decide)

theorem units_mul_le {a b c : Decimal} (h : a.mul b = .ok c) (ha : 0 ≤ a.units)
    (hb : b ≤ .one) : c.units ≤ a.units := by
  rw [units_mul h]
  exact mul_tdiv_scale_le ha hb

theorem exists_mul_of_le {a lower b c : Decimal} (h : a.mul b = .ok c) (hb : 0 ≤ b.units)
    (hlower : 0 ≤ lower.units) (hle : lower ≤ a) :
    ∃ d, lower.mul b = .ok d ∧ 0 ≤ d.units ∧ d ≤ c := by
  obtain ⟨hrange, hc⟩ := mul_eq_ok_iff.1 h
  have hnonneg : 0 ≤ lower.units * b.units := Int.mul_nonneg hlower hb
  have hless : lower.units * b.units ≤ a.units * b.units := Int.mul_le_mul_of_nonneg_right hle hb
  have hrange' : InRange (lower.units * b.units) := by
    have hbound : 0 < bound := by decide
    unfold InRange at hrange ⊢
    omega
  refine ⟨⟨_, hrange'.tdiv (by decide)⟩, mul_eq_ok_iff.2 ⟨hrange', rfl⟩,
    Int.tdiv_nonneg hnonneg (by decide), ?_⟩
  rw [le_def, hc]
  exact Int.tdiv_le_tdiv (by decide) hless

section OnlyOverflows

variable {α β : Type}

def OnlyOverflows (r : Except ArithmeticFault α) : Prop :=
  ∀ fault, r = .error fault → fault = .overflow

theorem onlyOverflows_ok (a : α) : OnlyOverflows (.ok a) := nofun

theorem OnlyOverflows.bind {r : Except ArithmeticFault α} {f : α → Except ArithmeticFault β}
    (hr : OnlyOverflows r) (hf : ∀ a, r = .ok a → OnlyOverflows (f a)) :
    OnlyOverflows (r >>= f) := by
  cases r with
  | ok a => exact hf a rfl
  | error fault => exact fun fault' h => hr fault' (by cases h; rfl)

theorem OnlyOverflows.map {r : Except ArithmeticFault α} (h : OnlyOverflows r) (f : α → β) :
    OnlyOverflows (r.map f) := by
  cases r with
  | ok a => exact nofun
  | error fault => exact fun fault' h' => h fault' (by cases h'; rfl)

theorem onlyOverflows_ofUnits (n : Int) : OnlyOverflows (ofUnits n) :=
  fun _ h => (ofUnits_eq_error_iff.1 h).1

theorem onlyOverflows_add (a b : Decimal) : OnlyOverflows (a.add b) := onlyOverflows_ofUnits _

theorem onlyOverflows_ofInt (n : Int) : OnlyOverflows (ofInt n) := onlyOverflows_ofUnits _

theorem onlyOverflows_mul (a b : Decimal) : OnlyOverflows (a.mul b) := by
  unfold mul
  by_cases h : InRange (a.units * b.units)
  · obtain ⟨c, hc, -⟩ := mulWith_of_inRange .truncate h
    rw [hc]
    exact onlyOverflows_ok c
  · rw [mulWith_of_not_inRange .truncate h]
    exact fun _ h => by cases h; rfl

theorem onlyOverflows_quo (a : Decimal) {b : Decimal} (hb : b.units ≠ 0) :
    OnlyOverflows (a.quo b) := by
  unfold quo
  by_cases h : InRange (a.units * scale)
  · obtain ⟨c, hc, -⟩ := quoWith_of_inRange .truncate hb h
    rw [hc]
    exact onlyOverflows_ok c
  · rw [quoWith_of_not_inRange .truncate hb h]
    exact fun _ h => by cases h; rfl

end OnlyOverflows

end GasMarket.Decimal
