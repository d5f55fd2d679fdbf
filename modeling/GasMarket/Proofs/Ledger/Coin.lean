import GasMarket.Coin.Arithmetic
import GasMarket.Proofs.Success

namespace GasMarket

namespace Coin

def worth (c : Coin) (denom : String) : Nat := if c.denom = denom then c.amount.toNat else 0

theorem worth_of_isZero {c : Coin} (h : c.IsZero) (denom : String) : c.worth denom = 0 := by
  unfold worth
  rw [show c.amount = 0 from h]
  simp

@[simp] theorem worth_zero (denom kind : String) : (zero kind).worth denom = 0 :=
  worth_of_isZero (isZero_zero kind) denom

theorem sameDenom_eq_ok_iff {a b : Coin} {u : Unit} :
    a.sameDenom b = .ok u ↔ a.denom = b.denom := by
  by_cases h : a.denom = b.denom
  · simp [sameDenom, h]
  · simp [sameDenom, h]

theorem add_eq_ok_iff {a b c : Coin} : a.add b = .ok c ↔
    a.denom = b.denom ∧ c.denom = a.denom ∧ c.amount.toNat = a.amount.toNat + b.amount.toNat := by
  unfold add
  simp only [bind_eq_ok_iff, sameDenom_eq_ok_iff]
  cases h : Amount.ofNat? (a.amount.toNat + b.amount.toNat) with
  | none =>
    have hne : c.amount.toNat ≠ a.amount.toNat + b.amount.toNat := by
      intro heq
      rw [Amount.ofNat?_eq_some_iff.2 heq] at h
      cases h
    simp [hne]
  | some sum =>
    have hsum := Amount.ofNat?_eq_some_iff.1 h
    obtain ⟨denom, amount⟩ := c
    rw [← hsum, BitVec.toNat_inj]
    simp [eq_comm]

theorem sub_eq_ok_iff {a b c : Coin} : a.sub b = .ok c ↔
    a.denom = b.denom ∧ c.denom = a.denom ∧ c.amount.toNat + b.amount.toNat = a.amount.toNat := by
  unfold sub
  simp only [bind_eq_ok_iff, sameDenom_eq_ok_iff]
  by_cases hle : b.amount ≤ a.amount
  · have hdifference := BitVec.toNat_sub_of_le hle
    have hle' : b.amount.toNat ≤ a.amount.toNat := hle
    obtain ⟨denom, amount⟩ := c
    simp only [if_pos hle, Except.ok.injEq, Coin.mk.injEq, exists_const]
    rw [← BitVec.toNat_inj, hdifference, eq_comm (a := a.denom) (b := denom)]
    constructor
    · rintro ⟨hdenom, hkind, hamount⟩
      exact ⟨hdenom, hkind, by omega⟩
    · rintro ⟨hdenom, hkind, hamount⟩
      exact ⟨hdenom, hkind, by omega⟩
  · have hlt : ¬ b.amount.toNat ≤ a.amount.toNat := hle
    simp only [if_neg hle]
    constructor
    · rintro ⟨_, _, h⟩
      cases h
    · rintro ⟨-, -, hamount⟩
      omega

theorem exists_sub_eq_error_iff {a b : Coin} (h : a.denom = b.denom) :
    (∃ e, a.sub b = .error e) ↔ a.amount.toNat < b.amount.toNat := by
  cases hsub : a.sub b with
  | ok c =>
    obtain ⟨-, -, hamount⟩ := sub_eq_ok_iff.1 hsub
    refine iff_of_false nofun ?_
    omega
  | error e =>
    refine iff_of_true ⟨e, rfl⟩ (Nat.lt_of_not_le fun hle => ?_)
    have hlt := a.amount.isLt
    have hok : a.sub b = .ok ⟨a.denom, BitVec.ofNat 256 (a.amount.toNat - b.amount.toNat)⟩ := by
      refine sub_eq_ok_iff.2 ⟨h, rfl, ?_⟩
      rw [BitVec.toNat_ofNat, Nat.mod_eq_of_lt (by omega)]
      omega
    rw [hok] at hsub
    cases hsub

theorem worth_add {a b c : Coin} (h : a.add b = .ok c) (denom : String) :
    c.worth denom = a.worth denom + b.worth denom := by
  obtain ⟨hab, hc, hamount⟩ := add_eq_ok_iff.1 h
  unfold worth
  rw [hc, ← hab]
  split
  · exact hamount
  · rfl

end Coin

end GasMarket
