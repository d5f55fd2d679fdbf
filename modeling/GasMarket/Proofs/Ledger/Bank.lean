import GasMarket.Bank
import GasMarket.Proofs.Ledger.Coin
import GasMarket.Proofs.Ledger.Total

/-! Transfers as a ledger sees them.  Additions of the bank wrap, but below a supply that fits into
an amount they never do, so that a transfer adds exactly what it takes away. -/

namespace GasMarket

namespace Bank

def holding (b : Bank) (address : Address) (denom : String) : Nat := (b.balance address denom).toNat

def inDenom (denom : String) (key : Address × String) (amount : Amount) : Nat :=
  if key.2 = denom then amount.toNat else 0

def supply (b : Bank) (denom : String) : Nat := b.balances.total (inDenom denom)

def Bounded (b : Bank) : Prop := ∀ denom, b.supply denom < Amount.size

theorem weight_balances (b : Bank) (address : Address) (denom kind : String) :
    b.balances.weight (inDenom denom) (address, kind) =
      if kind = denom then b.holding address kind else 0 := by
  unfold Table.weight holding balance inDenom
  cases b.balances.get? (address, kind) with
  | none => simp
  | some amount => rfl

theorem holding_le_supply (b : Bank) (address : Address) (denom : String) :
    b.holding address denom ≤ b.supply denom := by
  have h := b.balances.weight_le_total (inDenom denom) (address, denom)
  rw [weight_balances, if_pos rfl] at h
  exact h

theorem supply_setBalance (b : Bank) (address : Address) (denom kind : String) (amount : Amount) :
    (b.setBalance address kind amount).supply denom +
        (if kind = denom then b.holding address kind else 0) =
      b.supply denom + if kind = denom then amount.toNat else 0 := by
  rw [← weight_balances]
  exact Table.total_insert _ _ _ _

@[simp] theorem holding_setBalance (b : Bank) (address other : Address) (denom kind : String)
    (amount : Amount) : (b.setBalance address denom amount).holding other kind =
      if address = other ∧ denom = kind then amount.toNat else b.holding other kind := by
  simp only [holding, balance_setBalance, Prod.mk.injEq]
  split <;> rfl

theorem bounded_single (address : Address) (denom : String) (amount : Amount) :
    (empty.setBalance address denom amount).Bounded := by
  intro kind
  have hsupply := supply_setBalance empty address kind denom amount
  have hlt : amount.toNat < Amount.size := amount.isLt
  change _ = 0 + _ at hsupply
  split at hsupply
  · omega
  · omega

/-- Coins may have changed hands, but there are as many as before. -/
structure Kept (b b' : Bank) : Prop where
  modules : b'.modules = b.modules
  supply : ∀ denom, b'.supply denom = b.supply denom

theorem Kept.refl (b : Bank) : b.Kept b := ⟨rfl, fun _ => rfl⟩

theorem Kept.trans {b mid b' : Bank} (h : b.Kept mid) (h' : mid.Kept b') : b.Kept b' where
  modules := h'.modules.trans h.modules
  supply denom := (h'.supply denom).trans (h.supply denom)

theorem Kept.bounded {b b' : Bank} (h : b.Kept b') (hb : b.Bounded) : b'.Bounded := by
  intro denom
  rw [h.supply]
  exact hb denom

structure Transfer (b b' : Bank) (sender receiver : Address) (coin : Coin) : Prop
    extends Kept b b' where
  disabled : b'.disabled = b.disabled
  holding : ∀ address denom,
    b'.holding address denom + (if sender = address then coin.worth denom else 0) =
      b.holding address denom + if receiver = address then coin.worth denom else 0
  arrived : coin.amount.toNat ≤ b'.holding receiver coin.denom

theorem Transfer.of_isZero (b : Bank) (sender receiver : Address) {coin : Coin} (h : coin.IsZero) :
    b.Transfer b sender receiver coin where
  toKept := .refl b
  disabled := rfl
  holding address denom := by simp [Coin.worth_of_isZero h]
  arrived := by
    rw [show coin.amount = 0 from h]
    exact Nat.zero_le _

structure Same (b b' : Bank) : Prop extends Kept b b' where
  disabled : b'.disabled = b.disabled
  holding : ∀ address denom, b'.holding address denom = b.holding address denom

theorem Same.refl (b : Bank) : b.Same b := ⟨.refl b, rfl, fun _ _ => rfl⟩

theorem Transfer.undone {b mid b' : Bank} {sender receiver : Address} {coin : Coin}
    (out : b.Transfer mid sender receiver coin) (back : mid.Transfer b' receiver sender coin) :
    b.Same b' where
  toKept := out.toKept.trans back.toKept
  disabled := back.disabled.trans out.disabled
  holding address denom := by
    have hout := out.holding address denom
    have hback := back.holding address denom
    omega

section Ends

variable {b b' : Bank} {sender receiver : Address} {coin : Coin}
  (h : b.Transfer b' sender receiver coin) (denom : String)

include h

theorem Transfer.holding_sender (hne : sender ≠ receiver) :
    b'.holding sender denom + coin.worth denom = b.holding sender denom := by
  have hmoved := h.holding sender denom
  rwa [if_pos rfl, if_neg hne.symm, Nat.add_zero] at hmoved

theorem Transfer.holding_receiver (hne : sender ≠ receiver) :
    b'.holding receiver denom = b.holding receiver denom + coin.worth denom := by
  have hmoved := h.holding receiver denom
  rwa [if_neg hne, if_pos rfl, Nat.add_zero] at hmoved

theorem Transfer.holding_of_ne {address : Address} (hsender : sender ≠ address)
    (hreceiver : receiver ≠ address) : b'.holding address denom = b.holding address denom := by
  have hmoved := h.holding address denom
  rwa [if_neg hsender, if_neg hreceiver, Nat.add_zero, Nat.add_zero] at hmoved

end Ends

def debit (b : Bank) (sender : Address) (coin : Coin) : Bank :=
  b.setBalance sender coin.denom (b.balance sender coin.denom - coin.amount)

def credit (b : Bank) (receiver : Address) (coin : Coin) : Bank :=
  b.setBalance receiver coin.denom (b.balance receiver coin.denom + coin.amount)

theorem move_eq (b : Bank) (sender receiver : Address) (coin : Coin) :
    b.move sender receiver coin = (b.debit sender coin).credit receiver coin := rfl

section Halves

variable {b : Bank} {account : Address} {coin : Coin}

theorem toNat_debit (hcover : coin.amount.toNat ≤ b.holding account coin.denom) :
    (b.balance account coin.denom - coin.amount).toNat =
      b.holding account coin.denom - coin.amount.toNat :=
  BitVec.toNat_sub_of_le hcover

theorem toNat_credit (hroom : b.supply coin.denom + coin.amount.toNat < Amount.size) :
    (b.balance account coin.denom + coin.amount).toNat =
      b.holding account coin.denom + coin.amount.toNat := by
  have hle := holding_le_supply b account coin.denom
  apply BitVec.toNat_add_of_lt
  exact Nat.lt_of_le_of_lt (Nat.add_le_add_right hle _) hroom

theorem holding_debit (hcover : coin.amount.toNat ≤ b.holding account coin.denom)
    (address : Address) (denom : String) :
    (b.debit account coin).holding address denom +
        (if account = address then coin.worth denom else 0) = b.holding address denom := by
  rw [debit, holding_setBalance, toNat_debit hcover]
  by_cases ha : account = address
  · subst ha
    by_cases hd : coin.denom = denom
    · subst hd
      simp [Coin.worth, hcover]
    · simp [Coin.worth, hd]
  · simp [ha]

theorem holding_credit (hroom : b.supply coin.denom + coin.amount.toNat < Amount.size)
    (address : Address) (denom : String) :
    (b.credit account coin).holding address denom =
      b.holding address denom + if account = address then coin.worth denom else 0 := by
  rw [credit, holding_setBalance, toNat_credit hroom]
  by_cases ha : account = address
  · subst ha
    by_cases hd : coin.denom = denom
    · subst hd
      simp [Coin.worth]
    · simp [Coin.worth, hd]
  · simp [ha]

theorem supply_debit (hcover : coin.amount.toNat ≤ b.holding account coin.denom)
    (denom : String) : (b.debit account coin).supply denom + coin.worth denom = b.supply denom := by
  have h := supply_setBalance b account denom coin.denom
    (b.balance account coin.denom - coin.amount)
  rw [toNat_debit hcover] at h
  unfold debit Coin.worth
  by_cases hd : coin.denom = denom
  · rw [if_pos hd, if_pos hd] at h
    rw [if_pos hd]
    omega
  · rw [if_neg hd, if_neg hd] at h
    rw [if_neg hd]
    exact h

theorem supply_credit (hroom : b.supply coin.denom + coin.amount.toNat < Amount.size)
    (denom : String) :
    (b.credit account coin).supply denom = b.supply denom + coin.worth denom := by
  have h := supply_setBalance b account denom coin.denom
    (b.balance account coin.denom + coin.amount)
  rw [toNat_credit hroom] at h
  unfold credit Coin.worth
  by_cases hd : coin.denom = denom
  · rw [if_pos hd, if_pos hd] at h
    rw [if_pos hd]
    omega
  · rw [if_neg hd, if_neg hd] at h
    rw [if_neg hd]
    exact h

end Halves

theorem transfer_move {b : Bank} (hb : b.Bounded) {sender : Address} {coin : Coin}
    (hcover : coin.amount.toNat ≤ b.holding sender coin.denom) (receiver : Address) :
    b.Transfer (b.move sender receiver coin) sender receiver coin := by
  have hout := supply_debit hcover
  -- what was taken from the sender leaves room for it at the receiver, who may be the sender
  have hroom : (b.debit sender coin).supply coin.denom + coin.amount.toNat < Amount.size := by
    have h := hout coin.denom
    rw [Coin.worth, if_pos rfl] at h
    rw [h]
    exact hb coin.denom
  rw [move_eq]
  refine ⟨⟨rfl, ?_⟩, rfl, ?_, ?_⟩
  · intro denom
    rw [supply_credit hroom, hout]
  · intro address denom
    rw [holding_credit hroom, ← holding_debit hcover address denom]
    exact Nat.add_right_comm _ _ _
  · rw [holding_credit hroom, if_pos rfl, Coin.worth, if_pos rfl]
    exact Nat.le_add_left _ _

theorem holding_move_of_ne {b : Bank} {sender receiver : Address} (hother : receiver ≠ sender)
    {coin : Coin} (hcover : coin.amount.toNat ≤ b.holding sender coin.denom) (denom : String) :
    (b.move sender receiver coin).holding sender denom + coin.worth denom =
      b.holding sender denom := by
  have hdebit := holding_debit hcover sender denom
  rw [if_pos rfl] at hdebit
  rw [move_eq, credit, holding_setBalance, if_neg fun hkey => hother hkey.1]
  exact hdebit

theorem holding_le_move {b : Bank} {sender : Address} {coin : Coin}
    (hcover : coin.amount.toNat ≤ b.holding sender coin.denom) (receiver : Address)
    (denom : String) :
    b.holding sender denom ≤
      (b.move sender receiver coin).holding sender denom + coin.worth denom := by
  by_cases hself : receiver = sender
  · have hsame : (b.debit sender coin).balance sender coin.denom + coin.amount =
        b.balance sender coin.denom := by
      rw [debit, balance_setBalance, if_pos rfl, BitVec.sub_add_cancel]
    have hdebit := holding_debit hcover sender denom
    rw [if_pos rfl] at hdebit
    rw [move_eq, hself, credit, hsame, holding_setBalance]
    split
    case isTrue h =>
      rw [← h.2]
      exact Nat.le_add_right _ _
    case isFalse h => exact Nat.le_of_eq hdebit.symm
  · exact Nat.le_of_eq (holding_move_of_ne hself hcover denom).symm

def Admits (b : Bank) (sender : Address) (coin : Coin) : Prop :=
  coin.denom ∉ b.disabled ∧ coin.amount.toNat ≤ b.holding sender coin.denom

theorem sendEnabled_coins_eq_ok_iff {b : Bank} {coins : List Coin} {u : Unit} :
    b.sendEnabled coins = .ok u ↔ ∀ coin ∈ coins, coin.denom ∉ b.disabled := by
  unfold sendEnabled
  cases hfound : coins.find? (·.denom ∈ b.disabled) with
  | none => simpa using hfound
  | some coin =>
    have hmem := List.mem_of_find?_eq_some hfound
    have hdisabled : coin.denom ∈ b.disabled := by simpa using List.find?_some hfound
    exact iff_of_false nofun fun h => h coin hmem hdisabled

theorem send_coins_eq_ok_iff {b b' : Bank} {sender receiver : Address} {coins : List Coin} :
    b.send sender receiver coins = .ok b' ↔
      (∀ coin ∈ coins, b.Admits sender coin) ∧ b' = coins.foldl (·.move sender receiver ·) b := by
  unfold send Admits
  rw [bind_eq_ok_iff, forall₂_and]
  simp only [sendEnabled_coins_eq_ok_iff, exists_const, and_assoc]
  apply and_congr_right
  intro _
  cases hfound : coins.find? fun coin => b.balance sender coin.denom < coin.amount with
  | none =>
    have hcovered : ∀ coin ∈ coins, coin.amount.toNat ≤ b.holding sender coin.denom := by
      intro coin hmem
      have hle : coin.amount ≤ b.balance sender coin.denom := by
        simpa using List.find?_eq_none.1 hfound coin hmem
      exact hle
    rw [and_iff_right hcovered]
    exact ⟨fun h => (Except.ok.inj h).symm, fun h => congrArg Except.ok h.symm⟩
  | some coin =>
    have hmem := List.mem_of_find?_eq_some hfound
    have hless : b.balance sender coin.denom < coin.amount := by simpa using List.find?_some hfound
    exact iff_of_false nofun fun h => Nat.not_le_of_lt hless (h.1 coin hmem)

theorem sendEnabled_eq_ok_iff {b : Bank} {coin : Coin} {u : Unit} :
    b.sendEnabled [coin] = .ok u ↔ coin.denom ∉ b.disabled := by
  rw [sendEnabled_coins_eq_ok_iff, List.forall_mem_singleton]

theorem send_eq_ok_iff {b b' : Bank} {sender receiver : Address} {coin : Coin} :
    b.send sender receiver [coin] = .ok b' ↔ coin.denom ∉ b.disabled ∧
      coin.amount.toNat ≤ b.holding sender coin.denom ∧ b' = b.move sender receiver coin := by
  rw [send_coins_eq_ok_iff, List.forall_mem_singleton, Admits, and_assoc]
  rfl

theorem send_of_covered {b : Bank} {sender : Address} {coin : Coin}
    (hcover : coin.amount.toNat ≤ b.holding sender coin.denom) (receiver : Address) :
    b.send sender receiver [coin] =
      (b.sendEnabled [coin]).map fun _ => b.move sender receiver coin := by
  have hnone : ¬ b.balance sender coin.denom < coin.amount := Nat.not_lt.2 hcover
  rw [send]
  cases b.sendEnabled [coin] with
  | error fault => rfl
  | ok u =>
    simp only [List.find?_cons, hnone, decide_false, List.find?_nil]
    rfl

end Bank

end GasMarket
