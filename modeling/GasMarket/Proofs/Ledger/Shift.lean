import GasMarket.Proofs.Ledger.Solvency
import Mathlib.Data.BitVec

namespace GasMarket

/-- The second funds are the first ones with something added to each balance, where what was taken
away counts as added in the arithmetic of words, and with more accounts open. -/
structure Funds.Shifted (added : Address → String → Amount) (opened : Address → Prop)
    (funds funds' : Funds) : Prop where
  balance : ∀ address denom,
    funds'.bank.balance address denom = funds.bank.balance address denom + added address denom
  disabled : funds'.bank.disabled = funds.bank.disabled
  accounts : ∀ address,
    funds'.accounts.Exists address ↔ funds.accounts.Exists address ∨ opened address

namespace Funds.Shifted

variable {added : Address → String → Amount} {opened : Address → Prop} {funds funds' : Funds}

theorem create (h : funds.Shifted added opened funds') (address : Address) :
    { funds with accounts := funds.accounts.create address }.Shifted added opened
      { funds' with accounts := funds'.accounts.create address } where
  balance := h.balance
  disabled := h.disabled
  accounts other := by
    rw [Accounts.exists_create, Accounts.exists_create, h.accounts, or_assoc]

theorem setBalance (h : funds.Shifted added opened funds') (address : Address) (denom : String)
    (amount : Amount) :
    { funds with bank := funds.bank.setBalance address denom amount }.Shifted added opened
      { funds' with
        bank := funds'.bank.setBalance address denom (amount + added address denom) } where
  balance other kind := by
    rw [Bank.balance_setBalance, Bank.balance_setBalance]
    split
    · next heq =>
      cases heq
      rfl
    · exact h.balance other kind
  disabled := h.disabled
  accounts := h.accounts

theorem move (h : funds.Shifted added opened funds') (sender receiver : Address) (coin : Coin) :
    { funds with bank := funds.bank.move sender receiver coin }.Shifted added opened
      { funds' with bank := funds'.bank.move sender receiver coin } := by
  have hdebit : { funds with bank := funds.bank.debit sender coin }.Shifted added opened
      { funds' with bank := funds'.bank.debit sender coin } := by
    have hset := h.setBalance sender coin.denom (funds.bank.balance sender coin.denom - coin.amount)
    rw [sub_add_eq_add_sub, ← h.balance] at hset
    exact hset
  have hset := hdebit.setBalance receiver coin.denom
    ((funds.bank.debit sender coin).balance receiver coin.denom + coin.amount)
  rw [add_right_comm, ← hdebit.balance] at hset
  exact hset

end Funds.Shifted

namespace FeeAccounts

variable {f : FeeAccounts} {added : Address → String → Amount} {opened : Address → Prop}
  {funds funds' : Funds}

theorem shifted_payOut (h : funds.Shifted added opened funds') {coin : Coin}
    (hcover : coin.worth coin.denom ≤ funds.bank.holding f.collector coin.denom)
    (hcover' : coin.worth coin.denom ≤ funds'.bank.holding f.collector coin.denom)
    (receiver : Address) :
    (f.payOut receiver coin funds').result = (f.payOut receiver coin funds).result ∧
      (f.payOut receiver coin funds).state.Shifted added opened
        (f.payOut receiver coin funds').state := by
  rw [Coin.worth, if_pos rfl] at hcover hcover'
  have hsend := Bank.send_of_covered hcover receiver
  have hsend' := Bank.send_of_covered hcover' receiver
  have henabled : funds'.bank.sendEnabled [coin] = funds.bank.sendEnabled [coin] := by
    rw [Bank.sendEnabled, Bank.sendEnabled, h.disabled]
  rw [henabled] at hsend'
  rw [payOut, payOut]
  split
  · exact ⟨rfl, h⟩
  · simp only [pay, hsend, hsend']
    cases funds.bank.sendEnabled [coin] with
    | error fault => exact ⟨rfl, h.create receiver⟩
    | ok u => exact ⟨rfl, (h.create receiver).move f.collector receiver coin⟩

theorem shifted_refund (h : funds.Shifted added opened funds') {charge : Charge}
    (hcover : ∀ denom, charge.worth denom ≤ funds.bank.holding f.collector denom)
    (hcover' : ∀ denom, charge.worth denom ≤ funds'.bank.holding f.collector denom) (used : Coin)
    (success distribute : Bool) :
    (f.refund charge used success distribute funds').result =
        (f.refund charge used success distribute funds).result ∧
      (f.refund charge used success distribute funds).state.Shifted added opened
        (f.refund charge used success distribute funds').state := by
  rw [refund, refund]
  split
  · exact ⟨rfl, h⟩
  · cases hdiv : charge.division used success distribute with
    | error e => exact ⟨rfl, h⟩
    | ok parts =>
      obtain ⟨back, distributed⟩ := parts
      have hparts (denom : String) :
          back.worth denom + distributed.worth denom ≤ charge.worth denom :=
        Charge.worth_parts_le hdiv denom
      have hfirst {funds : Funds}
          (hcover : ∀ denom, charge.worth denom ≤ funds.bank.holding f.collector denom) :
          distributed.worth distributed.denom ≤ funds.bank.holding f.collector distributed.denom :=
        calc distributed.worth distributed.denom
            ≤ charge.worth distributed.denom := Nat.le_trans (Nat.le_add_left _ _) (hparts _)
          _ ≤ funds.bank.holding f.collector distributed.denom := hcover _
      have hsecond {funds : Funds}
          (hcover : ∀ denom, charge.worth denom ≤ funds.bank.holding f.collector denom) :
          back.worth back.denom ≤ (f.payOut f.distribution distributed funds).state.bank.holding
            f.collector back.denom := by
        have hleft := f.holding_le_payOut f.distribution distributed funds back.denom
        have hall := hcover back.denom
        have hparts := hparts back.denom
        omega
      obtain ⟨hresult, hpaid⟩ := shifted_payOut h (hfirst hcover) (hfirst hcover') f.distribution
      obtain ⟨hresult', hpaid'⟩ :=
        shifted_payOut hpaid (hsecond hcover) (hsecond hcover') charge.payer
      simp only [Outcome.andThen, hresult]
      cases (f.payOut f.distribution distributed funds).result with
      | error e => exact ⟨rfl, hpaid⟩
      | ok u =>
        simp only [hresult']
        cases (f.payOut charge.payer back
            (f.payOut f.distribution distributed funds).state).result with
        | error e => exact ⟨rfl, hpaid'⟩
        | ok u => exact ⟨rfl, hpaid'⟩

theorem exists_refund {address : Address} (h : funds.accounts.Exists address) {charge : Charge}
    (hcover : ∀ denom, charge.worth denom ≤ funds.bank.holding f.collector denom) (used : Coin)
    (success distribute : Bool) :
    (f.refund charge used success distribute funds).state.accounts.Exists address := by
  -- funds are what they are with an account opened once more that is open already
  have hself : funds.Shifted (fun _ _ => 0) (· = address) funds :=
    ⟨fun _ _ => (BitVec.add_zero _).symm, rfl, fun _ => ⟨.inl, Or.rec id (· ▸ h)⟩⟩
  obtain ⟨-, hafter⟩ := shifted_refund hself hcover hcover used success distribute
  exact (hafter.accounts address).2 (.inr rfl)

end FeeAccounts

end GasMarket
