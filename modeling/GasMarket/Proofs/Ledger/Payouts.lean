import GasMarket.Proofs.Failure
import GasMarket.Proofs.Ledger.Transfers

namespace GasMarket

theorem Charge.parts_of_division {c : Charge} {used back distributed : Coin}
    {success distribute : Bool} (h : c.division used success distribute = .ok (back, distributed)) :
    success ∧ distribute ∧ back = c.unused used ∧ distributed = c.tip ∨
      ¬ (success ∧ distribute) ∧ distributed.IsZero := by
  obtain ⟨rfl, -, rfl⟩ | ⟨rfl, rfl, -, rfl⟩ | ⟨rfl, rfl, rfl, rfl⟩ := division_cases h
  · exact .inr ⟨nofun, Coin.isZero_zero _⟩
  · exact .inr ⟨nofun, Coin.isZero_zero _⟩
  · exact .inl ⟨rfl, rfl, rfl, rfl⟩

namespace FeeAccounts

variable {f : FeeAccounts} {charge : Charge} {used coin : Coin} {success distribute : Bool}
    {b : Bank}

/-- In the arithmetic of words the collector, which had the coins, paid what a refund reports,
and nothing else moved. -/
structure Pays (f : FeeAccounts) (r : Refund) (b b' : Bank) : Prop where
  covered : f.distribution ≠ f.collector →
    ∀ denom, r.refund.worth denom + r.distributed.worth denom ≤ b.holding f.collector denom
  balance : ∀ address denom, b'.balance address denom = b.balance address denom -
    Bank.share f.collector address (r.refund.worth denom + r.distributed.worth denom) +
    Bank.share r.payee address (r.refund.worth denom) +
    Bank.share f.distribution address (r.distributed.worth denom)

/-- In plain numbers the collector paid what a refund reports, and nothing else moved. -/
def PaysExactly (f : FeeAccounts) (r : Refund) (b b' : Bank) : Prop :=
  ∀ address denom, b'.holding address denom +
      (if f.collector = address then r.refund.worth denom + r.distributed.worth denom else 0) =
    b.holding address denom + (if r.payee = address then r.refund.worth denom else 0) +
      if f.distribution = address then r.distributed.worth denom else 0

/-- The collector can distribute the tip, but then cannot give back what is unused. -/
structure StrandsTip (f : FeeAccounts) (charge : Charge) (used : Coin) (success distribute : Bool)
    (b : Bank) : Prop where
  denom : used.denom = charge.required.denom
  success : success
  distribute : distribute
  tip : ¬ charge.tip.IsZero
  payable : f.CanPay b charge.tip
  stuck : ¬ f.CanPay (b.move f.collector f.distribution charge.tip) (charge.unused used)

theorem CanPay.worth_le (h : f.CanPay b coin) (denom : String) :
    coin.worth denom ≤ b.holding f.collector denom := by
  by_cases hdenom : coin.denom = denom
  · subst hdenom
    exact h.covers
  · rw [Coin.worth, if_neg hdenom]
    exact Nat.zero_le _

theorem moved_paid (f : FeeAccounts) (receiver : Address) (coin : Coin) (b : Bank) :
    b.Moved (f.paid receiver coin b) f.collector receiver coin.worth := by
  unfold paid
  split
  case isTrue hzero =>
    intro address denom
    rw [Coin.worth_of_isZero hzero]
    exact Bank.Moved.refl b f.collector receiver address denom
  case isFalse => exact Bank.moved_move b f.collector receiver coin

section Both

variable {back distributed : Coin} {payer : Address} (hfirst : f.CanPay b distributed)
  (hsecond : f.CanPay (f.paid f.distribution distributed b) back)

include hfirst hsecond in
theorem pays_of_canPay : f.Pays ⟨payer, back, distributed⟩ b
    (f.paid payer back (f.paid f.distribution distributed b)) where
  covered hother denom := by
    have hleft := hfirst.holding_paid hother denom
    have hback := hsecond.worth_le denom
    change back.worth denom + distributed.worth denom ≤ _
    omega
  balance address denom := by
    rw [moved_paid f payer back _ address denom,
      moved_paid f f.distribution distributed b address denom, Bank.share_add]
    abel

include hfirst hsecond in
theorem paysExactly_of_canPay (hb : b.Bounded) : f.PaysExactly ⟨payer, back, distributed⟩ b
    (f.paid payer back (f.paid f.distribution distributed b)) := by
  have hout := transfer_paid hb hfirst f.distribution
  have hback := transfer_paid (hout.toKept.bounded hb) hsecond payer
  intro address denom
  have hout := hout.holding address denom
  have hback := hback.holding address denom
  grind

end Both

theorem not_strandsTip_of_failed (h : used.denom = charge.required.denom →
    ∀ parts, charge.division used success distribute ≠ .ok parts) :
    ¬ f.StrandsTip charge used success distribute b := by
  intro hstrands
  obtain rfl := hstrands.success
  obtain rfl := hstrands.distribute
  exact h hstrands.denom _ rfl

theorem Payouts.pays {back distributed : Coin} {payer : Address} {b' : Bank} {r : Refund}
    (h : f.Payouts payer back distributed b (.ok r) b') :
    r.payee = payer ∧ f.Pays r b b' ∧ (b.Bounded → f.PaysExactly r b b') := by
  cases h with
  | both hfirst hsecond =>
    exact ⟨rfl, pays_of_canPay hfirst hsecond, paysExactly_of_canPay hfirst hsecond⟩

theorem Payouts.balances_of_error {back distributed : Coin} {b' : Bank} {e : Error}
    (h : f.Payouts charge.payer back distributed b (.error e) b')
    (hdenom : used.denom = charge.required.denom)
    (hdivision : charge.division used success distribute = .ok (back, distributed)) :
    (¬ f.StrandsTip charge used success distribute b → ∀ address denom,
      b'.balance address denom = b.balance address denom) ∧
    (f.StrandsTip charge used success distribute b →
      b.Moved b' f.collector f.distribution charge.tip.worth) := by
  have hparts := Charge.parts_of_division hdivision
  cases h with
  | neither hno =>
    refine ⟨fun _ _ _ => rfl, fun hstrands => ?_⟩
    obtain ⟨-, -, -, rfl⟩ | ⟨hkept, -⟩ := hparts
    · exact absurd hstrands.payable hno
    · exact absurd ⟨hstrands.success, hstrands.distribute⟩ hkept
  | first hcan hno =>
    constructor
    · intro hwhole address denom
      by_cases hzero : distributed.IsZero
      · rw [paid_of_isZero hzero]
      · obtain ⟨hsuccess, hdistribute, rfl, rfl⟩ | ⟨-, hzero'⟩ := hparts
        · rw [paid, if_neg hzero] at hno
          exact absurd ⟨hdenom, hsuccess, hdistribute, hzero, hcan, hno⟩ hwhole
        · exact absurd hzero' hzero
    · intro hstrands
      obtain ⟨-, -, -, rfl⟩ | ⟨hkept, -⟩ := hparts
      · exact moved_paid f f.distribution _ b
      · exact absurd ⟨hstrands.success, hstrands.distribute⟩ hkept

/-- A settlement pays all that it reports, or nothing if it fails; but where the tip can be
distributed and the unused part cannot be given back any more, it fails with the tip distributed. -/
theorem balances_of_refund (f : FeeAccounts) (charge : Charge) (used : Coin)
    (success distribute : Bool) (funds : Funds) :
    let outcome := f.refund charge used success distribute funds
    (∀ r, outcome.result = .ok r → r.payee = charge.payer ∧ f.Pays r funds.bank outcome.state.bank ∧
      (funds.bank.Bounded → f.PaysExactly r funds.bank outcome.state.bank)) ∧
    ∀ e, outcome.result = .error e → e.isFatal ∧
      (¬ f.StrandsTip charge used success distribute funds.bank → ∀ address denom,
        outcome.state.bank.balance address denom = funds.bank.balance address denom) ∧
      (f.StrandsTip charge used success distribute funds.bank →
        funds.bank.Moved outcome.state.bank f.collector f.distribution charge.tip.worth) := by
  intro outcome
  obtain ⟨e, hfailed, hnone⟩ | ⟨back, distributed, hdenom, hdivision, hpayouts⟩ :=
    f.payouts_refund charge used success distribute funds
  · have hwhole := not_strandsTip_of_failed (f := f) (b := funds.bank) hnone
    have hfatal : ∀ e, outcome.result = .error e → e.isFatal := fun e => isFatal_of_refund
    change outcome = _ at hfailed
    rw [hfailed] at hfatal ⊢
    exact ⟨nofun, fun e he => ⟨hfatal e he, fun _ _ _ => rfl, fun h => absurd h hwhole⟩⟩
  · change f.Payouts _ _ _ _ outcome.result outcome.state.bank at hpayouts
    constructor
    · intro r hr
      rw [hr] at hpayouts
      exact hpayouts.pays
    · intro e he
      rw [he] at hpayouts
      exact ⟨isFatal_of_refund he, hpayouts.balances_of_error hdenom hdivision⟩

/-- A charge of more than the collector holds: its tip is covered, but not what would go back. -/
theorem tip_distributed_of_failed_refund :
    let accounts := (Accounts.empty.addModule "fee_collector" ⟨1⟩).addModule "distribution" ⟨2⟩
    let f : FeeAccounts := ⟨"fee_collector", ⟨1⟩, ⟨2⟩⟩
    let charge : Charge := ⟨⟨3⟩, ⟨"stake", 200⟩, ⟨"stake", 50⟩⟩
    let funds : Funds := ⟨accounts, f.funded f.collector ⟨"stake", 100⟩, .empty⟩
    let outcome := f.refund charge (.zero "stake") true true funds
    resolve accounts "fee_collector" "distribution" = .ok f ∧ f.Backed funds.bank ∧
      (∃ e, outcome.result = .error e) ∧ funds.bank.balance f.distribution "stake" = 0 ∧
      outcome.state.bank.balance f.distribution "stake" = 50 :=
  ⟨rfl, backed_funded _ _ _, ⟨_, rfl⟩, by decide, by decide⟩

end FeeAccounts

end GasMarket
