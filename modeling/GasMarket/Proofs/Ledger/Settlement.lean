import GasMarket.Proofs.Ledger.Steps
import GasMarket.Proofs.Pricing.Cost
import GasMarket.Proofs.Validity.Run

namespace GasMarket

theorem Controller.requiredFee_of_checkFee {p : Params} {s : Controller} {rates : Rates} {tx : Tx}
    {context : Context} {required tip : Coin}
    (h : s.checkFee p rates tx context = .ok ⟨required, tip⟩) :
    s.requiredFee p rates tx.gasLimit required.denom = .ok required := by
  unfold checkFee at h
  split at h
  · cases h
  · simp only [bind_eq_ok_iff] at h
    obtain ⟨offered, -, fee, hfee, h⟩ := h
    split at h
    · cases h
      rw [denom_requiredFee hfee]
      exact hfee
    · cases h

structure Settled (f : FeeAccounts) (payer : Address) (used tip : Coin) (success distribute : Bool)
    (b b' : Bank) : Prop where
  paid : ∀ denom, b'.holding payer denom + used.worth denom +
    (if success then tip.worth denom else 0) = b.holding payer denom
  collected : ∀ denom, b'.holding f.collector denom = b.holding f.collector denom +
    used.worth denom + if success ∧ ¬ distribute then tip.worth denom else 0
  distributed : ∀ denom, b'.holding f.distribution denom = b.holding f.distribution denom +
    if success ∧ distribute then tip.worth denom else 0
  untouched : ∀ address denom, address ≠ payer → address ≠ f.collector →
    address ≠ f.distribution → b'.holding address denom = b.holding address denom

theorem settled_of_transfers {f : FeeAccounts} {b charged mid b' : Bank} {charge : Charge}
    {fee used back distributed : Coin} {success distribute : Bool}
    (hpc : charge.payer ≠ f.collector) (hpd : charge.payer ≠ f.distribution)
    (hcd : f.collector ≠ f.distribution) (hadd : charge.required.add charge.tip = .ok fee)
    (hused : used.denom = charge.required.denom)
    (hle : used.amount.toNat ≤ charge.required.amount.toNat)
    (hdiv : charge.division used success distribute = .ok (back, distributed))
    (hin : b.Transfer charged charge.payer f.collector fee)
    (hout : charged.Transfer mid f.collector f.distribution distributed)
    (hback : mid.Transfer b' f.collector charge.payer back) :
    Settled f charge.payer used charge.tip success distribute b b' := by
  have hfee (denom) := Coin.worth_add hadd denom
  have hunused (denom) := Charge.worth_unused hused hle denom
  have hparts (denom) := Charge.worth_division hdiv denom
  refine ⟨?_, ?_, ?_, ?_⟩
  · intro denom
    have hcharged := hin.holding_sender denom hpc
    have hkept := hout.holding_of_ne denom hpc.symm hpd.symm
    have hgiven := hback.holding_receiver denom hpc.symm
    rw [hfee] at hcharged
    rw [(hparts denom).1] at hgiven
    have hused := hunused denom
    cases success with
    | false =>
      rw [if_neg Bool.false_ne_true] at hgiven ⊢
      omega
    | true =>
      rw [if_pos rfl] at hgiven ⊢
      omega
  · intro denom
    have hcharged := hin.holding_receiver denom hpc
    have hpaid := hout.holding_sender denom hcd
    have hgiven := hback.holding_sender denom hpc.symm
    rw [hfee] at hcharged
    rw [(hparts denom).2] at hpaid
    rw [(hparts denom).1] at hgiven
    have hused := hunused denom
    cases success with
    | false =>
      simp only [Bool.false_eq_true, false_and, if_false] at hpaid hgiven ⊢
      omega
    | true =>
      cases distribute with
      | false =>
        simp only [Bool.false_eq_true, and_false, not_false_eq_true, and_true, if_true,
          if_false] at hpaid hgiven ⊢
        omega
      | true =>
        simp only [and_true, not_true_eq_false, and_false, if_true, if_false] at hpaid hgiven ⊢
        omega
  · intro denom
    have hcharged := hin.holding_of_ne denom hpd hcd
    have hpaid := hout.holding_receiver denom hcd
    have hgiven := hback.holding_of_ne denom hcd hpd
    rw [(hparts denom).2] at hpaid
    rw [hgiven, hpaid, hcharged]
  · intro address denom hap hac had
    have hcharged := hin.holding_of_ne denom hap.symm hac.symm
    have hpaid := hout.holding_of_ne denom hac.symm had.symm
    have hgiven := hback.holding_of_ne denom hac.symm hap.symm
    exact hgiven.trans (hpaid.trans hcharged)

namespace Market

theorem Sound.recorded_of_fits {m : Market} (h : m.Sound) {gasUsed : UInt64}
    (hfits : m.params.enabled → m.state.currentGas.toNat + gasUsed.toNat ≤ m.state.maxGas.toNat) :
    ∃ s, m.recorded gasUsed = .ok s := by
  unfold Market.recorded
  by_cases he : m.params.enabled
  · rw [if_pos he]
    exact ⟨_, Controller.recordGas_eq_ok_iff.2 ⟨h.state.index_lt, hfits he, rfl⟩⟩
  · rw [if_neg he]
    exact ⟨m.state, rfl⟩

/-- A fee that was admitted and charged is settled for any gas up to the limit, if the block has
room for it, and at no more than was required. -/
theorem refund_of_admitted {m : Market} (hm : m.Reachable)
    (hb : m.feeAccounts.Backed m.funds.bank) {tx : Tx} {context : Context} {required tip : Coin}
    (hadmitted : m.checkFee tx context = .ok ⟨required, tip⟩) {charge : Charge}
    (hcharged : (m.deduct tx required tip).result = .ok charge) {gasUsed : UInt64}
    (hlimit : gasUsed ≤ tx.gasLimit)
    (hfits : m.params.enabled → m.state.currentGas.toNat + gasUsed.toNat ≤ m.state.maxGas.toNat)
    (hpc : tx.feePayer ≠ m.feeAccounts.collector) (hpd : tx.feePayer ≠ m.feeAccounts.distribution)
    (hcd : m.feeAccounts.collector ≠ m.feeAccounts.distribution) (success : Bool) :
    ∃ used refund, m.state.requiredFee m.params m.rates gasUsed required.denom = .ok used ∧
      used.amount.toNat ≤ required.amount.toNat ∧
      ((m.deduct tx required tip).state.refund tx charge gasUsed success).result = .ok refund ∧
      Settled m.feeAccounts tx.feePayer used tip success m.params.distributeFees m.funds.bank
        ((m.deduct tx required tip).state.refund tx charge gasUsed success).state.funds.bank := by
  obtain ⟨used, hused, hle⟩ :=
    Controller.requiredFee_mono (Controller.requiredFee_of_checkFee hadmitted) hlimit
  obtain ⟨s, hs⟩ := hm.sound.recorded_of_fits hfits
  rw [result_deduct] at hcharged
  obtain ⟨e, he, -⟩ | ⟨fee, hadd, hcharge, hin, hcan⟩ :=
    FeeAccounts.deduct_cases hb tx required tip
  · rw [he] at hcharged
    cases hcharged
  · rw [hcharge] at hcharged
    cases hcharged
    have hbacked := hb.kept hin.toKept
    rw [state_deduct]
    generalize (m.feeAccounts.deduct tx required tip m.funds).state = funds at hin hcan hbacked ⊢
    generalize (Option.map Charge.event _).toList = events
    obtain ⟨e, hrefused, -⟩ | ⟨s', used', moved, -, -, hused', hmoved, hresult, hstate⟩ :=
      refund_cases (m.told funds events) tx ⟨tx.feePayer, required, tip⟩ gasUsed success
    · cases hrefused with
      | limit h => exact absurd hlimit (UInt64.not_le.2 h)
      | block h => exact absurd (hs.symm.trans h) nofun
      | price h => exact absurd (hused.symm.trans h) nofun
    · cases hused.symm.trans hused'
      obtain ⟨back, distributed, mid, hdiv, hout, hok, hback⟩ :=
        FeeAccounts.refund_of_canPay hbacked ⟨tx.feePayer, required, tip⟩ hadd hcan
          (Controller.denom_requiredFee hused) success m.params.distributeFees
      change m.feeAccounts.refund _ used success m.params.distributeFees funds = moved at hmoved
      rw [hmoved] at hok hback
      refine ⟨used, _, hused, hle, hresult.trans hok, ?_⟩
      rw [hstate, funds_told]
      exact settled_of_transfers hpc hpd hcd hadd (Controller.denom_requiredFee hused) hle hdiv hin
        hout hback

theorem refund_of_admitted_half_used : ∃ start, new .default = .ok start ∧
    let tx := Tx.new ⟨0xaa⟩ ⟨"stake", 2000000007⟩ 2
    let charge : Charge := ⟨⟨0xaa⟩, ⟨"stake", 2000000000⟩, ⟨"stake", 7⟩⟩
    let m := start.after [.host (.accounts ⟨.empty, [⟨0xaa⟩]⟩),
      .host (.bank (start.feeAccounts.funded ⟨0xaa⟩ ⟨"stake", 3000000000⟩))]
    let charged := (m.deduct tx charge.required charge.tip).state
    ∃ used refund, m.state.requiredFee m.params m.rates 1 charge.required.denom = .ok used ∧
      used.amount.toNat ≤ charge.required.amount.toNat ∧
      (charged.refund tx charge 1 true).result = .ok refund ∧
      Settled m.feeAccounts tx.feePayer used charge.tip true m.params.distributeFees m.funds.bank
        (charged.refund tx charge 1 true).state.funds.bank := by
  refine ⟨_, rfl, ?_⟩
  intro tx charge m charged
  have hm : m.Reachable := ⟨.default, _, _, rfl, rfl⟩
  have hadmitted : m.checkFee tx ⟨1, false⟩ = .ok ⟨charge.required, charge.tip⟩ :=
    toOption_eq_some_iff.1 (by decide +kernel)
  have hcharged : (m.deduct tx charge.required charge.tip).result = .ok charge :=
    toOption_eq_some_iff.1 (by decide +kernel)
  have hfits : m.params.enabled →
      m.state.currentGas.toNat + UInt64.toNat 1 ≤ m.state.maxGas.toNat := by
    decide +kernel
  have hb : m.feeAccounts.Backed m.funds.bank := FeeAccounts.backed_funded _ _ _
  have hpc : tx.feePayer ≠ m.feeAccounts.collector := by decide +kernel
  have hpd : tx.feePayer ≠ m.feeAccounts.distribution := by decide +kernel
  have hcd : m.feeAccounts.collector ≠ m.feeAccounts.distribution := by decide +kernel
  have hlimit : 1 ≤ tx.gasLimit := by decide
  clear_value m
  exact refund_of_admitted hm hb hadmitted hcharged hlimit hfits hpc hpd hcd true

end Market

end GasMarket
