import GasMarket.Proofs.History
import GasMarket.Proofs.Ledger.Fees

namespace GasMarket

def Step.MovesFunds : Step → Prop
  | .operation (.deduct ..) | .operation (.refund ..) => True
  | _ => False

namespace Market

structure Quiet (m m' : Market) : Prop where
  bank : m'.funds.bank = m.funds.bank
  feeAccounts : m'.feeAccounts = m.feeAccounts
  events : m'.events = m.events

theorem quiet_initGenesis (m : Market) (g : Genesis) : m.Quiet (m.initGenesis g).state := by
  obtain ⟨e, he⟩ | ⟨-, -, he⟩ := initGenesis_cases m g
  · rw [he]; exact ⟨rfl, rfl, rfl⟩
  · rw [he]; exact ⟨rfl, rfl, rfl⟩

theorem quiet_load (m : Market) : m.Quiet m.load.state := by
  obtain ⟨e, he⟩ | ⟨g, he⟩ := load_cases m
  · rw [he]; exact ⟨rfl, rfl, rfl⟩
  · rw [he]; exact quiet_initGenesis m g

theorem quiet_updateParams (m : Market) (authority : Address) (p : Params) :
    m.Quiet (m.updateParams authority p).state := by
  obtain ⟨e, he⟩ | ⟨-, -, he⟩ := updateParams_cases m authority p
  · rw [he]; exact ⟨rfl, rfl, rfl⟩
  · rw [he]; exact ⟨rfl, rfl, rfl⟩

theorem endBlock_quiet (m : Market) (height : UInt64) :
    m.Quiet (m.endBlock height).state ∨ ∃ mid fee rate, m.Quiet mid ∧
      (m.endBlock height).state = mid.emit (.feeMarketUpdate fee rate height) := by
  obtain ⟨e, he⟩ | ⟨-, he⟩ | ⟨s, update, -, he⟩ := endBlock_cases m height
  · rw [he]; exact .inl ⟨rfl, rfl, rfl⟩
  · rw [he]; exact .inl ⟨rfl, rfl, rfl⟩
  · rw [he]; exact .inr ⟨{ m with height }.adoptState s, _, _, ⟨rfl, rfl, rfl⟩, rfl⟩

theorem quiet_perform (m : Market) {op : Operation} (hs : ¬ (Step.operation op).MovesFunds)
    (hdrain : op ≠ .drainEvents) : m.Quiet (m.perform op) ∨ ∃ mid fee rate height, m.Quiet mid ∧
      m.perform op = mid.emit (.feeMarketUpdate fee rate height) := by
  cases op with
  | initGenesis g => exact .inl (quiet_initGenesis m g)
  | load => exact .inl (quiet_load m)
  | beginBlock height => exact .inl ⟨rfl, rfl, rfl⟩
  | endBlock height =>
    obtain hq | ⟨mid, fee, rate, hq, he⟩ := endBlock_quiet m height
    · exact .inl hq
    · exact .inr ⟨mid, fee, rate, height, hq, he⟩
  | updateParams authority p => exact .inl (quiet_updateParams m authority p)
  | checkFee tx context =>
    rw [perform, Outcome.state_ofExcept]
    exact .inl ⟨rfl, rfl, rfl⟩
  | deduct | refund => exact absurd trivial hs
  | drainEvents => exact absurd rfl hdrain

theorem feeAccounts_deduct (m : Market) (tx : Tx) (required tip : Coin) :
    (m.deduct tx required tip).state.feeAccounts = m.feeAccounts := by
  rw [state_deduct]
  rfl

theorem feeAccounts_refund (m : Market) (tx : Tx) (charge : Charge) (gasUsed : UInt64)
    (success : Bool) : (m.refund tx charge gasUsed success).state.feeAccounts = m.feeAccounts := by
  obtain ⟨e, -, he⟩ | ⟨s, used, moved, -, -, -, -, -, he⟩ :=
    refund_cases m tx charge gasUsed success
  · rw [he]; rfl
  · rw [he, feeAccounts_told, feeAccounts_committed]

theorem events_deduct (m : Market) (tx : Tx) (required tip : Coin) :
    (m.deduct tx required tip).state.events = m.events ++
      ((m.deduct tx required tip).result.toOption.map Charge.event).toList := by
  rw [state_deduct, events_told]

theorem events_refund (m : Market) (tx : Tx) (charge : Charge) (gasUsed : UInt64)
    (success : Bool) : (m.refund tx charge gasUsed success).state.events = m.events ++
      ((m.refund tx charge gasUsed success).result.toOption.bind Refund.event?).toList := by
  obtain ⟨e, -, he⟩ | ⟨s, used, moved, -, -, -, -, hresult, he⟩ :=
    refund_cases m tx charge gasUsed success
  · rw [he]
    exact (List.append_nil _).symm
  · rw [he, hresult, events_told, events_committed]

theorem transfer_deduct {m : Market} (hb : m.feeAccounts.Backed m.funds.bank) (tx : Tx)
    (required tip : Coin) :
    (∃ e, (m.deduct tx required tip).result = .error e ∧
      m.funds.bank.Same (m.deduct tx required tip).state.funds.bank) ∨
    ∃ fee, required.add tip = .ok fee ∧
      (m.deduct tx required tip).result = .ok ⟨tx.feePayer, required, tip⟩ ∧
      m.funds.bank.Transfer (m.deduct tx required tip).state.funds.bank tx.feePayer
        m.feeAccounts.collector fee ∧
      m.feeAccounts.CanPay (m.deduct tx required tip).state.funds.bank fee := by
  rw [result_deduct, state_deduct, funds_told]
  exact FeeAccounts.deduct_cases hb tx required tip

theorem payments_refund {m : Market} (hb : m.feeAccounts.Backed m.funds.bank) (tx : Tx)
    (charge : Charge) (gasUsed : UInt64) (success : Bool) :
    (∃ e, (m.refund tx charge gasUsed success).result = .error e ∧
      (m.refund tx charge gasUsed success).state.funds.bank = m.funds.bank) ∨
    ∃ back distributed, m.feeAccounts.Payments charge.payer back distributed m.funds.bank
      (m.refund tx charge gasUsed success).result
      (m.refund tx charge gasUsed success).state.funds.bank := by
  obtain ⟨e, -, he⟩ | ⟨s, used, moved, -, -, -, hmoved, hresult, he⟩ :=
    refund_cases m tx charge gasUsed success
  · rw [he]
    exact .inl ⟨e, rfl, rfl⟩
  · rw [hresult, he, funds_told]
    obtain ⟨e, hfailed, -⟩ | ⟨back, distributed, -, hpaid⟩ :=
      FeeAccounts.refund_cases hb charge used success m.params.distributeFees
    · rw [hmoved] at hfailed
      rw [hfailed]
      exact .inl ⟨e, rfl, rfl⟩
    · rw [hmoved] at hpaid
      exact .inr ⟨back, distributed, hpaid⟩

theorem coins_perform_of_not_movesFunds (m : Market) {op : Operation}
    (hs : ¬ (Step.operation op).MovesFunds) :
    (m.perform op).funds.bank = m.funds.bank ∧ (m.perform op).feeAccounts = m.feeAccounts := by
  by_cases hdrain : op = .drainEvents
  · rw [hdrain]
    exact ⟨rfl, rfl⟩
  · obtain hq | ⟨mid, fee, rate, height, hq, he⟩ := quiet_perform m hs hdrain
    · exact ⟨hq.bank, hq.feeAccounts⟩
    · rw [he]
      exact ⟨hq.bank, hq.feeAccounts⟩

theorem feeAccounts_step (m : Market) (s : Step) : (m.step s).feeAccounts = m.feeAccounts := by
  by_cases hs : s.MovesFunds
  · cases s with
    | host part => exact hs.elim
    | operation op =>
      cases op with
      | deduct tx required tip => exact feeAccounts_deduct m tx required tip
      | refund tx charge gasUsed success => exact feeAccounts_refund m tx charge gasUsed success
      | initGenesis | load | beginBlock | endBlock | updateParams | checkFee | drainEvents =>
        exact hs.elim
  · cases s with
    | host part => cases part <;> rfl
    | operation op => exact (coins_perform_of_not_movesFunds m hs).2

theorem bank_step_of_not_movesFunds (m : Market) {s : Step} (hk : s.KeepsBank)
    (hs : ¬ s.MovesFunds) : (m.step s).funds.bank = m.funds.bank := by
  cases s with
  | host part =>
    cases part with
    | bank | disabled => exact hk.elim
    | accounts | allowances | rates | gasCap => rfl
  | operation op => exact (coins_perform_of_not_movesFunds m hs).1

theorem coins_step_of_not_movesFunds (m : Market) {s : Step} (hk : s.KeepsCoins)
    (hs : ¬ s.MovesFunds) :
    ∃ disabled, (m.step s).funds.bank = { m.funds.bank with disabled } := by
  cases s with
  | host part =>
    cases part with
    | bank b => exact hk.elim
    | disabled denoms => exact ⟨denoms, rfl⟩
    | accounts | allowances | rates | gasCap => exact ⟨m.funds.bank.disabled, rfl⟩
  | operation op =>
    have hk' : (Step.operation op).KeepsBank := trivial
    exact ⟨m.funds.bank.disabled, bank_step_of_not_movesFunds m hk' hs⟩

theorem coins_step_cases {m : Market} (hb : m.feeAccounts.Backed m.funds.bank) {s : Step}
    (hk : s.KeepsCoins) :
    (m.funds.bank.Kept (m.step s).funds.bank ∧ ∀ address denom,
      (m.step s).funds.bank.holding address denom = m.funds.bank.holding address denom) ∨
    (∃ tx required tip charge fee, s = .operation (.deduct tx required tip) ∧
      (m.deduct tx required tip).result = .ok charge ∧
      m.funds.bank.Transfer (m.step s).funds.bank tx.feePayer m.feeAccounts.collector fee) ∨
    ∃ tx charge gasUsed success back distributed,
      s = .operation (.refund tx charge gasUsed success) ∧
      m.feeAccounts.Payments charge.payer back distributed m.funds.bank
        (m.refund tx charge gasUsed success).result (m.step s).funds.bank := by
  by_cases hs : s.MovesFunds
  · cases s with
    | host part => exact hs.elim
    | operation op =>
      cases op with
      | deduct tx required tip =>
        obtain ⟨e, -, hsame⟩ | ⟨fee, -, hok, ht, -⟩ := transfer_deduct hb tx required tip
        · exact .inl ⟨hsame.toKept, hsame.holding⟩
        · exact .inr (.inl ⟨tx, required, tip, _, fee, rfl, hok, ht⟩)
      | refund tx charge gasUsed success =>
        obtain ⟨e, -, hbank⟩ | ⟨back, distributed, hpaid⟩ :=
          payments_refund hb tx charge gasUsed success
        · refine .inl ?_
          rw [step, perform, hbank]
          exact ⟨.refl _, fun _ _ => rfl⟩
        · exact .inr (.inr ⟨tx, charge, gasUsed, success, back, distributed, rfl, hpaid⟩)
      | initGenesis | load | beginBlock | endBlock | updateParams | checkFee | drainEvents =>
        exact hs.elim
  · obtain ⟨disabled, hbank⟩ := coins_step_of_not_movesFunds m hk hs
    refine .inl ?_
    rw [hbank]
    exact ⟨⟨rfl, fun _ => rfl⟩, fun _ _ => rfl⟩

end Market

namespace History

theorem log_step_of_events (h : History) (s : Step) {told : List Event}
    (hdrains : h.market.drains s = [])
    (hevents : (h.market.step s).events = h.market.events ++ told) :
    (h.step s).log = h.log ++ told := by
  change h.drained ++ h.market.drains s ++ (h.market.step s).events = _
  rw [hdrains, hevents, List.append_nil, log, List.append_assoc]

theorem log_step_of_not_movesFunds (h : History) {s : Step} (hs : ¬ s.MovesFunds) :
    (h.step s).log = h.log ∨
      ∃ fee rate height, (h.step s).log = h.log ++ [.feeMarketUpdate fee rate height] := by
  have hsame (hdrains : h.market.drains s = [])
      (hevents : (h.market.step s).events = h.market.events) : (h.step s).log = h.log := by
    rw [h.log_step_of_events s hdrains (hevents.trans (List.append_nil _).symm), List.append_nil]
  cases s with
  | host part => exact .inl (hsame rfl (by cases part <;> rfl))
  | operation op =>
    by_cases hdrain : op = .drainEvents
    · subst hdrain
      refine .inl ?_
      change h.drained ++ h.market.events ++ [] = _
      rw [List.append_nil]
      rfl
    · have hdrains : h.market.drains (.operation op) = [] := by
        cases op with
        | drainEvents => exact absurd rfl hdrain
        | _ => rfl
      obtain hq | ⟨mid, fee, rate, height, hq, he⟩ := Market.quiet_perform h.market hs hdrain
      · exact .inl (hsame hdrains hq.events)
      · refine .inr ⟨fee, rate, height, h.log_step_of_events _ hdrains ?_⟩
        calc (h.market.perform op).events
            = mid.events ++ [.feeMarketUpdate fee rate height] := congrArg Market.events he
          _ = h.market.events ++ [.feeMarketUpdate fee rate height] := by rw [hq.events]

end History

end GasMarket
