import GasMarket.Proofs.Ledger.Settleable
import GasMarket.Proofs.Ledger.Shift
import GasMarket.Proofs.Steering
import GasMarket.Proofs.Storage.Mirror
import Mathlib.Algebra.BigOperators.Group.List.Basic

/-! Settlements in any order.  Each comes to what it would come to alone, and together they come to
the sum of what each does, which does not depend on their order. -/

namespace GasMarket

structure Settlement where
  tx : Tx
  charge : Charge
  gasUsed : UInt64
  success : Bool

def Settlement.step (s : Settlement) : Step :=
  .operation (.refund s.tx s.charge s.gasUsed s.success)

namespace Market

def settle (m : Market) (s : Settlement) : Outcome Market Refund :=
  m.refund s.tx s.charge s.gasUsed s.success

def settleAll (m : Market) (ss : List Settlement) : Market := m.after (ss.map Settlement.step)

def results (m : Market) : List Settlement → List (Except Error Refund)
  | [] => []
  | s :: rest => (m.settle s).result :: (m.settle s).state.results rest

def HasRoom (m : Market) (gas : Nat) : Prop :=
  m.params.enabled → m.state.currentGas.toNat + gas ≤ m.state.maxGas.toNat

def Covers (m : Market) (charge : Charge) : Prop :=
  ∀ denom, charge.worth denom ≤ m.funds.bank.holding m.feeAccounts.collector denom

def gasOf (m : Market) (s : Settlement) : Nat :=
  if m.Accepts s.tx s.charge s.gasUsed then s.gasUsed.toNat else 0

def addedBy (m : Market) (address : Address) (denom : String) (s : Settlement) : Amount :=
  (m.settle s).state.funds.bank.balance address denom - m.funds.bank.balance address denom

/-- A market in which some settlements were asked for since it was `start`, each with the effect
that it would have had alone. -/
structure Superposed (start : Market) (done : List Settlement) (m : Market) : Prop where
  params : m.params = start.params
  rates : m.rates = start.rates
  feeAccounts : m.feeAccounts = start.feeAccounts
  state : m.state = start.withGas (.ofNat (done.map start.gasOf).sum)
  funds : start.funds.Shifted (fun address denom => (done.map (start.addedBy address denom)).sum)
    (fun address => ∃ s ∈ done, (start.settle s).state.funds.accounts.Exists address) m.funds

variable {m start : Market} {done rest : List Settlement} {s : Settlement}

section Gas

variable {gas : UInt64}

theorem HasRoom.mono {gas less : Nat} (h : m.HasRoom gas) (hle : less ≤ gas) : m.HasRoom less :=
  fun henabled => Nat.le_trans (Nat.add_le_add_left hle _) (h henabled)

theorem recorded_eq_withGas (hm : m.Sound) (hroom : m.HasRoom gas.toNat) :
    m.recorded gas = .ok (m.withGas gas) := by
  obtain ⟨s, hs⟩ := hm.recorded_of_fits hroom
  rw [hs, (recorded_eq_ok hs).1]

theorem withGas_of_enabled (henabled : m.params.enabled) (gas : UInt64) :
    m.withGas gas = m.state.filled (m.state.currentGas + gas) := if_pos henabled

theorem withGas_of_disabled (hdisabled : ¬ m.params.enabled) (gas : UInt64) :
    m.withGas gas = m.state :=
  if_neg hdisabled

theorem withGas_zero (hm : m.Sound) : m.withGas 0 = m.state := by
  by_cases henabled : m.params.enabled
  · rw [withGas_of_enabled henabled, UInt64.add_zero,
      Controller.filled_currentGas hm.state.index_lt]
  · exact withGas_of_disabled henabled 0

theorem withGas_of_withGas (hstart : start.Sound) (hparams : m.params = start.params)
    (hstate : m.state = start.withGas gas) (more : UInt64) :
    m.withGas more = start.withGas (gas + more) := by
  by_cases henabled : start.params.enabled
  · rw [withGas_of_enabled (hparams ▸ henabled), hstate, withGas_of_enabled henabled,
      withGas_of_enabled henabled, Controller.currentGas_filled hstart.state.index_lt,
      Controller.filled_filled, UInt64.add_assoc]
  · rw [withGas_of_disabled (hparams ▸ henabled), hstate, withGas_of_disabled henabled,
      withGas_of_disabled henabled]

theorem requiredFee_withGas (m : Market) (recorded : UInt64) (p : Params) (rates : Rates)
    (gas : UInt64) (denom : String) :
    (m.withGas recorded).requiredFee p rates gas denom = m.state.requiredFee p rates gas denom := by
  rw [withGas]
  split
  · rfl
  · rfl

theorem gasOf_le (m : Market) (s : Settlement) : m.gasOf s ≤ s.gasUsed.toNat := by
  rw [gasOf]
  split
  · exact Nat.le_refl _
  · exact Nat.zero_le _

end Gas

section Single

theorem settle_of_unpriced {e : Error} (hlimit : s.gasUsed ≤ s.tx.gasLimit) {recorded : Controller}
    (hrecorded : m.recorded s.gasUsed = .ok recorded)
    (hprice : m.state.requiredFee m.params m.rates s.gasUsed s.charge.required.denom = .error e) :
    m.settle s = .failed m e ∧ m.gasOf s = 0 := by
  have hrefused : m.Refused s.tx s.charge s.gasUsed e := .price hprice
  refine ⟨?_, if_neg (not_accepts_of_refused hrefused)⟩
  rw [settle, refund, if_neg (UInt64.not_lt.2 hlimit), hrecorded]
  simp only [hprice]

theorem settle_of_priced {used : Coin} (hlimit : s.gasUsed ≤ s.tx.gasLimit) {recorded : Controller}
    (hrecorded : m.recorded s.gasUsed = .ok recorded)
    (hprice : m.state.requiredFee m.params m.rates s.gasUsed s.charge.required.denom = .ok used) :
    ∃ moved events,
      m.feeAccounts.refund s.charge used s.success m.params.distributeFees m.funds = moved ∧
      (m.settle s).result = moved.result ∧
      (m.settle s).state = (m.committed recorded).told moved.state events ∧
      m.gasOf s = s.gasUsed.toNat := by
  have haccepts : m.Accepts s.tx s.charge s.gasUsed := accepts_of_recorded hlimit hrecorded hprice
  obtain ⟨e, hrefused, -⟩ | ⟨recorded', used', moved, -, hrecorded', hprice', hmoved, hresult,
    hstate⟩ :=
    refund_cases m s.tx s.charge s.gasUsed s.success
  · exact absurd haccepts (not_accepts_of_refused hrefused)
  · cases hrecorded.symm.trans hrecorded'
    cases hprice.symm.trans hprice'
    exact ⟨moved, _, hmoved, hresult, hstate, if_pos haccepts⟩

end Single

theorem holding_le_settle (m : Market) (s : Settlement) (denom : String) :
    m.funds.bank.holding m.feeAccounts.collector denom ≤
      (m.settle s).state.funds.bank.holding m.feeAccounts.collector denom +
        s.charge.worth denom := by
  obtain ⟨e, -, he⟩ | ⟨_, used, moved, -, -, -, hmoved, -, he⟩ :=
    refund_cases m s.tx s.charge s.gasUsed s.success
  · rw [settle, he]
    exact Nat.le_add_right _ _
  · rw [settle, he, funds_told, ← hmoved]
    exact m.feeAccounts.holding_le_refund s.charge used s.success m.params.distributeFees m.funds
      denom

namespace Superposed

theorem nil (hstart : start.Sound) : start.Superposed [] start where
  params := rfl
  rates := rfl
  feeAccounts := rfl
  state := (withGas_zero hstart).symm
  funds := ⟨fun _ _ => (BitVec.add_zero _).symm, rfl, fun _ => by simp⟩

theorem hasRoom (h : start.Superposed done m) (hstart : start.Sound) {gas : Nat}
    (hroom : start.HasRoom ((done.map start.gasOf).sum + gas)) : m.HasRoom gas := by
  intro henabled
  rw [h.params] at henabled
  have hroom := hroom henabled
  have hlt := start.state.maxGas.toNat_lt
  rw [h.state, withGas_of_enabled henabled, Controller.currentGas_filled hstart.state.index_lt,
    UInt64.toNat_add, UInt64.toNat_ofNat']
  change _ ≤ start.state.maxGas.toNat
  omega

theorem append {later : Market} (h : start.Superposed done m) (hstart : start.Sound)
    (hparams : later.params = m.params) (hrates : later.rates = m.rates)
    (hfeeAccounts : later.feeAccounts = m.feeAccounts)
    (hstate : later.state = m.withGas (.ofNat (start.gasOf s)))
    (hfunds : (start.settle s).state.funds.Shifted
      (fun address denom => (done.map (start.addedBy address denom)).sum)
      (fun address => ∃ t ∈ done, (start.settle t).state.funds.accounts.Exists address) later.funds)
    (hopen : ∀ address, start.funds.accounts.Exists address →
      (start.settle s).state.funds.accounts.Exists address) :
    start.Superposed (done ++ [s]) later where
  params := hparams.trans h.params
  rates := hrates.trans h.rates
  feeAccounts := hfeeAccounts.trans h.feeAccounts
  state := by
    rw [hstate, withGas_of_withGas hstart h.params h.state, ← UInt64.ofNat_add]
    simp
  funds := by
    have hdisabled : (start.settle s).state.funds.bank.disabled = start.funds.bank.disabled :=
      disabled_step start (s := s.step) trivial
    refine ⟨?_, hfunds.disabled.trans hdisabled, ?_⟩
    · intro address denom
      have hsingle : (start.settle s).state.funds.bank.balance address denom =
          start.funds.bank.balance address denom + start.addedBy address denom s :=
        (add_sub_cancel _ _).symm
      rw [hfunds.balance, hsingle, List.map_append, List.sum_append, List.map_singleton,
        List.sum_singleton, add_assoc, add_comm (start.addedBy address denom s)]
    · intro address
      rw [hfunds.accounts]
      constructor
      · rintro (hs | ⟨t, ht, hopened⟩)
        · exact .inr ⟨s, by simp, hs⟩
        · exact .inr ⟨t, List.mem_append_left _ ht, hopened⟩
      · rintro (hold | ⟨t, ht, hopened⟩)
        · exact .inl (hopen address hold)
        · obtain ht | ht := List.mem_append.1 ht
          · exact .inr ⟨t, ht, hopened⟩
          · exact .inl (List.mem_singleton.1 ht ▸ hopened)

theorem settle (h : start.Superposed done m) (hstart : start.Sound) (hm : m.Sound)
    (hlimit : s.gasUsed ≤ s.tx.gasLimit)
    (hroom : start.HasRoom ((done.map start.gasOf).sum + s.gasUsed.toNat))
    (hcover : start.Covers s.charge) (hcover' : m.Covers s.charge) :
    (m.settle s).result = (start.settle s).result ∧
      start.Superposed (done ++ [s]) (m.settle s).state := by
  have hrecorded : start.recorded s.gasUsed = .ok (start.withGas s.gasUsed) :=
    recorded_eq_withGas hstart (hroom.mono (Nat.le_add_left _ _))
  have hrecorded' : m.recorded s.gasUsed = .ok (m.withGas s.gasUsed) :=
    recorded_eq_withGas hm (h.hasRoom hstart hroom)
  have hprice (denom : String) : m.state.requiredFee m.params m.rates s.gasUsed denom =
      start.state.requiredFee start.params start.rates s.gasUsed denom := by
    rw [h.params, h.rates, h.state, requiredFee_withGas]
  cases hused :
      start.state.requiredFee start.params start.rates s.gasUsed s.charge.required.denom with
  | error e =>
    obtain ⟨hsettle, hgas⟩ := settle_of_unpriced hlimit hrecorded hused
    obtain ⟨hsettle', -⟩ := settle_of_unpriced hlimit hrecorded' ((hprice _).trans hused)
    rw [hsettle, hsettle']
    refine ⟨rfl, h.append hstart rfl rfl rfl ?_ ?_ ?_⟩
    · rw [hgas]
      exact (withGas_zero hm).symm
    · rw [hsettle]
      exact h.funds
    · rw [hsettle]
      exact fun _ => id
  | ok used =>
    obtain ⟨moved, events, hmoved, hresult, hstate, hgas⟩ := settle_of_priced hlimit hrecorded hused
    obtain ⟨moved', events', hmoved', hresult', hstate', -⟩ :=
      settle_of_priced hlimit hrecorded' ((hprice _).trans hused)
    rw [Covers, h.feeAccounts] at hcover'
    rw [h.feeAccounts, h.params] at hmoved'
    obtain ⟨hsame, hshifted⟩ := FeeAccounts.shifted_refund h.funds hcover hcover' used s.success
      start.params.distributeFees
    rw [hmoved, hmoved'] at hsame hshifted
    refine ⟨(hresult'.trans hsame).trans hresult.symm, h.append hstart ?_ ?_ ?_ ?_ ?_ ?_⟩
    · rw [hstate', params_told, params_committed]
    · exact congrArg (·.2.1) (settings_perform m (.refund s.tx s.charge s.gasUsed s.success))
    · rw [hstate', feeAccounts_told, feeAccounts_committed]
    · rw [hstate', state_told, state_committed, hgas, UInt64.ofNat_toNat]
    · rw [hstate, hstate', funds_told, funds_told]
      exact hshifted
    · intro address hopen
      rw [hstate, funds_told, ← hmoved]
      exact FeeAccounts.exists_refund hopen hcover used s.success start.params.distributeFees

theorem settleAll (h : start.Superposed done m) (hstart : start.Sound) (hm : m.Sound)
    (hlimit : ∀ s ∈ rest, s.gasUsed ≤ s.tx.gasLimit)
    (hroom : start.HasRoom ((done.map start.gasOf).sum + (rest.map (·.gasUsed.toNat)).sum))
    (hcover : ∀ s ∈ rest, start.Covers s.charge)
    (hcovered : ∀ denom,
      owed (rest.map (·.charge)) denom ≤ m.funds.bank.holding m.feeAccounts.collector denom) :
    m.results rest = rest.map (fun s => (start.settle s).result) ∧
      start.Superposed (done ++ rest) (m.settleAll rest) := by
  induction rest generalizing done m with
  | nil =>
    rw [List.append_nil]
    exact ⟨rfl, h⟩
  | cons s rest ih =>
    obtain ⟨hlimit, hlimits⟩ := List.forall_mem_cons.1 hlimit
    obtain ⟨hcover, hcovers⟩ := List.forall_mem_cons.1 hcover
    rw [List.map_cons, List.sum_cons, ← Nat.add_assoc] at hroom
    have hnow : start.HasRoom ((done.map start.gasOf).sum + s.gasUsed.toNat) :=
      hroom.mono (Nat.le_add_right _ _)
    have hthen : start.HasRoom
        (((done ++ [s]).map start.gasOf).sum + (rest.map (·.gasUsed.toNat)).sum) := by
      refine hroom.mono (Nat.add_le_add_right ?_ _)
      rw [List.map_append, List.sum_append, List.map_singleton, List.sum_singleton]
      exact Nat.add_le_add_left (start.gasOf_le s) _
    have howed (denom : String) : owed ((s :: rest).map (·.charge)) denom =
        s.charge.worth denom + owed (rest.map (·.charge)) denom := rfl
    have hcover' : m.Covers s.charge := by
      intro denom
      have hall := hcovered denom
      rw [howed] at hall
      exact Nat.le_trans (Nat.le_add_right _ _) hall
    -- no settlement takes more than its charge, so what is still to be settled stays covered
    have hleft (denom : String) : owed (rest.map (·.charge)) denom ≤
        (m.settle s).state.funds.bank.holding (m.settle s).state.feeAccounts.collector denom := by
      have hall := hcovered denom
      have htaken := holding_le_settle m s denom
      rw [howed] at hall
      rw [show (m.settle s).state.feeAccounts = m.feeAccounts from feeAccounts_step m s.step]
      omega
    obtain ⟨hresult, hnext⟩ := h.settle hstart hm hlimit hnow hcover hcover'
    obtain ⟨hresults, hafter⟩ := ih hnext (hm.step s.step) hlimits hthen hcovers hleft
    rw [List.append_assoc] at hafter
    refine ⟨?_, hafter⟩
    rw [results, hresults, hresult]
    rfl

theorem perm {done' : List Settlement} (h : start.Superposed done m) (hperm : done.Perm done') :
    start.Superposed done' m where
  params := h.params
  rates := h.rates
  feeAccounts := h.feeAccounts
  state := by
    rw [h.state, (hperm.map start.gasOf).sum_nat]
  funds := by
    refine ⟨?_, h.funds.disabled, ?_⟩
    · intro address denom
      rw [h.funds.balance, (hperm.map (start.addedBy address denom)).sum_eq]
    · intro address
      rw [h.funds.accounts]
      simp only [hperm.mem_iff]

end Superposed

theorem events_settleAll (m : Market) (ss : List Settlement) :
    (m.settleAll ss).events =
      m.events ++ (m.results ss).flatMap fun result =>
        (result.toOption.bind Refund.event?).toList := by
  induction ss generalizing m with
  | nil => exact (List.append_nil _).symm
  | cons s rest ih =>
    have hfirst := events_refund m s.tx s.charge s.gasUsed s.success
    rw [results, List.flatMap_cons, ← List.append_assoc]
    calc (m.settleAll (s :: rest)).events
        = ((m.settle s).state.settleAll rest).events := rfl
      _ = (m.settle s).state.events ++ _ := ih (m.settle s).state
      _ = _ := congrArg (· ++ _) hfirst

structure SameBooks (m m' : Market) : Prop where
  balance : ∀ address denom,
    m.funds.bank.balance address denom = m'.funds.bank.balance address denom
  accounts : ∀ address, m.funds.accounts.Exists address ↔ m'.funds.accounts.Exists address
  events : m.events.Perm m'.events

/-- While the collector holds what all unsettled charges were taken for, any of them are settled in
any order with the same results, each as if it were the first; and whatever the order, the market
ends up the same, and with it the block. -/
theorem settleAll_perm {c : Config} (hnew : new c = .ok start) {steps : List Step} {h : History}
    (hh : h = (History.start start).after steps)
    (hcovered : ∀ denom, owed h.outstanding denom ≤
      h.market.funds.bank.holding h.market.feeAccounts.collector denom)
    {ss order : List Settlement} (hout : (ss.map (·.charge)).Subperm h.outstanding)
    (hlimit : ∀ s ∈ ss, s.gasUsed ≤ s.tx.gasLimit)
    (hfits : h.market.params.enabled → h.market.state.currentGas.toNat +
      (ss.map (·.gasUsed.toNat)).sum ≤ h.market.state.maxGas.toNat)
    (horder : order.Perm ss) :
    h.market.results order = order.map (fun s => (h.market.settle s).result) ∧
      (h.market.settleAll ss).SameController (h.market.settleAll order) ∧
      (h.market.settleAll ss).SameBooks (h.market.settleAll order) := by
  have hmarket : h.market = start.after steps := by
    rw [hh, History.market_after]
    rfl
  have hreachable : h.market.Reachable := ⟨c, start, steps, hnew, hmarket⟩
  have hsound := hreachable.sound
  have hrun {order : List Settlement} (horder : order.Perm ss) :
      h.market.results order = order.map (fun s => (h.market.settle s).result) ∧
        h.market.Superposed ss (h.market.settleAll order) := by
    have howed (denom : String) : owed (order.map (·.charge)) denom ≤
        h.market.funds.bank.holding h.market.feeAccounts.collector denom :=
      Nat.le_trans (owed_le_of_subperm (((horder.map _).subperm_right).2 hout) denom)
        (hcovered denom)
    have hroom : h.market.HasRoom (0 + (order.map (·.gasUsed.toNat)).sum) := by
      rw [Nat.zero_add, (horder.map _).sum_nat]
      exact hfits
    have hcover : ∀ s ∈ order, h.market.Covers s.charge := fun s hs denom =>
      Nat.le_trans (worth_le_owed (List.mem_map_of_mem hs) denom) (howed denom)
    obtain ⟨hresults, hsuperposed⟩ := (Superposed.nil hsound).settleAll hsound hsound
      (fun s hs => hlimit s (horder.subset hs)) hroom hcover howed
    exact ⟨hresults, hsuperposed.perm horder⟩
  obtain ⟨hresults, hfirst⟩ := hrun (List.Perm.refl ss)
  obtain ⟨hresults', hsecond⟩ := hrun horder
  have hparams := hfirst.params.trans hsecond.params.symm
  have hstate := hfirst.state.trans hsecond.state.symm
  refine ⟨hresults', ⟨hparams, hstate, ?_, result_endBlock_of_eq hparams hstate⟩, ?_, ?_, ?_⟩
  · have hpublished (order : List Settlement) :=
      (hreachable.stored.after (order.map Settlement.step)).published
    exact (hpublished ss).trans (hparams ▸ hstate ▸ (hpublished order).symm)
  · intro address denom
    rw [hfirst.funds.balance, hsecond.funds.balance]
  · intro address
    rw [hfirst.funds.accounts, hsecond.funds.accounts]
  · rw [events_settleAll, events_settleAll, hresults, hresults']
    exact ((horder.symm.map _).flatMap_right _).append_left _

def chargedTwice : List Step :=
  let tx := Tx.new ⟨0xaa⟩ ⟨"stake", 20000000000000000⟩ 20000000
  let fees : FeeAccounts := ⟨"fee_collector", collectorAddress, distributionAddress⟩
  [.host (.accounts ⟨.empty, [⟨0xaa⟩]⟩),
    .host (.bank (fees.funded ⟨0xaa⟩ ⟨"stake", 20000000000000000⟩)),
    .operation (.deduct tx ⟨"stake", 20000000000000000⟩ (.zero "stake")),
    .operation (.deduct tx (.zero "atom") (.zero "atom"))]

theorem settleAll_perm_chargedTwice : ∃ start, new .default = .ok start ∧
    let h := (History.start start).after chargedTwice
    let tx := Tx.new ⟨0xaa⟩ ⟨"stake", 20000000000000000⟩ 20000000
    let stake : Settlement :=
      ⟨tx, ⟨⟨0xaa⟩, ⟨"stake", 20000000000000000⟩, .zero "stake"⟩, 15000000, false⟩
    let atom : Settlement := ⟨tx, ⟨⟨0xaa⟩, .zero "atom", .zero "atom"⟩, 15000000, true⟩
    h.market.results [atom, stake] = [.error (.unknownDenom "atom"),
        .ok ⟨⟨0xaa⟩, ⟨"stake", 5000000000000000⟩, .zero "stake"⟩] ∧
      (h.market.settleAll [stake, atom]).SameController (h.market.settleAll [atom, stake]) ∧
      (h.market.settleAll [stake, atom]).SameBooks (h.market.settleAll [atom, stake]) := by
  refine ⟨_, rfl, ?_⟩
  intro h tx stake atom
  have hstake : (h.market.settle stake).result =
      .ok ⟨⟨0xaa⟩, ⟨"stake", 5000000000000000⟩, .zero "stake"⟩ :=
    toOption_eq_some_iff.1 (by decide +kernel)
  have hatom : (h.market.settle atom).result = .error (.unknownDenom "atom") := rfl
  have hout : h.outstanding = [atom.charge, stake.charge] := by decide +kernel
  have hheld :
      20000000000000000 ≤ h.market.funds.bank.holding h.market.feeAccounts.collector "stake" := by
    decide +kernel
  have hfits : h.market.state.currentGas.toNat + 30000000 ≤ h.market.state.maxGas.toNat := by
    decide +kernel
  have hh : h = (History.start _).after chargedTwice := rfl
  clear_value h
  have hcovered (denom : String) : owed h.outstanding denom ≤
      h.market.funds.bank.holding h.market.feeAccounts.collector denom := by
    rw [hout]
    by_cases hdenom : "stake" = denom
    · subst hdenom
      exact hheld
    · have howed : owed [atom.charge, stake.charge] denom = 0 := by
        simp [owed, Charge.worth, Coin.worth, Coin.zero, atom, stake, hdenom]
      rw [howed]
      exact Nat.zero_le _
  have hsubset : ([stake, atom].map (·.charge)).Subperm h.outstanding := by
    rw [hout]
    exact (List.Perm.swap _ _ _).subperm
  have hlimit : ∀ s ∈ [stake, atom], s.gasUsed ≤ s.tx.gasLimit := by decide
  obtain ⟨hresults, hsame⟩ :=
    settleAll_perm (c := .default) rfl hh hcovered hsubset hlimit (fun _ => hfits)
    (List.Perm.swap stake atom [])
  refine ⟨?_, hsame⟩
  rw [hresults, List.map_cons, List.map_singleton, hatom, hstake]

end Market

end GasMarket
