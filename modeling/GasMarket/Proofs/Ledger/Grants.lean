import GasMarket.Proofs.Ledger.Books

namespace GasMarket

theorem Allowances.spend_eq_ok_iff {a a' : Allowances} {granter grantee : Address} {fee : Coin} :
    a.spend granter grantee [fee] = .ok a' ↔ ∃ allowance rest,
      a.get? (granter, grantee) = some allowance ∧ allowance.sub fee = .ok rest ∧
        a' = a.insert (granter, grantee) rest := by
  unfold spend
  cases a.get? (granter, grantee) with
  | none => simp
  | some allowance =>
    simp only [List.foldlM_cons, List.foldlM_nil]
    cases hrest : allowance.sub fee with
    | error e => simp [bind, Except.bind, hrest]
    | ok rest => simp [bind, Except.bind, pure, Except.pure, hrest, eq_comm]

structure GrantUse where
  granter : Address
  grantee : Address
  required : Coin
  tip : Coin
  deriving DecidableEq

namespace GrantUse

def amount (use : GrantUse) : Nat := use.required.amount.toNat + use.tip.amount.toNat

def pair (use : GrantUse) : Address × Address := (use.granter, use.grantee)

end GrantUse

/-- What uses of a grant make of its allowance.  Without one there are none. -/
inductive Draws : Option Coin → List GrantUse → Option Coin → Prop
  | without : Draws none [] none
  | within {denom : String} {granted left : Amount} {uses : List GrantUse}
      (denoms : ∀ use ∈ uses, use.required.denom = denom ∧ use.tip.denom = denom)
      (drawn : left.toNat + (uses.map GrantUse.amount).sum = granted.toNat) :
      Draws (some ⟨denom, granted⟩) uses (some ⟨denom, left⟩)

namespace Draws

theorem unused (allowance : Option Coin) : Draws allowance [] allowance := by
  cases allowance with
  | none => exact without
  | some coin => exact within (List.forall_mem_nil _) rfl

theorem trans {before mid after : Option Coin} {uses later : List GrantUse}
    (h : Draws before uses mid) (h' : Draws mid later after) :
    Draws before (uses ++ later) after := by
  cases h with
  | without => exact h'
  | within denoms drawn =>
    cases h' with
    | within denoms' drawn' =>
      refine within (List.forall_mem_append.2 ⟨denoms, denoms'⟩) ?_
      rw [List.map_append, List.sum_append]
      omega

theorem use {required tip fee allowance rest : Coin} (hadd : required.add tip = .ok fee)
    (hsub : allowance.sub fee = .ok rest) (granter grantee : Address) :
    Draws (some allowance) [⟨granter, grantee, required, tip⟩] (some rest) := by
  obtain ⟨hdenoms, hfee, hamount⟩ := Coin.add_eq_ok_iff.1 hadd
  obtain ⟨hallowed, hrest, hleft⟩ := Coin.sub_eq_ok_iff.1 hsub
  obtain ⟨denom, granted⟩ := allowance
  obtain ⟨kind, left⟩ := rest
  change kind = denom at hrest
  change denom = fee.denom at hallowed
  subst hrest
  have hrequired : required.denom = kind := hfee.symm.trans hallowed.symm
  refine within ?_ ?_
  · intro use huse
    rw [List.mem_singleton.1 huse]
    exact ⟨hrequired, hdenoms.symm.trans hrequired⟩
  · rw [List.map_singleton, List.sum_singleton, GrantUse.amount, ← hamount]
    exact hleft

end Draws

namespace FeeAccounts

variable (f : FeeAccounts)

theorem allowances_payOut (receiver : Address) (coin : Coin) (funds : Funds) :
    (f.payOut receiver coin funds).state.allowances = funds.allowances := by
  unfold payOut
  split
  · rfl
  · cases hpay : f.pay receiver coin funds.bank with
    | ok bank => simp only [hpay]; rfl
    | error e => simp only [hpay]; rfl

theorem allowances_refund (charge : Charge) (used : Coin) (success distribute : Bool)
    (funds : Funds) :
    (f.refund charge used success distribute funds).state.allowances = funds.allowances := by
  unfold refund
  split
  · rfl
  · cases charge.division used success distribute with
    | error e => rfl
    | ok parts =>
      obtain ⟨back, distributed⟩ := parts
      have hfirst := f.allowances_payOut f.distribution distributed funds
      simp only
      rw [Outcome.andThen]
      split
      · rw [Outcome.state_andThen_done]
        exact (f.allowances_payOut _ _ _).trans hfirst
      · exact hfirst

theorem deduct_allowances (tx : Tx) (required tip : Coin) (funds : Funds) :
    (∃ e, (f.deduct tx required tip funds).result = .error e ∧
      (f.deduct tx required tip funds).state.allowances = funds.allowances) ∨
    ∃ charge fee, (f.deduct tx required tip funds).result = .ok charge ∧
      required.add tip = .ok fee ∧
      ((tx.feeGranter = none ∧
        (f.deduct tx required tip funds).state.allowances = funds.allowances) ∨
        ∃ granter, tx.feeGranter = some granter ∧ funds.allowances.spend granter tx.payer [fee] =
          .ok (f.deduct tx required tip funds).state.allowances) := by
  unfold deduct
  by_cases hx : funds.accounts.Exists tx.feePayer
  · rw [if_neg (not_not_intro hx)]
    cases hadd : required.add tip with
    | error e => exact .inl ⟨e, rfl, rfl⟩
    | ok fee =>
      cases hcollect : f.collect tx.feePayer fee funds.bank with
      | error fault =>
        exact .inl ⟨fault.error, by simp only [hcollect]; rfl, by simp only [hcollect]; rfl⟩
      | ok bank =>
        simp only [hcollect, settleGrant]
        cases hgranter : tx.feeGranter with
        | none => exact .inr ⟨_, fee, rfl, rfl, .inl ⟨rfl, rfl⟩⟩
        | some granter =>
          cases hspend : funds.allowances.spend granter tx.payer [fee] with
          | ok allowances =>
            simp only [hspend]
            exact .inr ⟨_, fee, rfl, rfl, .inr ⟨granter, rfl, hspend⟩⟩
          | error refusal =>
            simp only [hspend]
            cases f.giveBack tx.feePayer fee bank with
            | ok bank => exact .inl ⟨_, rfl, rfl⟩
            | error e => exact .inl ⟨e, rfl, rfl⟩
  · rw [if_pos hx]
    exact .inl ⟨_, rfl, rfl⟩

end FeeAccounts

def Step.KeepsAllowances : Step → Prop
  | .host (.allowances _) => False
  | _ => True

namespace Market

def grantUse? (m : Market) : Step → Option GrantUse
  | .operation (.deduct tx required tip) =>
    tx.feeGranter.bind fun granter =>
      (m.deduct tx required tip).result.toOption.map fun _ => ⟨granter, tx.payer, required, tip⟩
  | _ => none

def grantUses (m : Market) : List Step → List GrantUse
  | [] => []
  | s :: rest => (m.grantUse? s).toList ++ (m.step s).grantUses rest

def usesOf (m : Market) (pair : Address × Address) (steps : List Step) : List GrantUse :=
  (m.grantUses steps).filter (·.pair = pair)

theorem usesOf_cons (m : Market) (pair : Address × Address) (s : Step) (rest : List Step) :
    m.usesOf pair (s :: rest) =
      (m.grantUse? s).toList.filter (·.pair = pair) ++ (m.step s).usesOf pair rest := by
  rw [usesOf, grantUses, List.filter_append, usesOf]

variable {m : Market}

theorem allowances_deduct (m : Market) (tx : Tx) (required tip : Coin) :
    (m.deduct tx required tip).state.funds.allowances =
      (m.feeAccounts.deduct tx required tip m.funds).state.allowances := by
  rw [state_deduct, funds_told]

theorem draws_deduct (m : Market) (tx : Tx) (required tip : Coin) (pair : Address × Address) :
    Draws (m.funds.allowances.get? pair)
      ((m.grantUse? (.operation (.deduct tx required tip))).toList.filter (·.pair = pair))
      ((m.deduct tx required tip).state.funds.allowances.get? pair) := by
  rw [grantUse?, result_deduct, allowances_deduct]
  obtain ⟨e, he, hsame⟩ | ⟨charge, fee, hok, hadd, ⟨hnone, hsame⟩ | ⟨granter, hgranter, hspend⟩⟩ :=
    m.feeAccounts.deduct_allowances tx required tip m.funds
  · rw [he, hsame]
    cases tx.feeGranter with
    | none => exact .unused _
    | some granter => exact .unused _
  · rw [hnone, hsame]
    exact .unused _
  · rw [hok, hgranter]
    obtain ⟨allowance, rest, hget, hsub, hspent⟩ := Allowances.spend_eq_ok_iff.1 hspend
    rw [hspent, Table.get?_insert]
    simp only [Option.bind_some, Except.toOption, Option.map_some, Option.toList_some,
      List.filter_cons, List.filter_nil, decide_eq_true_eq]
    change Draws _ (if (granter, tx.payer) = pair then [_] else []) _
    by_cases hpair : (granter, tx.payer) = pair
    · rw [if_pos hpair, if_pos hpair, ← hpair, hget]
      exact .use hadd hsub granter tx.payer
    · rw [if_neg hpair, if_neg hpair]
      exact .unused _

theorem allowances_initGenesis (m : Market) (g : Genesis) :
    (m.initGenesis g).state.funds.allowances = m.funds.allowances := by
  obtain ⟨e, he⟩ | ⟨-, -, he⟩ := initGenesis_cases m g
  · rw [he]; rfl
  · rw [he]; rfl

theorem draws_step {s : Step} (hs : s.KeepsAllowances) (pair : Address × Address) :
    Draws (m.funds.allowances.get? pair) ((m.grantUse? s).toList.filter (·.pair = pair))
      ((m.step s).funds.allowances.get? pair) := by
  have hsame (hnone : m.grantUse? s = none)
      (hallowances : (m.step s).funds.allowances = m.funds.allowances) :
      Draws (m.funds.allowances.get? pair) ((m.grantUse? s).toList.filter (·.pair = pair))
        ((m.step s).funds.allowances.get? pair) := by
    rw [hnone, hallowances]
    exact .unused _
  cases s with
  | host part =>
    cases part with
    | allowances a => exact hs.elim
    | bank | disabled | accounts | rates | gasCap => exact hsame rfl rfl
  | operation op =>
    cases op with
    | deduct tx required tip => exact draws_deduct m tx required tip pair
    | initGenesis g => exact hsame rfl (allowances_initGenesis m g)
    | load =>
      obtain ⟨e, he⟩ | ⟨g, hg⟩ := load_cases m
      · exact hsame rfl (by rw [step, perform, he]; rfl)
      · exact hsame rfl (by rw [step, perform, hg, allowances_initGenesis])
    | beginBlock height => exact hsame rfl rfl
    | endBlock height =>
      obtain ⟨e, he⟩ | ⟨-, he⟩ | ⟨next, update, -, he⟩ := endBlock_cases m height
      · exact hsame rfl (by rw [step, perform, he]; rfl)
      · exact hsame rfl (by rw [step, perform, he]; rfl)
      · exact hsame rfl (by rw [step, perform, he]; rfl)
    | updateParams authority p =>
      obtain ⟨e, he⟩ | ⟨-, -, he⟩ := updateParams_cases m authority p
      · exact hsame rfl (by rw [step, perform, he]; rfl)
      · exact hsame rfl (by rw [step, perform, he]; rfl)
    | checkFee tx context => exact hsame rfl (by rw [step, perform, Outcome.state_ofExcept])
    | refund tx charge gasUsed success =>
      obtain ⟨e, -, he⟩ | ⟨next, used, moved, -, -, -, hmoved, -, he⟩ :=
        refund_cases m tx charge gasUsed success
      · exact hsame rfl (by rw [step, perform, he]; rfl)
      · refine hsame rfl ?_
        rw [step, perform, he, funds_told, ← hmoved]
        exact m.feeAccounts.allowances_refund _ _ _ _ _
    | drainEvents => exact hsame rfl rfl

theorem draws_after {steps : List Step} (hsteps : ∀ s ∈ steps, s.KeepsAllowances)
    (pair : Address × Address) :
    Draws (m.funds.allowances.get? pair) (m.usesOf pair steps)
      ((m.after steps).funds.allowances.get? pair) := by
  induction steps generalizing m with
  | nil => exact .unused _
  | cons s rest ih =>
    obtain ⟨hs, hrest⟩ := List.forall_mem_cons.1 hsteps
    rw [usesOf_cons, after_cons]
    exact (draws_step hs pair).trans (ih hrest)

theorem kept_step (hb : m.feeAccounts.Backed m.funds.bank) {s : Step} (hk : s.KeepsCoins) :
    m.funds.bank.Kept (m.step s).funds.bank := by
  obtain ⟨hkept, -⟩ | ⟨tx, required, tip, charge, fee, -, -, ht⟩ |
    ⟨tx, charge, gasUsed, success, back, distributed, -, hpaid⟩ := coins_step_cases hb hk
  · exact hkept
  · exact ht.toKept
  · exact hpaid.kept

theorem backed_after (hb : m.feeAccounts.Backed m.funds.bank) {steps : List Step}
    (hsteps : ∀ s ∈ steps, s.KeepsCoins) :
    (m.after steps).feeAccounts.Backed (m.after steps).funds.bank := by
  refine after_induction_on (P := fun m => m.feeAccounts.Backed m.funds.bank) hsteps hb ?_
  intro m s hk hb
  rw [feeAccounts_step]
  exact hb.kept (kept_step hb hk)

theorem exists_deduct_of_holding_lt (hb : m.feeAccounts.Backed m.funds.bank) {s : Step}
    (hk : s.KeepsCoins) {address : Address} (hc : address ≠ m.feeAccounts.collector)
    (hd : address ≠ m.feeAccounts.distribution) {denom : String}
    (hlt : (m.step s).funds.bank.holding address denom < m.funds.bank.holding address denom) :
    ∃ tx required tip charge, s = .operation (.deduct tx required tip) ∧
      (m.deduct tx required tip).result = .ok charge ∧ tx.feePayer = address := by
  obtain ⟨-, hsame⟩ | ⟨tx, required, tip, charge, fee, rfl, hok, ht⟩ |
    ⟨tx, charge, gasUsed, success, back, distributed, rfl, hpaid⟩ := coins_step_cases hb hk
  · rw [hsame] at hlt
    exact absurd hlt (Nat.lt_irrefl _)
  · by_cases hpayer : tx.feePayer = address
    · exact ⟨tx, required, tip, charge, rfl, hok, hpayer⟩
    · rw [ht.holding_of_ne denom hpayer hc.symm] at hlt
      exact absurd hlt (Nat.lt_irrefl _)
  · rw [History.holding_payments hpaid denom hc hd] at hlt
    omega

/-- Whatever is done while the host gives and takes neither coins nor allowances, what is left of an
allowance and what was charged under it make up what it was, all in its denomination; without an
allowance nothing is charged; and an account other than the module accounts comes to hold less only
where it is charged. -/
theorem exposure_of_grants (hb : m.feeAccounts.Backed m.funds.bank) {steps : List Step}
    (hcoins : ∀ s ∈ steps, s.KeepsCoins) (hgrants : ∀ s ∈ steps, s.KeepsAllowances) :
    (∀ granter grantee allowance, m.funds.allowances.get? (granter, grantee) = some allowance →
      ∃ left, (m.after steps).funds.allowances.get? (granter, grantee) =
          some ⟨allowance.denom, left⟩ ∧
        left.toNat + ((m.usesOf (granter, grantee) steps).map GrantUse.amount).sum =
          allowance.amount.toNat ∧
        ∀ use ∈ m.usesOf (granter, grantee) steps,
          use.required.denom = allowance.denom ∧ use.tip.denom = allowance.denom) ∧
    (∀ granter grantee, m.funds.allowances.get? (granter, grantee) = none →
      m.usesOf (granter, grantee) steps = []) ∧
    ∀ before s rest, steps = before ++ s :: rest → ∀ address denom,
      address ≠ m.feeAccounts.collector → address ≠ m.feeAccounts.distribution →
      (m.after (before ++ [s])).funds.bank.balance address denom <
        (m.after before).funds.bank.balance address denom →
      ∃ tx required tip charge, s = .operation (.deduct tx required tip) ∧
        ((m.after before).deduct tx required tip).result = .ok charge ∧ tx.feePayer = address := by
  refine ⟨?_, ?_, ?_⟩
  · intro granter grantee allowance hget
    have hdraws := draws_after (m := m) hgrants (granter, grantee)
    rw [hget] at hdraws
    generalize (m.after steps).funds.allowances.get? (granter, grantee) = after at hdraws ⊢
    cases hdraws with
    | within denoms drawn => exact ⟨_, rfl, drawn, denoms⟩
  · intro granter grantee hget
    have hdraws := draws_after (m := m) hgrants (granter, grantee)
    rw [hget] at hdraws
    generalize m.usesOf (granter, grantee) steps = uses at hdraws ⊢
    generalize (m.after steps).funds.allowances.get? (granter, grantee) = after at hdraws
    cases hdraws with
    | without => rfl
  · rintro before s rest rfl address denom hc hd hlt
    obtain ⟨hbefore, hrest⟩ := List.forall_mem_append.1 hcoins
    have haccounts : (m.after before).feeAccounts = m.feeAccounts :=
      after_induction (P := fun m' => m'.feeAccounts = m.feeAccounts) rfl
        (fun m' s h => (feeAccounts_step m' s).trans h) before
    rw [← haccounts] at hc hd
    rw [after_append] at hlt
    exact exists_deduct_of_holding_lt (backed_after hb hbefore) (hrest s List.mem_cons_self) hc hd
      hlt

theorem exposure_of_grants_exceeded : ∃ start, new .default = .ok start ∧
    let m := start.after [.host (.accounts ⟨.empty, [⟨0xbb⟩]⟩),
      .host (.bank (start.feeAccounts.funded ⟨0xbb⟩ ⟨"stake", 200⟩)),
      .host (.allowances (Table.empty.insert (⟨0xbb⟩, ⟨0xaa⟩) ⟨"stake", 130⟩))]
    let charge : Step := .operation (.deduct
      ((Tx.new ⟨0xaa⟩ ⟨"stake", 80⟩ 1).withFeeGranter ⟨0xbb⟩) ⟨"stake", 60⟩ ⟨"stake", 20⟩)
    m.usesOf (⟨0xbb⟩, ⟨0xaa⟩) [charge, .operation (.endBlock 1), charge] =
        [⟨⟨0xbb⟩, ⟨0xaa⟩, ⟨"stake", 60⟩, ⟨"stake", 20⟩⟩] ∧
      ∃ left, (m.after [charge, .operation (.endBlock 1), charge]).funds.allowances.get?
          (⟨0xbb⟩, ⟨0xaa⟩) = some ⟨"stake", left⟩ ∧ left.toNat + 80 = 130 := by
  refine ⟨_, rfl, ?_⟩
  intro m charge
  have huses : m.usesOf (⟨0xbb⟩, ⟨0xaa⟩) [charge, .operation (.endBlock 1), charge] =
      [⟨⟨0xbb⟩, ⟨0xaa⟩, ⟨"stake", 60⟩, ⟨"stake", 20⟩⟩] := by decide +kernel
  have hcoins : ∀ s ∈ [charge, .operation (.endBlock 1), charge], s.KeepsCoins := by
    simp [charge, Step.KeepsCoins]
  have hgrants : ∀ s ∈ [charge, .operation (.endBlock 1), charge], s.KeepsAllowances := by
    simp [charge, Step.KeepsAllowances]
  obtain ⟨left, hleft, hsum, -⟩ := (exposure_of_grants (m := m)
    (FeeAccounts.backed_funded _ _ _) hcoins hgrants).1 ⟨0xbb⟩ ⟨0xaa⟩ ⟨"stake", 130⟩ rfl
  rw [huses] at hsum
  exact ⟨huses, left, hleft, hsum⟩

end Market

end GasMarket
