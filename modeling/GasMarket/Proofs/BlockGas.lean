import GasMarket.Proofs.Pricing.Trajectory
import GasMarket.Proofs.Validity.Run

namespace GasMarket

def Step.InsideBlock : Step → Prop
  | .operation (.initGenesis _) | .operation .load | .operation (.endBlock _) => False
  | _ => True

namespace Market

variable {m : Market} {tx : Tx} {charge : Charge} {gasUsed : UInt64} {success : Bool} {gas : Nat}

/-- A settlement that gets as far as paying out, which may still fail. -/
def Accepts (m : Market) (tx : Tx) (charge : Charge) (gasUsed : UInt64) : Prop :=
  gasUsed ≤ tx.gasLimit ∧ (m.recorded gasUsed).toOption.isSome ∧
    (m.state.requiredFee m.params m.rates gasUsed charge.required.denom).toOption.isSome

instance (m : Market) (tx : Tx) (charge : Charge) (gasUsed : UInt64) :
    Decidable (m.Accepts tx charge gasUsed) := inferInstanceAs (Decidable (_ ∧ _))

def counted (m : Market) (gas : Nat) : Step → Nat
  | .operation (.updateParams authority p) =>
    match (m.updateParams authority p).result with
    | .ok () => 0
    | .error _ => gas
  | .operation (.refund tx charge gasUsed success) =>
    match (m.refund tx charge gasUsed success).result with
    | .ok _ => gas + gasUsed.toNat
    | .error _ => if m.Accepts tx charge gasUsed then gas + gasUsed.toNat else gas
  | _ => gas

def tally (m : Market) (gas : Nat) : List Step → Nat
  | [] => gas
  | s :: rest => (m.step s).tally (m.counted gas s) rest

/-- Neither new params nor a settlement that fails only in paying out. -/
def Regular (m : Market) : Step → Prop
  | .operation (.updateParams authority p) => (m.updateParams authority p).result ≠ .ok ()
  | .operation (.refund tx charge gasUsed success) =>
    m.Accepts tx charge gasUsed → ∃ refund, (m.refund tx charge gasUsed success).result = .ok refund
  | _ => True

def AllRegular (m : Market) : List Step → Prop
  | [] => True
  | s :: rest => m.Regular s ∧ (m.step s).AllRegular rest

def settledGas (m : Market) : Step → Nat
  | .operation (.refund tx charge gasUsed success) =>
    match (m.refund tx charge gasUsed success).result with
    | .ok _ => gasUsed.toNat
    | .error _ => 0
  | _ => 0

def totalSettled (m : Market) : List Step → Nat
  | [] => 0
  | s :: rest => m.settledGas s + (m.step s).totalSettled rest

theorem accepts_of_recorded {s : Controller} {used : Coin} (hlimit : gasUsed ≤ tx.gasLimit)
    (hs : m.recorded gasUsed = .ok s)
    (hused : m.state.requiredFee m.params m.rates gasUsed charge.required.denom = .ok used) :
    m.Accepts tx charge gasUsed := by
  refine ⟨hlimit, ?_, ?_⟩
  · rw [hs]
    rfl
  · rw [hused]
    rfl

theorem not_accepts_of_refused {e : Error} (h : m.Refused tx charge gasUsed e) :
    ¬ m.Accepts tx charge gasUsed := by
  rintro ⟨hlimit, hrecorded, hprice⟩
  cases h with
  | limit h => exact absurd hlimit (UInt64.not_le.2 h)
  | block h =>
    rw [h] at hrecorded
    cases hrecorded
  | price h =>
    rw [h] at hprice
    cases hprice

theorem accepts_of_refund {refund : Refund}
    (h : (m.refund tx charge gasUsed success).result = .ok refund) :
    m.Accepts tx charge gasUsed := by
  obtain ⟨e, -, he⟩ | ⟨s, used, moved, hlimit, hs, hused, -⟩ :=
    refund_cases m tx charge gasUsed success
  · rw [he] at h
    cases h
  · exact accepts_of_recorded hlimit hs hused

theorem counted_refund (m : Market) (gas : Nat) (tx : Tx) (charge : Charge) (gasUsed : UInt64)
    (success : Bool) : m.counted gas (.operation (.refund tx charge gasUsed success)) =
      if m.Accepts tx charge gasUsed then gas + gasUsed.toNat else gas := by
  unfold counted
  cases h : (m.refund tx charge gasUsed success).result with
  | ok refund => simp only [h, if_pos (accepts_of_refund h)]
  | error e => simp only [h]

theorem Regular.counted_eq {s : Step} (h : m.Regular s) (gas : Nat) :
    m.counted gas s = gas + m.settledGas s := by
  cases s with
  | host part => rfl
  | operation op =>
    cases op with
    | updateParams authority p =>
      unfold counted settledGas
      cases hresult : (m.updateParams authority p).result with
      | ok u => exact absurd hresult h
      | error e => simp only [hresult, Nat.add_zero]
    | refund tx charge gasUsed success =>
      unfold counted settledGas
      cases hresult : (m.refund tx charge gasUsed success).result with
      | ok refund => simp only [hresult]
      | error e =>
        have hrefused : ¬ m.Accepts tx charge gasUsed := by
          intro haccepts
          obtain ⟨refund, hok⟩ := h haccepts
          exact absurd (hok.symm.trans hresult) nofun
        simp only [hresult, if_neg hrefused, Nat.add_zero]
    | initGenesis | load | beginBlock | endBlock | checkFee | deduct | drainEvents => rfl

theorem AllRegular.tally_eq {steps : List Step} (h : m.AllRegular steps) (gas : Nat) :
    m.tally gas steps = gas + m.totalSettled steps := by
  induction steps generalizing m gas with
  | nil => rfl
  | cons s rest ih =>
    rw [tally, totalSettled, ih h.2, h.1.counted_eq, Nat.add_assoc]

structure Counts (gas : Nat) (m : Market) : Prop where
  sound : m.Sound
  currentGas : m.params.enabled → m.state.currentGas.toNat = gas

theorem Counts.of_same (h : m.Counts gas) {s : Step} (hparams : (m.step s).params = m.params)
    (hstate : (m.step s).state = m.state) : (m.step s).Counts gas where
  sound := h.sound.step s
  currentGas := by
    rw [hparams, hstate]
    exact h.currentGas

theorem Counts.updateParams (h : m.Counts gas) (authority : Address) (p : Params) :
    (m.step (.operation (.updateParams authority p))).Counts
      (m.counted gas (.operation (.updateParams authority p))) := by
  obtain ⟨e, he⟩ | ⟨-, hp, he⟩ := updateParams_cases m authority p
  · have hcounted : m.counted gas (.operation (.updateParams authority p)) = gas := by
      rw [counted, he]
      rfl
    have hsame : m.step (.operation (.updateParams authority p)) = m := congrArg Outcome.state he
    rw [hcounted, hsame]
    exact h
  · have hcounted : m.counted gas (.operation (.updateParams authority p)) = 0 := by
      rw [counted, he]
      rfl
    have hadopt : m.step (.operation (.updateParams authority p)) = m.adopt p (.new p) :=
      congrArg Outcome.state he
    refine ⟨h.sound.step _, ?_⟩
    intro _
    rw [hcounted, hadopt]
    exact congrArg UInt64.toNat (Controller.idle_new (Params.valid_of_validateUnder hp)).cleared

theorem Counts.refund (h : m.Counts gas) (tx : Tx) (charge : Charge) (gasUsed : UInt64)
    (success : Bool) :
    (m.step (.operation (.refund tx charge gasUsed success))).Counts
      (m.counted gas (.operation (.refund tx charge gasUsed success))) := by
  rw [counted_refund]
  obtain ⟨e, hrefused, he⟩ | ⟨s, used, moved, hlimit, hs, hused, -, -, he⟩ :=
    refund_cases m tx charge gasUsed success
  · have hsame : m.step (.operation (.refund tx charge gasUsed success)) = m :=
      congrArg Outcome.state he
    rw [if_neg (not_accepts_of_refused hrefused), hsame]
    exact h
  · rw [if_pos (accepts_of_recorded hlimit hs hused)]
    refine ⟨h.sound.step _, ?_⟩
    rw [step, perform, he, params_told, params_committed, state_told, state_committed]
    intro henabled
    obtain ⟨-, hs⟩ | ⟨hdisabled, -⟩ := recorded_cases hs
    · obtain ⟨hindex, hfits, rfl⟩ := Controller.recordGas_eq_ok_iff.1 hs
      rw [← Controller.filled, Controller.currentGas_filled hindex,
        Controller.toNat_add_of_fits hfits, h.currentGas henabled]
    · exact absurd henabled hdisabled

theorem Counts.step (h : m.Counts gas) {s : Step} (hs : s.InsideBlock) :
    (m.step s).Counts (m.counted gas s) := by
  cases s with
  | host part => cases part <;> exact h.of_same rfl rfl
  | operation op =>
    cases op with
    | initGenesis | load | endBlock => exact hs.elim
    | updateParams authority p => exact h.updateParams authority p
    | refund tx charge gasUsed success => exact h.refund tx charge gasUsed success
    | beginBlock | drainEvents => exact h.of_same rfl rfl
    | checkFee tx context =>
      have hsame : m.step (.operation (.checkFee tx context)) = m := Outcome.state_ofExcept m _
      exact h.of_same (congrArg Market.params hsame) (congrArg Market.state hsame)
    | deduct tx required tip =>
      have htold := state_deduct m tx required tip
      exact h.of_same ((congrArg Market.params htold).trans (params_told m _ _))
        ((congrArg Market.state htold).trans (state_told m _ _))

theorem Counts.after (h : m.Counts gas) {steps : List Step} (hsteps : ∀ s ∈ steps, s.InsideBlock) :
    (m.after steps).Counts (m.tally gas steps) := by
  induction steps generalizing m gas with
  | nil => exact h
  | cons s rest ih =>
    obtain ⟨hs, hrest⟩ := List.forall_mem_cons.1 hsteps
    exact ih (h.step hs) hrest

section EndBlock

variable {height : UInt64} {update : BlockUpdate}

theorem nextBlock_of_endBlock (h : (m.endBlock height).result = .ok (some update)) :
    m.params.enabled ∧ ∃ next, m.state.nextBlock m.params = .ok (next, update) ∧
      (m.endBlock height).state.state = next := by
  obtain ⟨e, he⟩ | ⟨-, he⟩ | ⟨next, update', hnext, he⟩ := endBlock_cases m height
  · rw [he] at h
    cases h
  · rw [he] at h
    cases h
  · have henabled : m.params.enabled := by
      by_contra hdisabled
      rw [endBlock, if_pos hdisabled] at h
      cases h
    rw [he] at h
    cases h
    exact ⟨henabled, next, hnext, by rw [he]; rfl⟩

theorem Sound.counts_endBlock (h : m.Sound)
    (hclosed : (m.endBlock height).result = .ok (some update)) :
    (m.endBlock height).state.Counts 0 := by
  refine ⟨h.endBlock height, ?_⟩
  intro _
  obtain ⟨-, next, hnext, hstate⟩ := nextBlock_of_endBlock hclosed
  obtain ⟨rate, fee, -, -, -, rfl, -⟩ := Controller.nextBlock_eq_ok_iff.1 hnext
  rw [hstate, Controller.currentGas_advanced h.state]
  rfl

theorem blockGas_of_endBlock (h : (m.endBlock height).result = .ok (some update)) :
    update.blockGas = m.state.currentGas := by
  obtain ⟨-, next, hnext, -⟩ := nextBlock_of_endBlock h
  obtain ⟨rate, fee, -, -, -, -, rfl⟩ := Controller.nextBlock_eq_ok_iff.1 hnext
  rfl

end EndBlock

/-- Between one end of a block and the next, in whatever order things happen, the gas that the
latter works with is that of all settlements since the last new params.  Without new params, and if
none failed in paying out, it is that of all successful ones. -/
theorem blockGas_eq_tally (hm : m.Reachable) {opened closed : UInt64} {first last : BlockUpdate}
    {block : Market} {steps : List Step} (hopened : (m.endBlock opened).result = .ok (some first))
    (hblock : block = (m.endBlock opened).state) (hsteps : ∀ s ∈ steps, s.InsideBlock)
    (hclosed : ((block.after steps).endBlock closed).result = .ok (some last)) :
    last.blockGas.toNat = block.tally 0 steps ∧ last.blockGas ≤ (block.after steps).state.maxGas ∧
      (block.AllRegular steps → last.blockGas.toNat = block.totalSettled steps) := by
  have hcounts : (block.after steps).Counts (block.tally 0 steps) := by
    rw [hblock]
    exact (hm.sound.counts_endBlock hopened).after hsteps
  obtain ⟨henabled, -⟩ := nextBlock_of_endBlock hclosed
  have htally := hcounts.currentGas henabled
  rw [blockGas_of_endBlock hclosed]
  refine ⟨htally, hcounts.sound.state.currentGas_le, ?_⟩
  intro hregular
  rw [htally, hregular.tally_eq, Nat.zero_add]

theorem exists_update {height : UInt64} (h : (m.endBlock height).result.toOption.join.isSome) :
    ∃ update, (m.endBlock height).result = .ok (some update) := by
  obtain ⟨update, hupdate⟩ := Option.isSome_iff_exists.1 h
  exact ⟨update, toOption_eq_some_iff.1 (Option.join_eq_some_iff.1 hupdate)⟩

def renewedBlock : List Step :=
  let tx := Tx.new ⟨0xaa⟩ ⟨"stake", 20000000000000000⟩ 20000000
  let charge : Charge := ⟨⟨0xaa⟩, ⟨"stake", 20000000000000000⟩, .zero "stake"⟩
  [.operation (.deduct tx charge.required charge.tip),
    .operation (.refund tx charge 20000000 true),
    .operation (.updateParams Config.default.authority .eip1559),
    .operation (.deduct tx charge.required charge.tip),
    .operation (.refund tx charge 20000000 true)]

theorem blockGas_eq_tally_renewedBlock : ∃ start, new .default = .ok start ∧
    let m := start.after [.host (.accounts ⟨.empty, [⟨0xaa⟩]⟩),
      .host (.bank (start.feeAccounts.funded ⟨0xaa⟩ ⟨"stake", 40000000000000000⟩))]
    ∃ first last block, (m.endBlock 1).result = .ok (some first) ∧ block = (m.endBlock 1).state ∧
      ((block.after renewedBlock).endBlock 2).result = .ok (some last) ∧
      last.blockGas.toNat = block.tally 0 renewedBlock ∧ block.tally 0 renewedBlock = 20000000 := by
  refine ⟨_, rfl, ?_⟩
  intro m
  have hm : m.Reachable := ⟨.default, _, _, rfl, rfl⟩
  have hopened : ∃ first, (m.endBlock 1).result = .ok (some first) :=
    exists_update (by decide +kernel)
  have hclosed :
      ∃ last, (((m.endBlock 1).state.after renewedBlock).endBlock 2).result = .ok (some last) :=
    exists_update (by decide +kernel)
  have hsteps : ∀ s ∈ renewedBlock, s.InsideBlock := by simp [renewedBlock, Step.InsideBlock]
  have htally : (m.endBlock 1).state.tally 0 renewedBlock = 20000000 := by decide +kernel
  clear_value m
  obtain ⟨first, hopened⟩ := hopened
  obtain ⟨last, hclosed⟩ := hclosed
  exact ⟨first, last, _, hopened, rfl, hclosed,
    (blockGas_eq_tally hm hopened rfl hsteps hclosed).1, htally⟩

/-- What the first settlement used is lost to the end of the block, and both together used
more than a block may. -/
theorem lost_gas_renewedBlock : ∃ start, new .default = .ok start ∧
    let m := start.after [.host (.accounts ⟨.empty, [⟨0xaa⟩]⟩),
      .host (.bank (start.feeAccounts.funded ⟨0xaa⟩ ⟨"stake", 40000000000000000⟩))]
    let block := (m.endBlock 1).state
    ∃ first last, (m.endBlock 1).result = .ok (some first) ∧
      ((block.after renewedBlock).endBlock 2).result = .ok (some last) ∧
      (∀ k ≤ 5, (block.after (renewedBlock.take k)).params.enabled ∧
        (block.after (renewedBlock.take k)).params.maxGas = 30000000 ∧
        (block.after (renewedBlock.take k)).state.maxGas = 30000000) ∧
      block.totalSettled renewedBlock = 40000000 ∧ last.blockGas = 20000000 := by
  refine ⟨_, rfl, ?_⟩
  intro m block
  obtain ⟨first, hopened⟩ : ∃ first, (m.endBlock 1).result = .ok (some first) :=
    exists_update (by decide +kernel)
  obtain ⟨last, hclosed⟩ :
      ∃ last, ((block.after renewedBlock).endBlock 2).result = .ok (some last) :=
    exists_update (by decide +kernel)
  refine ⟨first, last, hopened, hclosed, by decide +kernel, by decide +kernel, ?_⟩
  rw [blockGas_of_endBlock hclosed]
  decide +kernel

end Market

end GasMarket
