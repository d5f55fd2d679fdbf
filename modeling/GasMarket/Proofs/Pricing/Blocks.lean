import GasMarket.Genesis
import GasMarket.Proofs.Pricing.Cost
import GasMarket.Proofs.Pricing.Growth
import GasMarket.Proofs.Pricing.Ring

namespace GasMarket

open Decimal

namespace Controller

variable {p : Params} {s : Controller} {gas : UInt64}

structure Idle (p : Params) (s : Controller) : Prop where
  valid : s.Valid p
  matched : s.Matches p
  cleared : s.currentGas = 0

theorem idle_new (hp : p.Valid) : (new p).Idle p where
  valid := valid_new hp
  matched := matches_new p
  cleared := by
    unfold currentGas new
    rw [List.getElem?_replicate]
    split <;> rfl

def filled (s : Controller) (gas : UInt64) : Controller :=
  { s with window := s.window.set s.index.toNat gas }

theorem Idle.recordGas (h : s.Idle p) (hgas : gas ≤ p.maxGas) :
    s.recordGas gas = .ok (s.filled gas) := by
  refine recordGas_eq_ok_iff.2 ⟨h.valid.index_lt, ?_, ?_⟩
  · rw [h.cleared, h.matched.maxGas, UInt64.toNat_zero, Nat.zero_add]
    exact UInt64.le_iff_toNat_le.1 hgas
  · rw [h.cleared, UInt64.zero_add, filled]

theorem currentGas_advanced (h : s.Valid p) (rate fee : Decimal) :
    (s.advanced rate fee).currentGas = 0 := by
  have hslot : (s.index.toNat + 1) % s.window.length < s.window.length :=
    Nat.mod_lt _ (Nat.zero_lt_of_lt h.index_lt)
  rw [currentGas, toNat_index_advanced h, advanced, List.getElem?_set_self hslot, Option.getD_some]

theorem Idle.filled_valid (h : s.Idle p) (hgas : gas ≤ p.maxGas) : (s.filled gas).Valid p :=
  h.valid.recordGas (h.recordGas hgas)

theorem Idle.filled_matched (h : s.Idle p) : (s.filled gas).Matches p :=
  ⟨h.matched.minBaseFee, h.matched.targetGas, h.matched.maxGas⟩

def closeBlock (p : Params) (s : Controller) (gas : UInt64) : Except Error Controller := do
  let recorded ← s.recordGas gas
  let (next, _) ← recorded.nextBlock p
  return next

theorem Idle.advanced (hp : p.Valid) (h : s.Idle p) {next : Controller} {update : BlockUpdate}
    (hgas : gas ≤ p.maxGas) (hnext : (s.filled gas).nextBlock p = .ok (next, update)) :
    next.Idle p := by
  have hvalid := (h.filled_valid hgas).nextBlock hp hnext
  obtain ⟨rate, fee, -, -, -, rfl, -⟩ := nextBlock_eq_ok_iff.1 hnext
  exact ⟨hvalid, ⟨h.matched.minBaseFee, h.matched.targetGas, h.matched.maxGas⟩,
    currentGas_advanced (h.filled_valid hgas) rate fee⟩

theorem Idle.closeBlock_eq (h : s.Idle p) (hgas : gas ≤ p.maxGas) :
    closeBlock p s gas = ((s.filled gas).nextBlock p).map Prod.fst := by
  rw [closeBlock, h.recordGas hgas]
  change ((s.filled gas).nextBlock p >>= _) = _
  cases (s.filled gas).nextBlock p with
  | ok pair => rfl
  | error e => rfl

theorem closeBlock_cases (hp : p.Calibrated) (h : s.Idle p) (hgas : gas ≤ p.maxGas) :
    (bound ≤ s.baseFee.units * (s.filled gas).factor p ∧
      closeBlock p s gas = .error (.arithmetic .overflow)) ∨
    (s.baseFee.units * (s.filled gas).factor p < bound ∧ ∃ next, closeBlock p s gas = .ok next ∧
      next.Idle p ∧ 2 * next.height ≤ 3 * s.height) := by
  have hvalid := h.filled_valid hgas
  have hbase : 0 ≤ (s.filled gas).baseFee.units :=
    h.filled_matched.baseFee_nonneg hp.gentle.valid hvalid
  have hiff := exists_nextBlock_iff hp.gentle hvalid hbase
  rw [h.closeBlock_eq hgas]
  cases hnext : (s.filled gas).nextBlock p with
  | error e =>
    obtain rfl := eq_overflow_of_nextBlock hp.gentle.valid hvalid hnext
    refine .inl ⟨Int.not_lt.1 fun hlt => ?_, rfl⟩
    obtain ⟨pair, hpair⟩ := hiff.2 hlt
    rw [hpair] at hnext
    cases hnext
  | ok pair =>
    obtain ⟨next, update⟩ := pair
    exact .inr ⟨hiff.1 ⟨_, hnext⟩, next, rfl, h.advanced hp.gentle.valid hgas hnext,
      height_nextBlock_le hp hvalid h.filled_matched hnext⟩

theorem closeBlock_eq_error_iff (hp : p.Calibrated) (h : s.Idle p) (hgas : gas ≤ p.maxGas)
    {e : Error} :
    closeBlock p s gas = .error e ↔
      e = .arithmetic .overflow ∧ bound ≤ s.baseFee.units * (s.filled gas).factor p := by
  obtain ⟨hbound, hclose⟩ | ⟨hlt, next, hclose, -⟩ := closeBlock_cases hp h hgas
  · rw [hclose, Except.error.injEq, and_iff_left hbound, eq_comm]
  · rw [hclose]
    exact ⟨nofun, fun h => absurd hlt (Int.not_lt.2 h.2)⟩

def closeBlocks (p : Params) (s : Controller) (history : List UInt64) : Except Error Controller :=
  history.foldlM (closeBlock p) s

theorem closeBlocks_cases (hp : p.Calibrated) (h : s.Idle p) {history : List UInt64}
    (hhistory : ∀ gas ∈ history, gas ≤ p.maxGas) :
    closeBlocks p s history = .error (.arithmetic .overflow) ∨
    ∃ next, closeBlocks p s history = .ok next ∧ next.Idle p := by
  unfold closeBlocks
  induction history generalizing s with
  | nil => exact .inr ⟨s, rfl, h⟩
  | cons gas rest ih =>
    obtain ⟨hgas, hrest⟩ := List.forall_mem_cons.1 hhistory
    rw [List.foldlM_cons]
    obtain ⟨-, hclose⟩ | ⟨-, next, hclose, hnext, -⟩ := closeBlock_cases hp h hgas
    · rw [hclose]
      exact .inl rfl
    · rw [hclose]
      exact ih hnext hrest

theorem eq_overflow_of_closeBlocks (hp : p.Calibrated) (h : s.Idle p) {history : List UInt64}
    (hhistory : ∀ gas ∈ history, gas ≤ p.maxGas) {e : Error}
    (he : closeBlocks p s history = .error e) : e = .arithmetic .overflow := by
  obtain hclosed | ⟨next, hclosed, -⟩ := closeBlocks_cases hp h hhistory
  · cases he.symm.trans hclosed
    rfl
  · cases he.symm.trans hclosed

theorem Idle.closeBlocks (hp : p.Calibrated) (h : s.Idle p) {history : List UInt64}
    (hhistory : ∀ gas ∈ history, gas ≤ p.maxGas) {next : Controller}
    (hnext : closeBlocks p s history = .ok next) : next.Idle p := by
  obtain hclosed | ⟨next', hclosed, hidle⟩ := closeBlocks_cases hp h hhistory
  · cases hnext.symm.trans hclosed
  · cases hnext.symm.trans hclosed
    exact hidle

theorem baseFee_recordGas {t : Controller} (ht : s.recordGas gas = .ok t) :
    t.baseFee = s.baseFee := by
  obtain ⟨-, -, rfl⟩ := recordGas_eq_ok_iff.1 ht
  rfl

/-- Whether the height, taken up by a half in each of some blocks, keeps to what `mul_lt_bound`
asks. -/
def Room (blocks : Nat) (s : Controller) : Prop := 3 ^ blocks * s.height < 2 ^ blocks * 2 ^ 191

theorem Room.baseFee_lt {n : Nat} (h : s.Room n) : s.baseFee.units < 2 ^ 191 := by
  have hpow : (2 : Int) ^ n ≤ 3 ^ n := by
    exact_mod_cast Nat.pow_le_pow_left (by decide : 2 ≤ 3) n
  have hle : (2 : Int) ^ n * 2 ^ 191 ≤ 3 ^ n * 2 ^ 191 :=
    Int.mul_le_mul_of_nonneg_right hpow (by decide)
  have hheight : s.height < 2 ^ 191 :=
    Int.lt_of_mul_lt_mul_left (Int.lt_of_lt_of_le h hle) (Int.pow_nonneg (by decide))
  unfold height at hheight
  omega

theorem Room.next {n : Nat} (h : s.Room (n + 1)) {next : Controller}
    (hnext : 2 * next.height ≤ 3 * s.height) : next.Room n := by
  unfold Room at h ⊢
  rw [Int.pow_succ, Int.pow_succ, Int.mul_assoc (3 ^ n)] at h
  have hle : 3 ^ n * (2 * next.height) ≤ 3 ^ n * (3 * s.height) :=
    Int.mul_le_mul_of_nonneg_left hnext (Int.pow_nonneg (by decide))
  rw [Int.mul_left_comm] at hle
  omega

theorem Room.closeBlocks {history : List UInt64} (hroom : s.Room history.length) (hp : p.Calibrated)
    (h : s.Idle p) (hhistory : ∀ gas ∈ history, gas ≤ p.maxGas) :
    ∃ next, closeBlocks p s history = .ok next ∧ next.baseFee.units < 2 ^ 191 := by
  unfold Controller.closeBlocks
  induction history generalizing s with
  | nil => exact ⟨s, rfl, hroom.baseFee_lt⟩
  | cons gas rest ih =>
    obtain ⟨hgas, hrest⟩ := List.forall_mem_cons.1 hhistory
    rw [List.foldlM_cons]
    obtain ⟨hbound, -⟩ | ⟨-, next, hclose, hnext, hheight⟩ := closeBlock_cases hp h hgas
    · have hbase := h.matched.baseFee_nonneg hp.gentle.valid h.valid
      have hfactor := factor_le hp (h.filled_valid hgas) h.filled_matched
      exact absurd (mul_lt_bound hbase hroom.baseFee_lt hfactor) (Int.not_lt.2 hbound)
    · rw [hclose]
      exact ih (hroom.next hheight) hnext hrest

theorem calibrated_build (c : Config) (htarget : 0 < c.targetGas) :
    (Genesis.build c).params.Calibrated :=
  (Params.calibrated_ofCalibration c.calibration).withTarget htarget

theorem idle_build (c : Config) (htarget : 0 < c.targetGas) :
    (Genesis.build c).state.Idle (Genesis.build c).params :=
  idle_new (calibrated_build c htarget).gentle.valid

theorem room_build (c : Config) {n : Nat} (hn : n ≤ 100) : (Genesis.build c).state.Room n := by
  have hpow : ∀ n ≤ 100, (3 : Int) ^ n * (10 ^ 27 + 2 ^ 127) < 2 ^ n * 2 ^ 191 := by decide +kernel
  have hheight : (Genesis.build c).state.height = 10 ^ 27 + 2 ^ 127 := by
    cases c with
    | mk authority feeCollector distribution calibration targetGas =>
      cases calibration with
      | eip1559 => rfl
      | aimd => rfl
  unfold Room
  rw [hheight]
  exact hpow n hn

/-- From the genesis of any configuration with a target, closing blocks of admissible gas and
checking fees can fail fatally only by an overflow, of one product each, and no base fee of the
first hundred blocks is large enough for one. -/
theorem onlyOverflows_after_build {c : Config} (htarget : 0 < c.targetGas) {history : List UInt64}
    (hhistory : ∀ gas ∈ history, gas ≤ (Genesis.build c).params.maxGas) :
    let p := (Genesis.build c).params
    let closed := closeBlocks p (Genesis.build c).state history
    (∀ e, closed = .error e → e = .arithmetic .overflow) ∧
    (history.length ≤ 100 → ∃ s, closed = .ok s ∧ s.baseFee.units < 2 ^ 191) ∧
    ∀ s, closed = .ok s →
      (∀ gas ≤ p.maxGas, ∀ e, closeBlock p s gas = .error e ↔
        e = .arithmetic .overflow ∧ bound ≤ s.baseFee.units * (s.filled gas).factor p) ∧
      (∀ t, (t = s ∨ ∃ gas, s.recordGas gas = .ok t) → ∀ rates tx context amount e,
        tx.fee = [⟨p.feeDenom, amount⟩] → e.isFatal → (t.checkFee p rates tx context = .error e ↔
          e = .arithmetic .overflow ∧ bound ≤ s.baseFee.units * tx.gasLimit.toNat)) ∧
      (s.baseFee.units < 2 ^ 191 →
        (∀ gas ≤ p.maxGas, s.baseFee.units * (s.filled gas).factor p < bound) ∧
        ∀ gas : UInt64, s.baseFee.units * gas.toNat < bound) := by
  intro p closed
  have hp : p.Calibrated := calibrated_build c htarget
  have hstart := idle_build c htarget
  refine ⟨fun e => eq_overflow_of_closeBlocks hp hstart hhistory, ?_, ?_⟩
  · intro hlength
    exact (room_build c hlength).closeBlocks hp hstart hhistory
  · intro s hs
    have hidle : s.Idle p := hstart.closeBlocks hp hhistory hs
    have hbase := hidle.matched.baseFee_nonneg hp.gentle.valid hidle.valid
    refine ⟨fun gas hgas e => closeBlock_eq_error_iff hp hidle hgas, ?_, ?_⟩
    · intro t ht rates tx context amount e hfee hfatal
      have hsame : t.baseFee = s.baseFee := by
        obtain rfl | ⟨gas, hgas⟩ := ht
        · rfl
        · exact baseFee_recordGas hgas
      rw [← hsame] at hbase ⊢
      exact checkFee_eq_error_iff hp.enabled hbase hfee rfl hfatal
    · intro hlow
      constructor
      · intro gas hgas
        exact mul_lt_bound hbase hlow (factor_le hp (hidle.filled_valid hgas) hidle.filled_matched)
      · intro gas
        have hgas := gas.toNat_lt
        exact mul_lt_bound hbase hlow (by omega)

theorem onlyOverflows_after_default : let p := (Genesis.build .default).params
    ∃ s, closeBlocks p (Genesis.build .default).state [30000000, 0, 15000000] = .ok s ∧
      ∀ e, closeBlock p s 30000000 ≠ .error e := by
  intro p
  have hhistory : ∀ gas ∈ [30000000, 0, 15000000], gas ≤ p.maxGas := by
    simp only [List.forall_mem_cons]
    exact ⟨by decide, by decide, by decide, List.forall_mem_nil _⟩
  obtain ⟨-, hfirst, hlater⟩ := onlyOverflows_after_build (c := .default) (by decide) hhistory
  obtain ⟨s, hs, hlow⟩ := hfirst (by decide)
  obtain ⟨hclose, -, hroom⟩ := hlater s hs
  have hgas : (30000000 : UInt64) ≤ p.maxGas := by decide
  refine ⟨s, hs, fun e he => ?_⟩
  obtain ⟨-, hbound⟩ := (hclose _ hgas e).1 he
  exact absurd ((hroom hlow).1 _ hgas) (Int.not_lt.2 hbound)

theorem overflow_after_full_blocks :
    let c : Config := { Config.default with calibration := .aimd }
    let p := (Genesis.build c).params
    0 < c.targetGas ∧ (∀ gas ∈ List.replicate 192 30000000, gas ≤ p.maxGas) ∧
      closeBlocks p (Genesis.build c).state (List.replicate 192 30000000) =
        .error (.arithmetic .overflow) := by
  intro c p
  have htarget : 0 < c.targetGas := by decide
  have hhistory : ∀ gas ∈ List.replicate 192 30000000, gas ≤ p.maxGas := by
    intro gas hgas
    rw [List.eq_of_mem_replicate hgas]
    decide
  refine ⟨htarget, hhistory, ?_⟩
  obtain hclosed | ⟨next, hclosed, -⟩ :=
    closeBlocks_cases (calibrated_build c htarget) (idle_build c htarget) hhistory
  · exact hclosed
  · have hfails :
        (closeBlocks p (Genesis.build c).state (List.replicate 192 30000000)).toOption = none := by
      decide +kernel
    rw [hclosed] at hfails
    cases hfails

end Controller

end GasMarket
