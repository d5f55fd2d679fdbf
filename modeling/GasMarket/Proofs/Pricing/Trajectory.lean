import GasMarket.Proofs.Pricing.Blocks
import Mathlib.Data.List.GetD

namespace GasMarket

open Decimal

def blockGas (gases : List UInt64) : Nat := (gases.map UInt64.toNat).sum

structure Quote where
  baseFee : Int
  learningRate : Int
  deriving DecidableEq

namespace Quote

def start (p : Params) : Quote := ⟨p.minBaseFee.units, p.minLearningRate.units⟩

section Recurrence

variable (p : Params) (totals : List Nat)

def windowGas : Nat := (totals.take p.window.toNat).sum

def utilization : Int :=
  (windowGas p totals * scale : Int).tdiv (p.maxGas.toNat * p.window.toNat : Nat)

def nextRate (q : Quote) : Int :=
  if utilization p totals ≤ p.theta.units ∨ scale - p.theta.units ≤ utilization p totals then
    min (q.learningRate + p.alpha.units) p.maxLearningRate.units
  else max ((q.learningRate * p.beta.units).tdiv scale) p.minLearningRate.units

def adjustment (rate : Int) : Int :=
  scale +
    (rate * ((totals.headD 0 - p.targetGas.toNat) * scale : Int).tdiv p.targetGas.toNat).tdiv scale

def netTerm : Int := (windowGas p totals - p.targetGas.toNat * p.window.toNat) * p.delta.units

def next (q : Quote) : Quote where
  baseFee :=
    max ((q.baseFee * adjustment p totals (nextRate p totals q)).tdiv scale + netTerm p totals)
      p.minBaseFee.units
  learningRate := nextRate p totals q

end Recurrence

def trajectory (p : Params) (past : List Nat) (q : Quote) : List Nat → List Quote
  | [] => []
  | gas :: rest =>
    let q := next p (gas :: past) q
    q :: trajectory p (gas :: past) q rest

end Quote

def BlockUpdate.quote (u : BlockUpdate) : Quote := ⟨u.baseFee.units, u.learningRate.units⟩

namespace Controller

def quote (s : Controller) : Quote := ⟨s.baseFee.units, s.learningRate.units⟩

def recordAll (s : Controller) (gases : List UInt64) : Except Error Controller :=
  gases.foldlM recordGas s

def play (p : Params) (s : Controller) :
    List (List UInt64) → Except Error (Controller × List BlockUpdate)
  | [] => .ok (s, [])
  | gases :: rest => do
    let recorded ← s.recordAll gases
    let (next, update) ← recorded.nextBlock p
    let (last, updates) ← next.play p rest
    return (last, update :: updates)

variable {p : Params} {s t next last : Controller} {gases : List UInt64} {past : List Nat}
  {update : BlockUpdate}

theorem play_cons_eq_ok_iff {rest : List (List UInt64)} {updates : List BlockUpdate} :
    s.play p (gases :: rest) = .ok (last, updates) ↔
      ∃ recorded next update later, s.recordAll gases = .ok recorded ∧
        recorded.nextBlock p = .ok (next, update) ∧ next.play p rest = .ok (last, later) ∧
        updates = update :: later := by
  simp only [play, bind_eq_ok_iff]
  constructor
  · rintro ⟨recorded, hrecorded, ⟨next, update⟩, hnext, ⟨last', later⟩, hrest, hpair⟩
    cases hpair
    exact ⟨recorded, next, update, later, hrecorded, hnext, hrest, rfl⟩
  · rintro ⟨recorded, next, update, later, hrecorded, hnext, hrest, rfl⟩
    exact ⟨recorded, hrecorded, (next, update), hnext, (last, later), hrest, rfl⟩

section Recording

theorem currentGas_filled (h : s.index.toNat < s.window.length) (gas : UInt64) :
    (s.filled gas).currentGas = gas := by
  unfold currentGas filled
  rw [List.getElem?_set_self h, Option.getD_some]

theorem filled_filled (s : Controller) (gas other : UInt64) :
    (s.filled gas).filled other = s.filled other := by
  unfold filled
  rw [List.set_set]

theorem filled_currentGas (h : s.index.toNat < s.window.length) : s.filled s.currentGas = s := by
  unfold filled currentGas
  rw [List.getElem?_eq_getElem h, Option.getD_some, List.set_getElem_self]

theorem recordAll_eq_filled (h : s.index.toNat < s.window.length) (ht : s.recordAll gases = .ok t) :
    ∃ gas, t = s.filled gas ∧ gas.toNat = s.currentGas.toNat + blockGas gases := by
  unfold recordAll at ht
  induction gases generalizing s with
  | nil =>
    cases ht
    exact ⟨_, (filled_currentGas h).symm, rfl⟩
  | cons gas rest ih =>
    rw [List.foldlM_cons] at ht
    obtain ⟨mid, hmid, hrest⟩ := bind_eq_ok_iff.1 ht
    obtain ⟨-, hfits, rfl⟩ := recordGas_eq_ok_iff.1 hmid
    have hinside : (s.filled (s.currentGas + gas)).index.toNat <
        (s.filled (s.currentGas + gas)).window.length := by
      change s.index.toNat < (s.window.set _ _).length
      rw [List.length_set]
      exact h
    obtain ⟨sum, rfl, hsum⟩ := ih hinside hrest
    refine ⟨sum, filled_filled s _ sum, ?_⟩
    rw [hsum]
    rw [currentGas_filled h, toNat_add_of_fits hfits]
    exact Nat.add_assoc _ _ _

theorem Valid.recordAll (h : s.Valid p) (ht : s.recordAll gases = .ok t) : t.Valid p := by
  unfold Controller.recordAll at ht
  induction gases generalizing s with
  | nil =>
    cases ht
    exact h
  | cons gas rest ih =>
    rw [List.foldlM_cons] at ht
    obtain ⟨mid, hmid, hrest⟩ := bind_eq_ok_iff.1 ht
    exact ih (h.recordGas hmid) hrest

end Recording

theorem currentGas_eq_headD (h : s.index.toNat < s.window.length)
    (hrecent : s.recent = lastBlocks s.window.length past) : s.currentGas.toNat = past.headD 0 := by
  rw [recent_eq_cons h] at hrecent
  obtain ⟨slots, hslots⟩ := Nat.exists_eq_succ_of_ne_zero (Nat.ne_zero_of_lt h)
  rw [hslots] at hrecent
  cases past with
  | nil => exact (List.cons.inj hrecent).1
  | cons gas past =>
    rw [lastBlocks_cons] at hrecent
    exact (List.cons.inj hrecent).1

theorem quote_of_nextBlock (hp : p.Valid) (h : s.Valid p) (hmatched : s.Matches p)
    (hrecent : s.recent = lastBlocks p.window.toNat past)
    (hnext : s.nextBlock p = .ok (next, update)) :
    update.quote = Quote.next p past s.quote ∧ next.quote = update.quote := by
  have htotal : s.totalGas = Quote.windowGas p past := by
    rw [totalGas_eq_sum_recent, hrecent, sum_lastBlocks, Quote.windowGas]
  have hutilization : s.utilization = Quote.utilization p past := by
    rw [utilization, htotal, hmatched.maxGas, h.length_window, Quote.utilization]
  obtain ⟨rate, fee, hrate, hfee, -, rfl, rfl⟩ := nextBlock_eq_ok_iff.1 hnext
  have hrated := h.rated hp hrate
  have hrate' : rate.units = Quote.nextRate p past s.quote := by
    rw [((nextLearningRate_eq_ok_iff hp h).1 hrate).2, nextRate, Quote.nextRate, ← hutilization]
    rfl
  have hgas : s.currentGas.toNat = past.headD 0 := by
    apply currentGas_eq_headD h.index_lt
    rw [hrecent, h.length_window]
  have hadjustment : adjustment { s with learningRate := rate } =
      Quote.adjustment p past (Quote.nextRate p past s.quote) := by
    rw [← hrate', Quote.adjustment, ← hgas, ← hmatched.targetGas]
    rfl
  have hnet : netTerm p { s with learningRate := rate } = Quote.netTerm p past := by
    change (s.totalGas - s.targetGas.toNat * s.window.length : Int) * p.delta.units = _
    rw [htotal, hmatched.targetGas, h.length_window, Quote.netTerm]
  obtain ⟨-, -, -, -, -, hfee⟩ := (nextBaseFee_eq_ok_iff hp hrated).1 hfee
  refine ⟨?_, rfl⟩
  rw [BlockUpdate.quote, hfee, hrate', movedFee, hadjustment, hnet, Quote.next,
    ← hmatched.minBaseFee]
  rfl

/-- A controller between two blocks, after blocks of some totals of which the latest comes first. -/
structure Tracks (p : Params) (past : List Nat) (s : Controller) : Prop extends Idle p s where
  index : s.index.toNat = past.length % p.window.toNat
  recent : s.recent = lastBlocks p.window.toNat (0 :: past)

theorem tracks_new (hp : p.Valid) : (new p).Tracks p [] where
  toIdle := idle_new hp
  index := by
    rw [List.length_nil, Nat.zero_mod]
    rfl
  recent := by
    obtain ⟨slots, hslots⟩ := Nat.exists_eq_succ_of_ne_zero (Nat.ne_zero_of_lt hp.window_pos)
    rw [hslots, lastBlocks_cons, lastBlocks_nil, ← List.replicate_succ, List.eq_replicate_iff]
    refine ⟨by rw [length_recent, length_window_new, hslots], ?_⟩
    intro gas hgas
    obtain ⟨word, hword, rfl⟩ := List.mem_map.1 ((recent_perm (new p)).mem_iff.2 hgas)
    rw [List.eq_of_mem_replicate hword]
    rfl

theorem Tracks.window_ne_zero (h : s.Tracks p past) : p.window.toNat ≠ 0 := by
  rw [← h.valid.length_window]
  exact Nat.ne_zero_of_lt h.valid.index_lt

theorem Tracks.recent_recorded (h : s.Tracks p past) (ht : s.recordAll gases = .ok t) :
    t.recent = lastBlocks p.window.toNat (blockGas gases :: past) := by
  obtain ⟨gas, rfl, hgas⟩ := recordAll_eq_filled h.valid.index_lt ht
  obtain ⟨slots, hslots⟩ := Nat.exists_eq_succ_of_ne_zero h.window_ne_zero
  rw [filled, recent_filled h.valid.index_lt, h.recent, hgas, h.cleared, hslots, lastBlocks_cons,
    lastBlocks_cons, UInt64.toNat_zero, Nat.zero_add]
  rfl

theorem Tracks.block (hp : p.Valid) (h : s.Tracks p past) (ht : s.recordAll gases = .ok t)
    (hnext : t.nextBlock p = .ok (next, update)) :
    next.Tracks p (blockGas gases :: past) ∧
      update.quote = Quote.next p (blockGas gases :: past) s.quote ∧ next.quote = update.quote := by
  have hvalid := h.valid.recordAll ht
  have hrecent := h.recent_recorded ht
  obtain ⟨gas, rfl, -⟩ := recordAll_eq_filled h.valid.index_lt ht
  have hmatched : (s.filled gas).Matches p := h.filled_matched
  have hquote := quote_of_nextBlock hp hvalid hmatched hrecent hnext
  have hnextValid := hvalid.nextBlock hp hnext
  obtain ⟨rate, fee, -, -, -, rfl, -⟩ := nextBlock_eq_ok_iff.1 hnext
  refine ⟨⟨⟨hnextValid, ⟨hmatched.minBaseFee, hmatched.targetGas, hmatched.maxGas⟩,
    currentGas_advanced hvalid rate fee⟩, ?_, ?_⟩, hquote⟩
  · rw [toNat_index_advanced hvalid, hvalid.length_window]
    change (s.index.toNat + 1) % p.window.toNat = _
    rw [h.index, Nat.mod_add_mod, List.length_cons]
  · rw [recent_advanced hvalid, hrecent]
    obtain ⟨slots, hslots⟩ := Nat.exists_eq_succ_of_ne_zero h.window_ne_zero
    rw [hslots, dropLast_lastBlocks, lastBlocks_cons]

theorem Tracks.play (hp : p.Valid) (h : s.Tracks p past) {blocks : List (List UInt64)}
    {updates : List BlockUpdate} (hplay : s.play p blocks = .ok (last, updates)) :
    last.Tracks p ((blocks.map blockGas).reverse ++ past) ∧
      updates.map BlockUpdate.quote = Quote.trajectory p past s.quote (blocks.map blockGas) := by
  induction blocks generalizing s past updates with
  | nil =>
    cases hplay
    exact ⟨h, rfl⟩
  | cons gases rest ih =>
    obtain ⟨recorded, next, update, later, hrecorded, hnext, hrest, rfl⟩ :=
      play_cons_eq_ok_iff.1 hplay
    obtain ⟨htracks, hupdate, hquote⟩ := h.block hp hrecorded hnext
    obtain ⟨hlast, hlater⟩ := ih htracks hrest
    constructor
    · rw [List.map_cons, List.reverse_cons, List.append_assoc]
      exact hlast
    · rw [List.map_cons, List.map_cons, Quote.trajectory, hlater, hquote, hupdate]

/-- What a controller holds after blocks of some totals: the totals of the last blocks in their
slots, and nothing in the others. -/
structure Slides (p : Params) (totals : List Nat) (s : Controller) : Prop where
  index : s.index.toNat = totals.length % p.window.toNat
  cleared : s.currentGas = 0
  slot : ∀ j, 1 ≤ j → j ≤ min totals.length (p.window.toNat - 1) →
    s.window[(totals.length - j) % p.window.toNat]?.map UInt64.toNat = totals[totals.length - j]?
  others : ∀ i < p.window.toNat, (∀ j, 1 ≤ j → j ≤ min totals.length (p.window.toNat - 1) →
    i ≠ (totals.length - j) % p.window.toNat) → s.window[i]? = some 0
  seen : ∀ gases recorded, s.recordAll gases = .ok recorded →
    recorded.currentGas.toNat = blockGas gases ∧
      (recorded.window.map UInt64.toNat).Perm
        (lastBlocks p.window.toNat (totals ++ [blockGas gases]).reverse)

theorem sub_mod_eq {n w j : Nat} (hj : j ≤ n) (hw : j < w) :
    (n - j) % w = if j ≤ n % w then n % w - j else n % w + w - j := by
  have hdiv := Nat.div_add_mod n w
  have hlt := Nat.mod_lt n (Nat.zero_lt_of_lt hw)
  split
  case isTrue hle =>
    have hsplit : n - j = n % w - j + w * (n / w) := by omega
    rw [hsplit, Nat.add_mul_mod_self_left, Nat.mod_eq_of_lt (by omega)]
  case isFalse hgt =>
    obtain ⟨q, hq⟩ : ∃ q, n / w = q + 1 := by
      apply Nat.exists_eq_succ_of_ne_zero
      intro hzero
      rw [hzero, Nat.mul_zero] at hdiv
      omega
    have hsplit : n - j = n % w + w - j + w * q := by
      rw [hq, Nat.mul_succ] at hdiv
      omega
    rw [hsplit, Nat.add_mul_mod_self_left, Nat.mod_eq_of_lt (by omega)]

theorem Tracks.getElem?_window (h : s.Tracks p past) {slot : Nat} (hslot : slot < p.window.toNat) :
    s.window[slot]?.map UInt64.toNat = some ((0 :: past).getD (s.age slot) 0) := by
  have hslot' : slot < s.window.length := by
    rw [h.valid.length_window]
    exact hslot
  have hage := age_lt h.valid.index_lt hslot'
  rw [h.valid.length_window] at hage
  rw [Controller.getElem?_window h.valid.index_lt hslot', h.recent, getElem?_lastBlocks _ hage]

theorem Tracks.eq_sub_mod_iff (h : s.Tracks p past) {slot j : Nat} (hslot : slot < p.window.toNat)
    (hj : j ≤ past.length) (hw : j < p.window.toNat) :
    slot = (past.length - j) % p.window.toNat ↔ s.age slot = j := by
  have hlt := Nat.mod_lt past.length (Nat.zero_lt_of_lt hw)
  rw [sub_mod_eq hj hw, age, h.index, h.valid.length_window]
  split <;> split <;> omega

theorem Tracks.slides {totals : List Nat} (hp : p.Valid) (h : s.Tracks p totals.reverse) :
    s.Slides p totals where
  index := by rw [h.index, List.length_reverse]
  cleared := h.cleared
  slot := by
    intro j hpos hj
    have hn : j ≤ totals.length := Nat.le_trans hj (Nat.min_le_left _ _)
    have hw : j < p.window.toNat := by
      have := hp.window_pos
      omega
    have hslot := Nat.mod_lt (totals.length - j) hp.window_pos
    have hage := (h.eq_sub_mod_iff hslot (by rwa [List.length_reverse]) hw).1
      (by rw [List.length_reverse])
    obtain ⟨k, rfl⟩ := Nat.exists_eq_succ_of_ne_zero (Nat.ne_of_gt hpos)
    have hk : k < totals.reverse.length := by
      rw [List.length_reverse]
      exact hn
    rw [h.getElem?_window hslot, hage, List.getD_cons_succ, List.getD_eq_getElem _ _ hk,
      ← List.getElem?_eq_getElem hk, List.getElem?_reverse (by rwa [List.length_reverse] at hk)]
    congr 1
    omega
  others := by
    intro i hi hother
    have hlength := h.valid.length_window
    have hage : s.age i < p.window.toNat := hlength ▸ age_lt h.valid.index_lt (hlength ▸ hi)
    -- a slot as far back as some block would be the slot of that block
    have hempty : (0 :: totals.reverse).getD (s.age i) 0 = 0 := by
      cases hj : s.age i with
      | zero => rfl
      | succ k =>
        rw [List.getD_cons_succ]
        apply List.getD_eq_default
        rw [List.length_reverse]
        by_contra hle
        have hn : k + 1 ≤ totals.length := Nat.lt_of_not_le hle
        rw [hj] at hage
        refine hother (k + 1) (Nat.succ_pos k) (Nat.le_min.2 ⟨hn, Nat.le_sub_one_of_lt hage⟩) ?_
        have hslot := (h.eq_sub_mod_iff hi (by rwa [List.length_reverse]) hage).2 hj
        rwa [List.length_reverse] at hslot
    have hslot := h.getElem?_window hi
    rw [hempty] at hslot
    obtain ⟨gas, hgas, hzero⟩ := Option.map_eq_some_iff.1 hslot
    rw [hgas, UInt64.toNat_inj.1 (hzero.trans UInt64.toNat_zero.symm)]
  seen := by
    intro gases recorded hrecorded
    have hrecent := h.recent_recorded hrecorded
    rw [List.reverse_append, List.reverse_singleton, List.singleton_append, ← hrecent]
    refine ⟨?_, recent_perm recorded⟩
    have hvalid := h.valid.recordAll hrecorded
    rw [currentGas_eq_headD hvalid.index_lt (by rw [hrecent, hvalid.length_window]),
      List.headD_cons]

/-- From a fresh controller, blocks of any transactions leave their totals in the ring, and the fees
and rates that close them are those of the recurrence over the plain list of totals. -/
theorem slides_of_play (hp : p.Valid) {blocks : List (List UInt64)} {updates : List BlockUpdate}
    (hplay : (new p).play p blocks = .ok (last, updates)) :
    last.Slides p (blocks.map blockGas) ∧
      updates.map BlockUpdate.quote =
        Quote.trajectory p [] (Quote.start p) (blocks.map blockGas) := by
  obtain ⟨htracks, hquotes⟩ := (tracks_new hp).play hp hplay
  rw [List.append_nil] at htracks
  exact ⟨htracks.slides hp, hquotes⟩

theorem slides_of_play_wrapping : ∃ p last updates, p.Valid ∧ p.window = 2 ∧
    (new p).play p [[21000, 5], [], [30000000], [1]] = .ok (last, updates) ∧
    last.Slides p [21005, 0, 30000000, 1] ∧
    updates.map BlockUpdate.quote =
      Quote.trajectory p [] (Quote.start p) [21005, 0, 30000000, 1] := by
  have hp : ({ Params.aimd with window := 2 } : Params).Valid :=
    Params.validate_eq_ok_iff.1 (by decide)
  obtain ⟨⟨last, updates⟩, hplay⟩ : ∃ r, (new { Params.aimd with window := 2 }).play
      { Params.aimd with window := 2 } [[21000, 5], [], [30000000], [1]] = .ok r := ⟨_, rfl⟩
  exact ⟨_, last, updates, hp, rfl, hplay, slides_of_play hp hplay⟩

end Controller

end GasMarket
