import GasMarket.Codec.Genesis
import GasMarket.Proofs.Codec.Money

namespace GasMarket

open Codec Json

def Params.decimals (p : Params) : List Decimal :=
  [p.alpha, p.beta, p.theta, p.delta, p.minBaseFee, p.minLearningRate, p.maxLearningRate]

def Controller.decimals (s : Controller) : List Decimal := [s.baseFee, s.minBaseFee, s.learningRate]

def BlockUpdate.decimals (u : BlockUpdate) : List Decimal := [u.baseFee, u.learningRate]

def Genesis.decimals (g : Genesis) : List Decimal := g.params.decimals ++ g.state.decimals

theorem Codec.faithful_calibration (c : Calibration) : Faithful c where
  decode_encode := by
    change (Escape.decode (Escape.encode c.name)).bind Calibration.ofName? = some c
    rw [Escape.decode_encode, Option.bind_some, Calibration.ofName?_name]
  plain := plain_string_encode c.name

theorem Codec.faithful_of_mem {decimals : List Decimal}
    (h : ∀ d ∈ decimals, -Decimal.bound < d.units) : ∀ d ∈ decimals, Faithful d :=
  fun d hd => faithful_decimal (h d hd)

theorem Params.faithful {p : Params} (h : ∀ d ∈ p.decimals, -Decimal.bound < d.units) :
    Faithful p := by
  have hdecimals := faithful_of_mem h
  simp only [decimals, List.forall_mem_cons] at hdecimals
  obtain ⟨halpha, hbeta, htheta, hdelta, hfee, hminRate, hmaxRate, -⟩ := hdecimals
  refine faithful_record rfl (fun _ => rfl) rfl (by decide) ?_ ?_
  · simp only [List.map_cons, List.map_nil, (faithful_word _).required,
      (faithful_string _).required, (faithful_bool _).required, halpha.required, hbeta.required,
      htheta.required, hdelta.required, hfee.required, hminRate.required, hmaxRate.required]
    rfl
  · simp only [List.forall_mem_cons, (faithful_word _).plain, (faithful_string _).plain,
      (faithful_bool _).plain, halpha.plain, hbeta.plain, htheta.plain, hdelta.plain, hfee.plain,
      hminRate.plain, hmaxRate.plain, true_and]
    exact List.forall_mem_nil _

theorem Controller.faithful {s : Controller} (h : ∀ d ∈ s.decimals, -Decimal.bound < d.units) :
    Faithful s := by
  have hdecimals := faithful_of_mem h
  simp only [decimals, List.forall_mem_cons] at hdecimals
  obtain ⟨hbaseFee, hfloor, hrate, -⟩ := hdecimals
  have hwindow : Faithful s.window := faithful_list fun gas _ => faithful_word gas
  refine faithful_record rfl (fun _ => rfl) rfl (by decide) ?_ ?_
  · simp only [List.map_cons, List.map_nil, (faithful_word _).required, hwindow.required,
      hbaseFee.required, hfloor.required, hrate.required]
    rfl
  · simp only [List.forall_mem_cons, (faithful_word _).plain, hwindow.plain, hbaseFee.plain,
      hfloor.plain, hrate.plain, true_and]
    exact List.forall_mem_nil _

theorem BlockUpdate.faithful {u : BlockUpdate} (h : ∀ d ∈ u.decimals, -Decimal.bound < d.units) :
    Faithful u := by
  have hdecimals := faithful_of_mem h
  simp only [decimals, List.forall_mem_cons] at hdecimals
  obtain ⟨hbaseFee, hrate, -⟩ := hdecimals
  refine faithful_record rfl (fun _ => rfl) rfl (by decide) ?_ ?_
  · simp only [List.map_cons, List.map_nil, (faithful_word _).required, hbaseFee.required,
      hrate.required]
    rfl
  · simp only [List.forall_mem_cons, (faithful_word _).plain, hbaseFee.plain, hrate.plain, true_and]
    exact List.forall_mem_nil _

theorem Config.faithful (c : Config) : Faithful c := by
  refine faithful_record rfl (fun _ => rfl) rfl (by decide) ?_ ?_
  · simp only [List.map_cons, List.map_nil, (faithful_address _).required,
      (faithful_string _).required, (faithful_calibration _).required, (faithful_word _).required]
    rfl
  · simp only [List.forall_mem_cons, (faithful_address _).plain, (faithful_string _).plain,
      (faithful_calibration _).plain, (faithful_word _).plain, true_and]
    exact List.forall_mem_nil _

theorem Params.ofText_toText {p : Params} (h : ∀ d ∈ p.decimals, -Decimal.bound < d.units) :
    ofText (toText p) = some p := (faithful h).parse

theorem Controller.ofText_toText {s : Controller} (h : ∀ d ∈ s.decimals, -Decimal.bound < d.units) :
    ofText (toText s) = some s := (faithful h).parse

theorem Genesis.faithful {g : Genesis} (hparams : ∀ d ∈ g.params.decimals, -Decimal.bound < d.units)
    (hstate : ∀ d ∈ g.state.decimals, -Decimal.bound < d.units) : Faithful g := by
  have hparams := Params.faithful hparams
  have hstate := Controller.faithful hstate
  refine faithful_record rfl (fun _ => rfl) rfl (by decide) ?_ ?_
  · simp only [List.map_cons, List.map_nil, hparams.required, hstate.required]
    rfl
  · simp only [List.forall_mem_cons, hparams.plain, hstate.plain, true_and]
    exact List.forall_mem_nil _

theorem Genesis.ofText_toText {g : Genesis} (h : Faithful g) : ofText g.toText = some g := by
  change (parse? (encode g).pretty).bind decode = some g
  rw [parse?_pretty h.plain]
  exact h.decode_encode

theorem Params.lt_of_decode {v : Json} {p : Params} (h : decode v = some p) :
    ∀ d ∈ p.decimals, -Decimal.bound < d.units := by
  obtain ⟨fields, -, h⟩ := Option.bind_eq_some_iff.1 h
  split at h
  · obtain ⟨_, -, h⟩ := Option.bind_eq_some_iff.1 h
    obtain ⟨_, halpha, h⟩ := Option.bind_eq_some_iff.1 h
    obtain ⟨_, hbeta, h⟩ := Option.bind_eq_some_iff.1 h
    obtain ⟨_, htheta, h⟩ := Option.bind_eq_some_iff.1 h
    obtain ⟨_, hdelta, h⟩ := Option.bind_eq_some_iff.1 h
    obtain ⟨_, -, h⟩ := Option.bind_eq_some_iff.1 h
    obtain ⟨_, -, h⟩ := Option.bind_eq_some_iff.1 h
    obtain ⟨_, hfee, h⟩ := Option.bind_eq_some_iff.1 h
    obtain ⟨_, hminRate, h⟩ := Option.bind_eq_some_iff.1 h
    obtain ⟨_, hmaxRate, h⟩ := Option.bind_eq_some_iff.1 h
    obtain ⟨_, -, h⟩ := Option.bind_eq_some_iff.1 h
    obtain ⟨_, -, h⟩ := Option.bind_eq_some_iff.1 h
    obtain ⟨_, -, h⟩ := Option.bind_eq_some_iff.1 h
    cases h
    simp only [decimals, List.forall_mem_cons]
    exact ⟨lt_of_required halpha, lt_of_required hbeta, lt_of_required htheta,
      lt_of_required hdelta, lt_of_required hfee, lt_of_required hminRate, lt_of_required hmaxRate,
      List.forall_mem_nil _⟩
  · cases h

theorem Controller.lt_of_decode {v : Json} {s : Controller} (h : decode v = some s) :
    ∀ d ∈ s.decimals, -Decimal.bound < d.units := by
  obtain ⟨fields, -, h⟩ := Option.bind_eq_some_iff.1 h
  split at h
  · obtain ⟨_, -, h⟩ := Option.bind_eq_some_iff.1 h
    obtain ⟨_, -, h⟩ := Option.bind_eq_some_iff.1 h
    obtain ⟨_, hbaseFee, h⟩ := Option.bind_eq_some_iff.1 h
    obtain ⟨_, hfloor, h⟩ := Option.bind_eq_some_iff.1 h
    obtain ⟨_, hrate, h⟩ := Option.bind_eq_some_iff.1 h
    obtain ⟨_, -, h⟩ := Option.bind_eq_some_iff.1 h
    obtain ⟨_, -, h⟩ := Option.bind_eq_some_iff.1 h
    cases h
    simp only [decimals, List.forall_mem_cons]
    exact ⟨lt_of_required hbaseFee, lt_of_required hfloor, lt_of_required hrate,
      List.forall_mem_nil _⟩
  · cases h

theorem BlockUpdate.lt_of_decode {v : Json} {u : BlockUpdate} (h : decode v = some u) :
    ∀ d ∈ u.decimals, -Decimal.bound < d.units := by
  obtain ⟨fields, -, h⟩ := Option.bind_eq_some_iff.1 h
  split at h
  · obtain ⟨_, -, h⟩ := Option.bind_eq_some_iff.1 h
    obtain ⟨_, hbaseFee, h⟩ := Option.bind_eq_some_iff.1 h
    obtain ⟨_, hrate, h⟩ := Option.bind_eq_some_iff.1 h
    cases h
    simp only [decimals, List.forall_mem_cons]
    exact ⟨lt_of_required hbaseFee, lt_of_required hrate, List.forall_mem_nil _⟩
  · cases h

theorem Genesis.lt_of_decode {v : Json} {g : Genesis} (h : decode v = some g) :
    (∀ d ∈ g.params.decimals, -Decimal.bound < d.units) ∧
      ∀ d ∈ g.state.decimals, -Decimal.bound < d.units := by
  obtain ⟨fields, -, h⟩ := Option.bind_eq_some_iff.1 h
  split at h
  · obtain ⟨_, hparams, h⟩ := Option.bind_eq_some_iff.1 h
    obtain ⟨_, hstate, h⟩ := Option.bind_eq_some_iff.1 h
    cases h
    obtain ⟨_, -, hparams⟩ := Option.bind_eq_some_iff.1 hparams
    obtain ⟨_, -, hstate⟩ := Option.bind_eq_some_iff.1 hstate
    exact ⟨Params.lt_of_decode hparams, Controller.lt_of_decode hstate⟩
  · cases h

end GasMarket
