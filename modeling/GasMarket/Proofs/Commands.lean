import GasMarket.Market.Command
import GasMarket.Proofs.Run
import GasMarket.Proofs.Success

namespace GasMarket

namespace Controller

theorem isFatal_of_updateLearningRate {p : Params} {s : Controller} {e : Error}
    (h : s.updateLearningRate p = .error e) : e.isFatal := by
  unfold updateLearningRate at h
  split at h
  · cases h
  · cases h
    rfl

theorem isFatal_of_updateBaseFee {p : Params} {s : Controller} {e : Error}
    (h : s.updateBaseFee p = .error e) : e.isFatal := by
  unfold updateBaseFee at h
  split at h
  · cases h
  · cases h
    rfl

theorem isFatal_of_advance {s : Controller} {e : Error} (h : s.advance = .error e) : e.isFatal := by
  unfold advance at h
  split at h
  · cases h
    rfl
  · cases h

theorem isFatal_of_nextBlock {p : Params} {s : Controller} {e : Error}
    (h : s.nextBlock p = .error e) : e.isFatal := by
  obtain hrate | ⟨rated, -, h⟩ := bind_eq_error_iff.1 h
  · exact isFatal_of_updateLearningRate hrate
  · obtain hfee | ⟨priced, -, h⟩ := bind_eq_error_iff.1 h
    · exact isFatal_of_updateBaseFee hfee
    · obtain hring | ⟨next, -, h⟩ := bind_eq_error_iff.1 h
      · exact isFatal_of_advance hring
      · cases h

end Controller

theorem Params.not_isFatal_of_validateUnder {p : Params} {cap : Option UInt64} {e : Error}
    (h : p.validateUnder cap = .error e) : e.isFatal = false := by
  obtain hinvalid | ⟨-, -, hcap⟩ := bind_eq_error_iff.1 h
  · unfold validate at hinvalid
    split at hinvalid
    · cases hinvalid
      rfl
    · cases hinvalid
  · split at hcap
    · split at hcap
      · cases hcap
        rfl
      · cases hcap
    · cases hcap

namespace Market

def handleAll (m : Market) (commands : List Command) : Market :=
  commands.foldl (fun m command => (m.handle command).state) m

def Halts (m : Market) (command : Command) (e : Error) : Prop :=
  (m.handle command).result = .error e ∧ e.isFatal

def Endures (m : Market) : List Command → Prop
  | [] => True
  | command :: rest => (∀ e, ¬ m.Halts command e) ∧ (m.handle command).state.Endures rest

def Rejects (m : Market) : Command → Prop
  | .updateParams authority p =>
    authority ≠ m.config.authority ∨ (p.validateUnder m.gasCap).isOk = false
  | _ => False

instance (m : Market) : DecidablePred m.Rejects
  | .updateParams _ _ => inferInstanceAs (Decidable (_ ∨ _))
  | .beginBlock _ => inferInstanceAs (Decidable False)
  | .endBlock _ => inferInstanceAs (Decidable False)

/-- The commands up to the first that ends the run, which is one of them. -/
def handled (m : Market) : List Command → List Command
  | [] => []
  | command :: rest =>
    match (m.handle command).result with
    | .ok () => command :: (m.handle command).state.handled rest
    | .error e =>
      if e.isFatal then [command] else command :: (m.handle command).state.handled rest

variable {m : Market} {command : Command} {commands : List Command}

theorem result_handle_endBlock (m : Market) (height : UInt64) :
    (m.handle (.endBlock height)).result = (m.endBlock height).result.map fun _ => () := by
  unfold handle Outcome.andThen
  cases h : (m.endBlock height).result with
  | ok update => simp only [h]; rfl
  | error e => simp only [h]; rfl

theorem isFatal_of_endBlock {height : UInt64} {e : Error}
    (h : (m.endBlock height).result = .error e) : e.isFatal := by
  rw [endBlock_eq] at h
  split at h
  · cases h
  · split at h
    · next hnext =>
      cases h
      exact Controller.isFatal_of_nextBlock hnext
    · cases h

theorem handle_cases (m : Market) (command : Command) :
    (m.Rejects command ∧ ∃ e, m.handle command = .failed m e ∧ e.isFatal = false) ∨
      ¬ m.Rejects command ∧ ((m.handle command).result = .ok () ∨ ∃ e, m.Halts command e) := by
  cases command with
  | beginBlock height => exact .inr ⟨id, .inl rfl⟩
  | endBlock height =>
    refine .inr ⟨id, ?_⟩
    unfold Halts
    rw [result_handle_endBlock]
    cases hresult : (m.endBlock height).result with
    | ok update => exact .inl rfl
    | error e => exact .inr ⟨e, rfl, isFatal_of_endBlock hresult⟩
  | updateParams authority p =>
    have hhandle : m.handle (.updateParams authority p) = m.updateParams authority p := rfl
    rw [hhandle, updateParams]
    simp only [Rejects]
    by_cases ha : authority = m.config.authority
    · have hsame : ¬ authority ≠ m.config.authority := not_not_intro ha
      rw [if_neg hsame]
      cases hp : p.validateUnder m.gasCap with
      | ok u => exact .inr ⟨fun h => h.elim hsame nofun, .inl rfl⟩
      | error e => exact .inl ⟨.inr rfl, e, rfl, Params.not_isFatal_of_validateUnder hp⟩
    · exact .inl ⟨.inl ha, _, if_pos ha, rfl⟩

theorem settings_handle (m : Market) (command : Command) :
    (m.handle command).state.settings = m.settings := by
  cases command with
  | beginBlock height => rfl
  | endBlock height =>
    rw [handle, Outcome.state_andThen_done]
    exact settings_perform m (.endBlock height)
  | updateParams authority p => exact settings_perform m (.updateParams authority p)

theorem rejects_handle_iff (m : Market) (command other : Command) :
    (m.handle command).state.Rejects other ↔ m.Rejects other := by
  have hsettings := settings_handle m command
  cases other with
  | updateParams authority p =>
    have hconfig : (m.handle command).state.config = m.config := congrArg Prod.fst hsettings
    have hcap : (m.handle command).state.gasCap = m.gasCap := congrArg (·.2.2) hsettings
    unfold Rejects
    rw [hconfig, hcap]
  | beginBlock height | endBlock height => exact Iff.rfl

theorem rejects_handleAll_iff (m : Market) (before : List Command) (command : Command) :
    (m.handleAll before).Rejects command ↔ m.Rejects command := by
  induction before generalizing m with
  | nil => exact Iff.rfl
  | cons first before ih => exact (ih _).trans (rejects_handle_iff m first command)

theorem rejects_iff (m : Market) (command : Command) :
    m.Rejects command ↔ ∃ e, (m.handle command).result = .error e ∧ e.isFatal = false := by
  obtain ⟨hrejects, e, he, hmild⟩ | ⟨hrejects, hok | ⟨e, he, hfatal⟩⟩ := handle_cases m command
  · exact iff_of_true hrejects ⟨e, congrArg Outcome.result he, hmild⟩
  · refine iff_of_false hrejects ?_
    rintro ⟨e, he, -⟩
    cases hok.symm.trans he
  · refine iff_of_false hrejects ?_
    rintro ⟨e', he', hmild⟩
    cases he.symm.trans he'
    cases hfatal.symm.trans hmild

section Loop

variable {rest : List Command} {e : Error}

theorem not_isFatal_of_not_halts (h : ∀ e, ¬ m.Halts command e)
    (he : (m.handle command).result = .error e) : e.isFatal = false :=
  Bool.eq_false_iff.2 fun hfatal => h e ⟨he, hfatal⟩

theorem run_cons_of_not_halts (h : ∀ e, ¬ m.Halts command e) :
    m.run (command :: rest) = (m.handle command).state.run rest := by
  rw [run]
  cases hresult : (m.handle command).result with
  | ok u => rfl
  | error e => simp only [not_isFatal_of_not_halts h hresult, Bool.false_eq_true, if_false]

theorem handled_cons_of_not_halts (h : ∀ e, ¬ m.Halts command e) :
    m.handled (command :: rest) = command :: (m.handle command).state.handled rest := by
  rw [handled]
  cases hresult : (m.handle command).result with
  | ok u => rfl
  | error e => simp only [not_isFatal_of_not_halts h hresult, Bool.false_eq_true, if_false]

theorem run_cons_of_halts (h : m.Halts command e) :
    m.run (command :: rest) = .failed (m.handle command).state e := by
  obtain ⟨hresult, hfatal⟩ := h
  rw [run]
  simp only [hresult, hfatal, if_true]
  exact congrArg (Outcome.mk · (m.handle command).state) hresult

theorem handled_cons_of_halts (h : m.Halts command e) :
    m.handled (command :: rest) = [command] := by
  rw [handled, h.1]
  exact if_pos h.2

theorem not_halts_of_rejects (h : m.Rejects command) (e : Error) : ¬ m.Halts command e := by
  rintro ⟨he, hfatal⟩
  obtain ⟨e', he', hmild⟩ := (rejects_iff m command).1 h
  cases he.symm.trans he'
  cases hfatal.symm.trans hmild

theorem state_handle_of_rejects (h : m.Rejects command) : (m.handle command).state = m := by
  obtain ⟨-, e, he, -⟩ | ⟨hnot, -⟩ := handle_cases m command
  · exact congrArg Outcome.state he
  · exact absurd h hnot

theorem run_of_endures (h : m.Endures commands) :
    m.run commands = .done (m.handleAll commands) () ∧ m.handled commands = commands := by
  induction commands generalizing m with
  | nil => exact ⟨rfl, rfl⟩
  | cons command rest ih =>
    obtain ⟨hrun, hhandled⟩ := ih h.2
    rw [run_cons_of_not_halts h.1, handled_cons_of_not_halts h.1, hhandled]
    exact ⟨hrun, rfl⟩

theorem run_of_not_endures (h : ¬ m.Endures commands) : ∃ before command rest e,
    commands = before ++ command :: rest ∧ m.Endures before ∧ (m.handleAll before).Halts command e ∧
      m.run commands = .failed (m.handleAll (before ++ [command])) e ∧
      m.handled commands = before ++ [command] := by
  induction commands generalizing m with
  | nil => exact absurd trivial h
  | cons first rest ih =>
    by_cases hfirst : ∃ e, m.Halts first e
    · obtain ⟨e, he⟩ := hfirst
      exact ⟨[], first, rest, e, rfl, trivial, he, run_cons_of_halts he, handled_cons_of_halts he⟩
    · have hgoes : ∀ e, ¬ m.Halts first e := not_exists.1 hfirst
      obtain ⟨before, command, last, e, rfl, hbefore, he, hrun, hhandled⟩ :=
        ih fun hrest => h ⟨hgoes, hrest⟩
      refine ⟨first :: before, command, last, e, rfl, ⟨hgoes, hbefore⟩, he, ?_, ?_⟩
      · rw [run_cons_of_not_halts hgoes, hrun]
        rfl
      · rw [handled_cons_of_not_halts hgoes, hhandled]
        rfl

theorem state_run (m : Market) (commands : List Command) :
    (m.run commands).state = m.handleAll (m.handled commands) := by
  by_cases h : m.Endures commands
  · rw [(run_of_endures h).1, (run_of_endures h).2]
    rfl
  · obtain ⟨before, command, rest, e, -, -, -, hrun, hhandled⟩ := run_of_not_endures h
    rw [hrun, hhandled]
    rfl

theorem run_filter (m : Market) (commands : List Command) :
    m.run (commands.filter fun command => ¬ m.Rejects command) = m.run commands := by
  induction commands generalizing m with
  | nil => rfl
  | cons command rest ih =>
    by_cases hrejects : m.Rejects command
    · rw [List.filter_cons_of_neg (by simpa using hrejects), ih,
        run_cons_of_not_halts (not_halts_of_rejects hrejects), state_handle_of_rejects hrejects]
    · rw [List.filter_cons_of_pos (by simpa using hrejects)]
      by_cases hhalts : ∃ e, m.Halts command e
      · obtain ⟨e, he⟩ := hhalts
        rw [run_cons_of_halts he, run_cons_of_halts he]
      · have hgoes : ∀ e, ¬ m.Halts command e := not_exists.1 hhalts
        rw [run_cons_of_not_halts hgoes, run_cons_of_not_halts hgoes, ← ih]
        simp only [rejects_handle_iff]

theorem params_handle (h : ∀ p, command ≠ .updateParams m.config.authority p) :
    (m.handle command).state.params = m.params := by
  cases command with
  | beginBlock height => rfl
  | endBlock height =>
    rw [handle, Outcome.state_andThen_done]
    obtain ⟨e, he⟩ | ⟨-, he⟩ | ⟨s, update, -, he⟩ := endBlock_cases m height
    · rw [he]; rfl
    · rw [he]; rfl
    · rw [he]; rfl
  | updateParams authority p =>
    have hother : authority ≠ m.config.authority := fun hsame => h p (hsame ▸ rfl)
    have hrejects : m.Rejects (.updateParams authority p) := Or.inl hother
    rw [state_handle_of_rejects hrejects]

theorem params_handleAll
    (h : ∀ command ∈ commands, ∀ p, command ≠ .updateParams m.config.authority p) :
    (m.handleAll commands).params = m.params := by
  induction commands generalizing m with
  | nil => rfl
  | cons command rest ih =>
    obtain ⟨hcommand, hrest⟩ := List.forall_mem_cons.1 h
    have hconfig : (m.handle command).state.config = m.config :=
      congrArg Prod.fst (settings_handle m command)
    rw [← hconfig] at hrest
    exact (ih hrest).trans (params_handle hcommand)

end Loop

/-- A run is the handling of all commands in order, up to the first fatal error if there is one,
which it returns.  However many of the rejected commands are taken out, it comes to the same; and
the params stay unless a command that was handled is from the authority. -/
theorem run_eq_handleAll (m : Market) (commands : List Command) :
    (m.Endures commands →
      m.run commands = .done (m.handleAll commands) () ∧ m.handled commands = commands) ∧
    (¬ m.Endures commands → ∃ before command rest e, commands = before ++ command :: rest ∧
      m.Endures before ∧ (m.handleAll before).Halts command e ∧
      m.run commands = .failed (m.handleAll (before ++ [command])) e ∧
      m.handled commands = before ++ [command]) ∧
    (∀ before command, m.Rejects command ↔
      ∃ e, ((m.handleAll before).handle command).result = .error e ∧ e.isFatal = false) ∧
    (∀ kept, (kept.filter fun command => ¬ m.Rejects command) =
      (commands.filter fun command => ¬ m.Rejects command) → m.run kept = m.run commands) ∧
    ((∀ command ∈ m.handled commands, ∀ p, command ≠ .updateParams m.config.authority p) →
      (m.run commands).state.params = m.params) := by
  refine ⟨run_of_endures, run_of_not_endures, ?_, ?_, ?_⟩
  · intro before command
    rw [← rejects_handleAll_iff m before command]
    exact rejects_iff _ command
  · intro kept hkept
    rw [← run_filter m kept, hkept, run_filter]
  · intro hothers
    rw [state_run]
    exact params_handleAll hothers

theorem run_eq_handleAll_halted : ∃ start, new .default = .ok start ∧
    let m := { start with state.targetGas := 0 }
    let commands : List Command :=
      [.beginBlock 1, .updateParams ⟨0xaa⟩ .aimd, .endBlock 1, .beginBlock 2]
    m.run [.beginBlock 1, .endBlock 1, .beginBlock 2] = m.run commands ∧
      (∃ e, (m.run commands).result = .error e ∧ e.isFatal) ∧
      (m.run commands).state.height = 1 ∧ (m.run commands).state.params = m.params := by
  refine ⟨_, rfl, ?_⟩
  intro m commands
  obtain ⟨hall, hhalted, -, hkept, hparams⟩ := run_eq_handleAll m commands
  have hfailed : (m.run commands).result.toOption = none := by decide +kernel
  refine ⟨hkept _ (by decide +kernel), ?_, by decide +kernel, hparams ?_⟩
  · by_cases hendures : m.Endures commands
    · rw [(hall hendures).1] at hfailed
      cases hfailed
    · obtain ⟨before, command, rest, e, -, -, ⟨-, hfatal⟩, hrun, -⟩ := hhalted hendures
      exact ⟨e, by rw [hrun]; rfl, hfatal⟩
  · have hhandled : m.handled commands = commands.take 3 := by decide +kernel
    have hauthority : ⟨0xaa⟩ ≠ m.config.authority := by decide +kernel
    rw [hhandled]
    simpa [commands] using hauthority

end Market

end GasMarket
