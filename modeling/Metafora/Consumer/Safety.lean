import Metafora.Consumer.Invariant

/-! # What every run of the consumer guarantees

The consumer's contract, over every interleaving of its goroutines (spec §3, §4.1, §8):

* `claim_finished_once`: a successful `Claim` is followed by at most one `Done`/`Release` of
  its own, of the kind the handler's result asks for, and by exactly one once the arrival is
  settled and its `Run` was started; `claimed` drops the others (closed `c.stop`, an ID
  already running) without either call.
* `run_calls_exclusive`: two `Run` calls for one task ID never overlap, and every `Run` follows
  its arrival's three admission checks.
* `stop_closes_admission`: after `c.stop` closes nothing enters `c.running`, every entry
  belongs to a live handler goroutine, and after `Shutdown()` returns `c.running` is empty
  for good.
* `claim_unfrozen`: the main loop never calls `Claim` while frozen; `balance_called_while_frozen`
  is a run in which it calls `Balance` while frozen, through the `run_balance` command.
-/

namespace Metafora
set_option autoImplicit false

/-! ## What the log says about one arrival -/

/-- The calls logged for any arrival are those of a stage of its life, settled when no
goroutine holds it. -/
theorem Consumer.Inv.stage {s : Consumer} (hi : s.Inv) {k : Nat} (hk : k < s.arrivals) :
    ∃ (id : String) (st : Stage), trace s.log k = st.events k id ∧
      (s.Settled k → st.settled = true) := by
  by_cases hm : ∃ c ∈ s.main.current, c.2.1 = k
  · obtain ⟨⟨t, k', st⟩, hc, rfl⟩ := hm
    exact ⟨t.id, st, (hi.mainHolds t k' st hc).life, fun hs => absurd rfl (hs.1 _ hc)⟩
  · by_cases hh : k ∈ s.serials
    · obtain ⟨h, hmem, rfl⟩ := List.mem_map.mp hh
      exact ⟨h.task.id, .admitted h.pc, hi.life_handler h hmem, fun hs => absurd hh hs.2⟩
    · push_neg at hm
      obtain ⟨id, st, hst, htr⟩ := hi.life_settled k hk ⟨hm, hh⟩
      exact ⟨id, st, htr, fun _ => hst⟩

theorem Consumer.Inv.lt_of_mem {s : Consumer} (hi : s.Inv) {e : Event} {k : Nat}
    (hmem : e ∈ s.log) (he : e.serial = some k) : k < s.arrivals := by
  by_contra hk
  have := hi.life_fresh k (not_lt.mp hk)
  rw [← mem_trace e he, this] at hmem
  cases hmem

theorem finishes_trace (log : List Event) (k : Nat) :
    finishes k (trace log k) = finishes k log := by
  simp only [finishes, trace, List.filter_filter]
  congr 1
  funext e
  cases e <;> simp [Event.finishes, Event.serial, eq_comm]

theorem Stage.claim_id {k : Nat} {id id' : String} {st : Stage}
    (h : Event.claim k id' true ∈ st.events k id) : id' = id := by
  rcases st with _ | _ | _ | _ | _ | _ | _ | _ | (_ | _ | _ | _ | _) | r <;>
    simp_all [Stage.events, claimedEvents, finish] <;> split at h <;> simp_all

theorem Stage.runStart_id {k : Nat} {id id' : String} {st : Stage}
    (h : Event.runStart k id' ∈ st.events k id) : id' = id := by
  rcases st with _ | _ | _ | _ | _ | _ | _ | _ | (_ | _ | _ | _ | _) | r <;>
    simp_all [Stage.events, claimedEvents, finish] <;> split at h <;> simp_all

/-! ## Claims, `Run` calls, `Done` and `Release` -/

/-- The task `t1` with no properties. -/
def t1 : Task := ⟨"t1", Props.empty⟩

/-- After `Run()`, task `t1` arrived and its `Claim` won; `claimed` is next. -/
def claimedT1 : Consumer :=
  { Consumer.init with
    main := .claimed t1 0, watching := true, polling := true, arrivals := 1,
    log := claimedEvents 0 "t1" }

theorem claimedT1_reachable : Reachable claimedT1 :=
  Reachable.init.reach (runSteps_reach (rfl : runSteps Consumer.init
    [.run, .recvTask t1, .checkIgnored 0, .canClaim true 0, .claim true] = some claimedT1))

/-- Two handler goroutines inside `Run` at once run tasks with distinct IDs, and every `Run`
was started for an arrival the ignore manager let through, `CanClaim` accepted and `Claim`
won, in that order. -/
theorem run_calls_exclusive {s : Consumer} (hs : Reachable s) :
    (∀ h₁ ∈ s.handlers, ∀ h₂ ∈ s.handlers, h₁.pc = .running → h₂.pc = .running →
      h₁.task.id = h₂.task.id → h₁ = h₂) ∧
    (∀ k id, Event.runStart k id ∈ s.log → List.Sublist
      [.ignored k id false, .canClaim k id true, .claim k id true, .runStart k id] s.log) := by
  have hi := hs.inv
  refine ⟨fun h₁ hh₁ h₂ hh₂ hr₁ hr₂ hid => ?_, fun k id hr => ?_⟩
  · have e₁ := (hi.running _ _).mpr ⟨h₁, hh₁, rfl, rfl, by rw [hr₁]; rfl⟩
    have e₂ := (hi.running _ _).mpr ⟨h₂, hh₂, rfl, hid.symm, by rw [hr₂]; rfl⟩
    exact List.inj_on_of_nodup_map hi.nodup hh₁ hh₂ (Option.some.inj (e₁.symm.trans e₂))
  · obtain ⟨id₀, st, htr, -⟩ := hi.stage (hi.lt_of_mem hr rfl)
    have hmem : Event.runStart k id ∈ st.events k id₀ := htr ▸ (mem_trace (.runStart k id) rfl).mpr hr
    obtain rfl := Stage.runStart_id hmem
    exact (admission_sublist k id st hmem).trans (htr ▸ List.filter_sublist _)

/-- After `claimedT1`, `claimed` admitted `t1` and its handler entered `Run`. -/
def runningT1 : Consumer :=
  { Consumer.init with
    running := AList.insert "t1" 0 ∅, handlers := [⟨0, t1, 0, .running⟩], hwg := 1,
    main := .loop, watching := true, polling := true, arrivals := 1,
    log := claimedEvents 0 "t1" ++ [.runStart 0 "t1"] }

theorem runningT1_reachable : Reachable runningT1 :=
  claimedT1_reachable.reach (runSteps_reach
    (rfl : runSteps claimedT1 [.start 0, .handlerRun 0] = some runningT1))

theorem run_calls_exclusive_runningT1 :
    Reachable runningT1 ∧
    (∀ h₁ ∈ runningT1.handlers, ∀ h₂ ∈ runningT1.handlers, h₁.pc = .running →
      h₂.pc = .running → h₁.task.id = h₂.task.id → h₁ = h₂) ∧
    (∀ k id, Event.runStart k id ∈ runningT1.log → List.Sublist
      [.ignored k id false, .canClaim k id true, .claim k id true, .runStart k id]
      runningT1.log) :=
  ⟨runningT1_reachable, run_calls_exclusive runningT1_reachable⟩

/-! ## Shutdown -/

theorem Consumer.Inv.running_empty {s : Consumer} (hi : s.Inv) (h : s.handlers = []) :
    s.running = ∅ := by
  apply AList.ext
  cases he : s.running.entries with
  | nil => rfl
  | cons e es =>
    have hmem : e.1 ∈ s.running := AList.mem_keys.mpr (by simp [AList.keys, he])
    obtain ⟨k, hk⟩ := Option.isSome_iff_exists.mp (AList.lookup_isSome.mpr hmem)
    obtain ⟨h', hh, -⟩ := (hi.running _ k).mp hk
    rw [h] at hh
    cases hh

/-- What one step can do to `c.stop`, `c.running` and the returned `Shutdown()` calls. -/
structure StepFrame (s s' : Consumer) : Prop where
  stop : s.stop = true → s'.stop = true
  running : s'.running = s.running ∨ (∃ id, s'.running = s.running.erase id) ∨
    (s.stop = false ∧ ∃ id k, s'.running = s.running.insert id k)
  returned : ShutdownPc.returned ∈ s.shutdowns → ShutdownPc.returned ∈ s'.shutdowns

theorem StepFrame.same {s s' : Consumer} (h₁ : s.stop = true → s'.stop = true)
    (h₂ : s'.running = s.running) (h₃ : s'.shutdowns = s.shutdowns) : StepFrame s s' :=
  ⟨h₁, .inl h₂, fun h => h₃ ▸ h⟩

theorem handleCommand_frame (s : Consumer) (c : Command) (ids : List String) :
    StepFrame s (s.handleCommand c ids) := by
  unfold Consumer.handleCommand
  split_ifs <;> try split
  all_goals exact StepFrame.same id rfl rfl

theorem claimed_frame (s : Consumer) (t : Task) (k now : Nat) :
    StepFrame s (s.claimed t k now) := by
  unfold Consumer.claimed
  split_ifs with hstop
  · exact StepFrame.same id rfl rfl
  · exact StepFrame.same id rfl rfl
  · exact ⟨id, .inr (.inr ⟨by simpa using hstop, _, _, rfl⟩), id⟩

theorem returned_mem_set {l : List ShutdownPc} {i : Nat} {p q : ShutdownPc}
    (hi : l[i]? = some p) (hp : p ≠ .returned) (h : ShutdownPc.returned ∈ l) :
    ShutdownPc.returned ∈ l.set i q := by
  obtain ⟨j, hj⟩ := List.mem_iff_getElem?.mp h
  have hij : i ≠ j := fun he => hp (Option.some.inj (hi.symm.trans (he ▸ hj)))
  exact List.mem_iff_getElem?.mpr ⟨j, by rw [List.getElem?_set_ne hij]; exact hj⟩

theorem step_frame {s s' : Consumer} {a : Action} (h : step s a = some s') : StepFrame s s' := by
  cases a <;> simp only [step] at h
  case shutdown => cases h; exact ⟨id, .inl rfl, fun h => List.mem_append_left _ h⟩
  case shutdownStep i =>
    split at h
    · cases h; exact ⟨fun _ => rfl, .inl rfl, returned_mem_set ‹_› (by simp)⟩
    · split_ifs at h; cases h; exact ⟨id, .inl rfl, returned_mem_set ‹_› (by simp)⟩
    · split_ifs at h; cases h; exact ⟨id, .inl rfl, returned_mem_set ‹_› (by simp)⟩
    · cases h
  case watcherExit => split_ifs at h; cases h; exact StepFrame.same (fun _ => rfl) rfl rfl
  case recvCommand c ids => split_ifs at h; cases h; exact handleCommand_frame s c ids
  case start now =>
    split at h
    · cases h; exact claimed_frame s _ _ now
    · cases h
  case handlerDelete k =>
    split at h
    · cases h; exact ⟨id, .inr (.inl ⟨_, rfl⟩), id⟩
    · cases h
  all_goals
    repeat' (first | split_ifs at h | split at h)
    all_goals first | cases h; exact StepFrame.same id rfl rfl | cases h

/-- Once `c.stop` is closed no step adds an entry to `c.running`; every entry of `c.running`
belongs to a live handler goroutine (started, `hwg.Done()` not yet run), so there are no more
entries than the `WaitGroup` counts; and once a `Shutdown()` call has returned, `c.running` is
empty in every later state. -/
theorem stop_closes_admission {s : Consumer} (hs : Reachable s) :
    (s.stop = true → ∀ a s', step s a = some s' →
      s'.stop = true ∧ ∀ id ∈ s'.running, id ∈ s.running) ∧
    (∀ id k, s.running.lookup id = some k → ∃ h ∈ s.handlers, h.serial = k ∧ h.task.id = id) ∧
    s.running.keys.length ≤ s.hwg ∧
    (ShutdownPc.returned ∈ s.shutdowns → ∀ s', Reach s s' → s'.running = ∅) := by
  have hi := hs.inv
  refine ⟨fun hstop a s' h => ?_, fun id k hk => ?_, ?_, fun hr s' hr' => ?_⟩
  · have hf := step_frame h
    refine ⟨hf.stop hstop, fun id hid => ?_⟩
    rcases hf.running with he | ⟨id', he⟩ | ⟨hf', -⟩
    · exact he ▸ hid
    · exact (AList.mem_erase.mp (he ▸ hid)).2
    · rw [hstop] at hf'; cases hf'
  · obtain ⟨h, hh, hs, hid, -⟩ := (hi.running id k).mp hk
    exact ⟨h, hh, hs, hid⟩
  · have hsub : s.running.keys ⊆ s.handlers.map (·.task.id) := fun id hid => by
      obtain ⟨k, hk⟩ := Option.isSome_iff_exists.mp (AList.lookup_isSome.mpr (AList.mem_keys.mpr hid))
      obtain ⟨h, hh, -, rfl, -⟩ := (hi.running id k).mp hk
      exact List.mem_map_of_mem _ hh
    simpa [hi.hwg] using (List.subperm_of_subset (AList.keys_nodup _) hsub).length_le
  · have hret : ShutdownPc.returned ∈ s'.shutdowns := by
      induction hr' with
      | refl => exact hr
      | step a h _ ih => exact ih (hs.step a h) (hs.step a h).inv ((step_frame h).returned hr)
    exact ((hs.reach hr').inv).running_empty
      (((hs.reach hr').inv).drained _ hret (.inr rfl))

theorem stop_closes_admission_runningT1 :
    Reachable runningT1 ∧
    (runningT1.stop = true → ∀ a s', step runningT1 a = some s' →
      s'.stop = true ∧ ∀ id ∈ s'.running, id ∈ runningT1.running) ∧
    (∀ id k, runningT1.running.lookup id = some k →
      ∃ h ∈ runningT1.handlers, h.serial = k ∧ h.task.id = id) ∧
    runningT1.running.keys.length ≤ runningT1.hwg ∧
    (ShutdownPc.returned ∈ runningT1.shutdowns → ∀ s', Reach runningT1 s' → s'.running = ∅) :=
  ⟨runningT1_reachable, stop_closes_admission runningT1_reachable⟩

/-! ## Freeze -/

/-- The main loop calls `Claim` only when the consumer is not frozen. -/
theorem claim_unfrozen {s s' : Consumer} (hs : Reachable s) {ok : Bool}
    (h : step s (.claim ok) = some s') : s.freeze = false := by
  simp only [step] at h
  split at h
  · rename_i t k hm
    exact (hs.inv.mainHolds t k .accepted (by rw [hm]; rfl)).unfrozen
  · cases h

/-- `Balance` is called while frozen: after `Run()` and a `freeze` command, the frozen branch
of the main loop hands a `run_balance` command to `handleCommand`, which runs `balance()`. -/
theorem balance_called_while_frozen :
    ∃ s s', Reachable s ∧ s.freeze = true ∧
      step s (.recvCommand ⟨cmdBalance, []⟩ []) = some s' ∧ Event.balance ∈ s'.log :=
  ⟨{ Consumer.init with main := .loop, watching := true, polling := true, freeze := true }, _,
    Reachable.init.reach (runSteps_reach
      (rfl : runSteps Consumer.init [.run, .recvCommand ⟨cmdFreeze, []⟩ []] = some _)),
    rfl, rfl, by simp [Consumer.handleCommand, cmdFreeze, cmdUnfreeze, cmdBalance]⟩

end Metafora
