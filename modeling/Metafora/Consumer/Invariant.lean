import Metafora.Consumer.Step
import Metafora.Consumer.Lifecycle

/-! # The invariant of every reachable consumer state

`s.Inv` collects what holds between any two steps of any interleaving:

* the `WaitGroup` counter is the number of live handler goroutines (`hwg`), which carry
  distinct arrivals (`serials`, `handler_lt`);
* `c.running` maps exactly the IDs of the goroutines that have not yet run the deferred delete
  of `runTask`, each to its own goroutine (`running`);
* the arrival the main loop is handling is the newest one, no handler holds it, and the
  consumer is not frozen while handling it (`mainHolds`);
* callers of `Shutdown()` past `close()` see `c.stop` closed, and callers past `hwg.Wait()` see
  no handler goroutine (`closed`, `drained`);
* the calls logged for every arrival are `Stage.events` of its stage: the stage of the main
  loop or of the handler goroutine holding it, or a settled stage once none does (`life_*`).

`Consumer.Inv.step` shows every step keeps it, one lemma per kind of step; `Reachable.inv` concludes.
-/

namespace Metafora
set_option autoImplicit false

/-- The arrival the main loop is handling, with its task and stage. -/
def Main.current : Main → Option (Task × Nat × Stage)
  | .received t k => some (t, k, .received)
  | .notIgnored t k => some (t, k, .notIgnored)
  | .accepted t k => some (t, k, .accepted)
  | .claimed t k => some (t, k, .claimed)
  | _ => none

/-- The arrivals the live handler goroutines run. -/
def Consumer.serials (s : Consumer) : List Nat := s.handlers.map (·.serial)

/-- The main loop handles arrival `k` of task `t`, which has reached `st`. -/
structure MainHolds (s : Consumer) (t : Task) (k : Nat) (st : Stage) : Prop where
  last : k + 1 = s.arrivals
  free : k ∉ s.serials
  unfrozen : s.freeze = false
  life : trace s.log k = st.events k t.id

/-- Nobody holds arrival `k`. -/
def Consumer.Settled (s : Consumer) (k : Nat) : Prop :=
  (∀ c ∈ s.main.current, c.2.1 ≠ k) ∧ k ∉ s.serials

structure Consumer.Inv (s : Consumer) : Prop where
  hwg : s.hwg = s.handlers.length
  nodup : s.serials.Nodup
  serial_lt : ∀ k ∈ s.serials, k < s.arrivals
  running : ∀ id k, s.running.lookup id = some k ↔
    ∃ h ∈ s.handlers, h.serial = k ∧ h.task.id = id ∧ h.pc.listed = true
  mainHolds : ∀ t k st, s.main.current = some (t, k, st) → MainHolds s t k st
  closed : ∀ p ∈ s.shutdowns, p ≠ .closing → s.stop = true
  drained : ∀ p ∈ s.shutdowns, p = .waitRun ∨ p = .returned → s.handlers = []
  life_handler : ∀ h ∈ s.handlers,
    trace s.log h.serial = (Stage.admitted h.pc).events h.serial h.task.id
  life_settled : ∀ k < s.arrivals, s.Settled k →
    ∃ (id : String) (st : Stage), st.settled = true ∧ trace s.log k = st.events k id
  life_fresh : ∀ k, s.arrivals ≤ k → trace s.log k = []

theorem Consumer.Inv.init : Consumer.init.Inv where
  hwg := rfl
  nodup := List.nodup_nil
  serial_lt := by simp [Consumer.init, Consumer.serials]
  running := by simp [Consumer.init, AList.lookup_empty]
  mainHolds := by simp [Consumer.init, Main.current]
  closed := by simp [Consumer.init]
  drained := by simp [Consumer.init]
  life_handler := by simp [Consumer.init]
  life_settled := by simp [Consumer.init]
  life_fresh := by simp [Consumer.init, trace]

theorem Consumer.Inv.congr {s s' : Consumer} (hi : s.Inv) (h₁ : s'.running = s.running)
    (h₂ : s'.handlers = s.handlers) (h₃ : s'.hwg = s.hwg) (h₄ : s.stop = true → s'.stop = true)
    (h₅ : s'.main.current = s.main.current) (h₆ : s.main.current ≠ none → s'.freeze = s.freeze)
    (h₇ : ∀ p ∈ s'.shutdowns, p ∈ s.shutdowns ∨ p = .closing) (h₈ : s'.arrivals = s.arrivals)
    (h₉ : ∀ k, trace s'.log k = trace s.log k) : s'.Inv where
  hwg := by rw [h₃, h₂]; exact hi.hwg
  nodup := by rw [Consumer.serials, h₂]; exact hi.nodup
  serial_lt := by rw [Consumer.serials, h₂, h₈]; exact hi.serial_lt
  running := by rw [h₁, h₂]; exact hi.running
  mainHolds t k st hc := by
    have hm := hi.mainHolds t k st (h₅ ▸ hc)
    refine ⟨h₈ ▸ hm.last, by rw [Consumer.serials, h₂]; exact hm.free, ?_, by rw [h₉]; exact hm.life⟩
    rw [h₆ (by simp [← h₅, hc])]
    exact hm.unfrozen
  closed p hp hne := h₄ <| by
    rcases h₇ p hp with h | h
    · exact hi.closed p h hne
    · exact absurd h hne
  drained p hp hw := by
    rcases h₇ p hp with h | rfl
    · rw [h₂]; exact hi.drained p h hw
    · simp at hw
  life_handler h hh := by rw [h₉]; exact hi.life_handler h (h₂ ▸ hh)
  life_settled k hk hs := by
    rw [h₉]
    exact hi.life_settled k (h₈ ▸ hk)
      (by simpa only [Consumer.Settled, Consumer.serials, h₅, h₂] using hs)
  life_fresh k hk := by rw [h₉]; exact hi.life_fresh k (h₈ ▸ hk)

theorem trace_of_serial {es : List Event} {k : Nat} (h : ∀ e ∈ es, e.serial = some k)
    (k' : Nat) : trace es k' = if k = k' then es else [] := by
  split_ifs with hk
  · subst hk
    exact List.filter_eq_self.mpr fun e he => by simp [h e he]
  · exact List.filter_eq_nil_iff.mpr fun e he => by simp [h e he, hk]

theorem trace_log_of_serial {log es : List Event} {k : Nat} (h : ∀ e ∈ es, e.serial = some k)
    (k' : Nat) : trace (log ++ es) k' = trace log k' ++ if k = k' then es else [] := by
  rw [trace_append, trace_of_serial h]

theorem Consumer.Inv.mainAdvance {s s' : Consumer} (hi : s.Inv) {t : Task} {k : Nat}
    {st : Stage} (hc : s.main.current = some (t, k, st)) (st' : Stage) (es : List Event)
    (hes : st'.events k t.id = st.events k t.id ++ es) (hser : ∀ e ∈ es, e.serial = some k)
    (hm : s'.main.current = some (t, k, st') ∨ (s'.main.current = none ∧ st'.settled = true))
    (h₁ : s'.running = s.running) (h₂ : s'.handlers = s.handlers) (h₃ : s'.hwg = s.hwg)
    (h₄ : s'.stop = s.stop) (h₅ : s'.freeze = s.freeze) (h₇ : s'.shutdowns = s.shutdowns)
    (h₈ : s'.arrivals = s.arrivals) (h₉ : s'.log = s.log ++ es) : s'.Inv := by
  have hm₀ := hi.mainHolds t k st hc
  have htr : ∀ k', k' ≠ k → trace s'.log k' = trace s.log k' := fun k' hk' => by
    rw [h₉, trace_log_of_serial hser, if_neg (Ne.symm hk'), List.append_nil]
  have hk : trace s'.log k = st'.events k t.id := by
    rw [h₉, trace_log_of_serial hser, if_pos rfl, hm₀.life, hes]
  have hser₂ : s'.serials = s.serials := by rw [Consumer.serials, h₂]; rfl
  refine ⟨?_, hser₂ ▸ hi.nodup, hser₂ ▸ h₈ ▸ hi.serial_lt, ?_, ?_, ?_, ?_, ?_, ?_, ?_⟩
  · rw [h₃, h₂]; exact hi.hwg
  · rw [h₁, h₂]; exact hi.running
  · intro t' k' st'' hc'
    rcases hm with hm | ⟨hm, -⟩
    · rw [hm] at hc'
      obtain ⟨rfl, rfl, rfl⟩ := Prod.mk.inj_iff.mp (Option.some.inj hc') |>.imp id Prod.mk.inj_iff.mp
      exact ⟨h₈ ▸ hm₀.last, hser₂ ▸ hm₀.free, h₅ ▸ hm₀.unfrozen, hk⟩
    · rw [hm] at hc'; cases hc'
  · intro p hp hne; rw [h₄]; exact hi.closed p (h₇ ▸ hp) hne
  · intro p hp hw; rw [h₂]; exact hi.drained p (h₇ ▸ hp) hw
  · intro h hh
    rw [h₂] at hh
    rw [htr _ (fun he => hm₀.free (he ▸ List.mem_map_of_mem _ hh))]
    exact hi.life_handler h hh
  · intro k' hk' hs
    by_cases hkk : k' = k
    · subst hkk
      rcases hm with hm | ⟨-, hset⟩
      · exact absurd rfl (hs.1 _ (by rw [hm]; rfl))
      · exact ⟨t.id, st', hset, hk⟩
    · rw [htr k' hkk]
      refine hi.life_settled k' (h₈ ▸ hk') ⟨?_, hser₂ ▸ hs.2⟩
      intro c hc'
      rw [hc] at hc'
      cases hc'
      exact Ne.symm hkk
  · intro k' hk'
    rw [htr k' (by have := hm₀.last; omega)]
    exact hi.life_fresh k' (h₈ ▸ hk')

theorem Consumer.Inv.receive {s s' : Consumer} (hi : s.Inv) (t : Task)
    (hloop : s.main.current = none) (hfz : s.freeze = false)
    (hm : s'.main = .received t s.arrivals) (h₁ : s'.running = s.running)
    (h₂ : s'.handlers = s.handlers) (h₃ : s'.hwg = s.hwg) (h₄ : s'.stop = s.stop)
    (h₅ : s'.freeze = s.freeze) (h₇ : s'.shutdowns = s.shutdowns)
    (h₈ : s'.arrivals = s.arrivals + 1) (h₉ : s'.log = s.log) : s'.Inv := by
  have hser₂ : s'.serials = s.serials := by rw [Consumer.serials, h₂]; rfl
  refine ⟨?_, hser₂ ▸ hi.nodup, ?_, ?_, ?_, ?_, ?_, ?_, ?_, ?_⟩
  · rw [h₃, h₂]; exact hi.hwg
  · intro k hk; rw [h₈]; have := hi.serial_lt k (hser₂ ▸ hk); omega
  · rw [h₁, h₂]; exact hi.running
  · intro t' k' st hc
    rw [hm] at hc
    cases hc
    exact ⟨h₈.symm, fun hk => absurd (hi.serial_lt _ (hser₂ ▸ hk)) (lt_irrefl _), h₅ ▸ hfz,
      by rw [h₉, hi.life_fresh _ le_rfl]; rfl⟩
  · intro p hp hne; rw [h₄]; exact hi.closed p (h₇ ▸ hp) hne
  · intro p hp hw; rw [h₂]; exact hi.drained p (h₇ ▸ hp) hw
  · intro h hh; rw [h₉]; exact hi.life_handler h (h₂ ▸ hh)
  · intro k hk hs
    have hne : k ≠ s.arrivals := fun he => hs.1 (t, k, .received) (by rw [hm, he]; rfl) rfl
    rw [h₉]
    exact hi.life_settled k (by omega) ⟨by simp [hloop], hser₂ ▸ hs.2⟩
  · intro k hk; rw [h₉]; exact hi.life_fresh k (by omega)

/-! ## Handler goroutines -/

namespace Consumer

theorem handler?_spec {s : Consumer} {k : Nat} {h₀ : Handler} (h : s.handler? k = some h₀) :
    h₀ ∈ s.handlers ∧ h₀.serial = k :=
  ⟨List.mem_of_find?_eq_some h, by simpa using List.find?_some h⟩

theorem serials_updateHandler (s : Consumer) (k : Nat) (f : Handler → Handler)
    (hf : ∀ h, (f h).serial = h.serial) : (s.updateHandler k f).serials = s.serials := by
  simp only [serials, updateHandler_handlers, List.map_map]
  exact List.map_congr_left fun h _ => by by_cases hk : h.serial = k <;> simp [hk, hf]

theorem mem_updateHandler {s : Consumer} (hn : s.serials.Nodup) {k : Nat} {h₀ : Handler}
    (h0 : h₀ ∈ s.handlers) (hk : h₀.serial = k) (f : Handler → Handler) {h : Handler} :
    h ∈ (s.updateHandler k f).handlers ↔ h = f h₀ ∨ (h ∈ s.handlers ∧ h.serial ≠ k) := by
  simp only [updateHandler_handlers, List.mem_map]
  constructor
  · rintro ⟨a, ha, rfl⟩
    by_cases hak : a.serial = k
    · have : a = h₀ := List.inj_on_of_nodup_map hn ha h0 (hak.trans hk.symm)
      subst this
      exact .inl (if_pos hak)
    · simp [hak, ha]
  · rintro (rfl | ⟨hh, hne⟩)
    · exact ⟨h₀, h0, by simp [hk]⟩
    · exact ⟨h, hh, by simp [hne]⟩

end Consumer

theorem Consumer.Inv.handlerStep {s s' : Consumer} (hi : s.Inv) {k : Nat} {h₀ : Handler}
    (hh : s.handler? k = some h₀) (q : HandlerPc) (es : List Event)
    (hes : (Stage.admitted q).events k h₀.task.id =
      (Stage.admitted h₀.pc).events k h₀.task.id ++ es)
    (hser : ∀ e ∈ es, e.serial = some k)
    (h₂ : s'.handlers = (s.updateHandler k fun h => { h with pc := q }).handlers)
    (hrun : ∀ id k', s'.running.lookup id = some k' ↔
      ∃ h ∈ s'.handlers, h.serial = k' ∧ h.task.id = id ∧ h.pc.listed = true)
    (h₃ : s'.hwg = s.hwg) (h₄ : s'.stop = s.stop) (h₅ : s'.freeze = s.freeze)
    (h₆ : s'.main = s.main) (h₇ : s'.shutdowns = s.shutdowns) (h₈ : s'.arrivals = s.arrivals)
    (h₉ : s'.log = s.log ++ es) : s'.Inv := by
  obtain ⟨h0, rfl⟩ := Consumer.handler?_spec hh
  have hser₂ : s'.serials = s.serials := by
    rw [Consumer.serials, h₂]; exact Consumer.serials_updateHandler s _ _ fun _ => rfl
  have hkin : h₀.serial ∈ s.serials := List.mem_map_of_mem _ h0
  have htr : ∀ k', k' ≠ h₀.serial → trace s'.log k' = trace s.log k' := fun k' hk' => by
    rw [h₉, trace_log_of_serial hser, if_neg (Ne.symm hk'), List.append_nil]
  refine ⟨?_, hser₂ ▸ hi.nodup, hser₂ ▸ h₈ ▸ hi.serial_lt, hrun, ?_, ?_, ?_, ?_, ?_, ?_⟩
  · rw [h₃, h₂, hi.hwg]; simp
  · intro t k' st hc
    have hm := hi.mainHolds t k' st (h₆ ▸ hc)
    have hne : k' ≠ h₀.serial := fun he => hm.free (he ▸ hkin)
    exact ⟨h₈ ▸ hm.last, hser₂ ▸ hm.free, h₅ ▸ hm.unfrozen, by rw [htr k' hne]; exact hm.life⟩
  · intro p hp hne; rw [h₄]; exact hi.closed p (h₇ ▸ hp) hne
  · intro p hp hw
    have := hi.drained p (h₇ ▸ hp) hw
    rw [this] at h0; cases h0
  · intro h hh'
    rw [h₂, Consumer.mem_updateHandler hi.nodup h0 rfl] at hh'
    rcases hh' with rfl | ⟨hh', hne⟩
    · rw [h₉, trace_log_of_serial hser, if_pos rfl, hi.life_handler h₀ h0]
      exact hes.symm
    · rw [htr _ hne]; exact hi.life_handler h hh'
  · intro k' hk' hs
    have hne : k' ≠ h₀.serial := fun he => hs.2 (hser₂ ▸ he ▸ hkin)
    rw [htr k' hne]
    exact hi.life_settled k' (h₈ ▸ hk') ⟨by rw [← h₆]; exact hs.1, hser₂ ▸ hs.2⟩
  · intro k' hk'
    have := hi.serial_lt _ hkin
    rw [htr k' (by omega)]
    exact hi.life_fresh k' (h₈ ▸ hk')

theorem Consumer.Inv.running_update {s : Consumer} (hi : s.Inv) {k : Nat} {h₀ : Handler}
    (hh : s.handler? k = some h₀) (q : HandlerPc) (hl : q.listed = h₀.pc.listed)
    (id : String) (k' : Nat) : s.running.lookup id = some k' ↔
      ∃ h ∈ (s.updateHandler k fun h => { h with pc := q }).handlers,
        h.serial = k' ∧ h.task.id = id ∧ h.pc.listed = true := by
  obtain ⟨h0, rfl⟩ := Consumer.handler?_spec hh
  rw [hi.running]
  constructor
  · rintro ⟨h, hh', hs⟩
    by_cases he : h.serial = h₀.serial
    · have : h = h₀ := List.inj_on_of_nodup_map hi.nodup hh' h0 he
      subst this
      exact ⟨_, (Consumer.mem_updateHandler hi.nodup h0 rfl _).mpr (.inl rfl), by simpa [hl] using hs⟩
    · exact ⟨h, (Consumer.mem_updateHandler hi.nodup h0 rfl _).mpr (.inr ⟨hh', he⟩), hs⟩
  · rintro ⟨h, hh', hs⟩
    rcases (Consumer.mem_updateHandler hi.nodup h0 rfl _).mp hh' with rfl | ⟨hh', -⟩
    · exact ⟨h₀, h0, by simpa [hl] using hs⟩
    · exact ⟨h, hh', hs⟩

theorem Consumer.Inv.running_erase {s : Consumer} (hi : s.Inv) {k : Nat} {h₀ : Handler}
    (hh : s.handler? k = some h₀) (q : HandlerPc) (hl₀ : h₀.pc.listed = true)
    (hq : q.listed = false) (id : String) (k' : Nat) :
    (s.running.erase h₀.task.id).lookup id = some k' ↔
      ∃ h ∈ (s.updateHandler k fun h => { h with pc := q }).handlers,
        h.serial = k' ∧ h.task.id = id ∧ h.pc.listed = true := by
  obtain ⟨h0, rfl⟩ := Consumer.handler?_spec hh
  by_cases hid : id = h₀.task.id
  · subst hid
    rw [AList.lookup_erase]
    refine ⟨fun h => (by cases h), ?_⟩
    rintro ⟨h, hh', hs, hid, hl⟩
    rcases (Consumer.mem_updateHandler hi.nodup h0 rfl _).mp hh' with rfl | ⟨hh', hne⟩
    · simp [hq] at hl
    · have h1 := (hi.running _ _).mpr ⟨h, hh', rfl, hid, hl⟩
      have h2 := (hi.running _ _).mpr ⟨h₀, h0, rfl, rfl, hl₀⟩
      exact absurd (Option.some.inj (h1.symm.trans h2)) hne
  · rw [AList.lookup_erase_ne hid, hi.running]
    constructor
    · rintro ⟨h, hh', hs⟩
      have hne : h.serial ≠ h₀.serial := fun he =>
        hid (List.inj_on_of_nodup_map hi.nodup hh' h0 he ▸ hs.2.1).symm
      exact ⟨h, (Consumer.mem_updateHandler hi.nodup h0 rfl _).mpr (.inr ⟨hh', hne⟩), hs⟩
    · rintro ⟨h, hh', hs⟩
      rcases (Consumer.mem_updateHandler hi.nodup h0 rfl _).mp hh' with rfl | ⟨hh', -⟩
      · exact absurd hs.2.1.symm hid
      · exact ⟨h, hh', hs⟩

theorem Consumer.Inv.running_insert {s : Consumer} (hi : s.Inv) {t : Task} {k now : Nat}
    (hdup : t.id ∉ s.running) (id : String) (k' : Nat) :
    (s.running.insert t.id k).lookup id = some k' ↔
      ∃ h ∈ s.handlers ++ [⟨k, t, now, .spawned⟩],
        h.serial = k' ∧ h.task.id = id ∧ h.pc.listed = true := by
  by_cases hid : id = t.id
  · subst hid
    rw [AList.lookup_insert]
    constructor
    · rintro ⟨⟩; exact ⟨_, List.mem_append_right _ (List.mem_singleton_self _), rfl, rfl, rfl⟩
    · rintro ⟨h, hh, hs, hid, hl⟩
      rcases List.mem_append.mp hh with hh | hh
      · have hrun := (hi.running _ _).mpr ⟨h, hh, rfl, hid, hl⟩
        exact absurd (AList.lookup_isSome.mp (by rw [hrun]; rfl)) hdup
      · rw [List.mem_singleton.mp hh] at hs; exact congrArg some hs
  · rw [AList.lookup_insert_ne hid, hi.running]
    simp only [List.mem_append, List.mem_singleton]
    constructor
    · rintro ⟨h, hh, hs⟩; exact ⟨h, .inl hh, hs⟩
    · rintro ⟨h, hh | rfl, hs⟩
      · exact ⟨h, hh, hs⟩
      · exact absurd hs.2.1.symm hid

theorem Consumer.Inv.claimed {s : Consumer} (hi : s.Inv) {t : Task} {k : Nat}
    (hm : s.main = .claimed t k) (now : Nat) : (s.claimed t k now).Inv := by
  have hc : s.main.current = some (t, k, .claimed) := by rw [hm]; rfl
  have hm₀ := hi.mainHolds t k .claimed hc
  have hdrop : ({ s with main := .loop } : Consumer).Inv :=
    hi.mainAdvance hc .dropped [] (List.append_nil _).symm (by simp)
      (.inr ⟨rfl, rfl⟩) rfl rfl rfl rfl rfl rfl rfl (List.append_nil _).symm
  unfold Consumer.claimed
  split_ifs with hstop hdup
  · exact hdrop
  · exact hdrop
  · have hser : Consumer.serials
          { s with main := .loop, running := s.running.insert t.id k, hwg := s.hwg + 1,
                   handlers := s.handlers ++ [⟨k, t, now, .spawned⟩] } = s.serials ++ [k] := by
      simp [Consumer.serials]
    refine ⟨?_, ?_, ?_, ?_, ?_, ?_, ?_, ?_, ?_, ?_⟩
    · simp [hi.hwg]
    · rw [hser]; exact List.Nodup.append hi.nodup (List.nodup_singleton k)
        (List.disjoint_singleton.mpr hm₀.free)
    · rw [hser]; intro k' hk'
      rcases List.mem_append.mp hk' with hk' | hk'
      · exact hi.serial_lt k' hk'
      · simp only [List.mem_singleton] at hk'
        have := hm₀.last
        show k' < s.arrivals
        omega
    · exact hi.running_insert hdup
    · intro t' k' st' hc'; cases hc'
    · exact hi.closed
    · intro p hp hw; exact absurd (hi.closed p hp (by rcases hw with rfl | rfl <;> simp)) hstop
    · intro h hh
      rcases List.mem_append.mp hh with hh | hh
      · exact hi.life_handler h hh
      · rw [List.mem_singleton.mp hh]; exact hm₀.life
    · intro k' hk' hs
      have hs2 : k' ∉ s.serials ++ [k] := hser ▸ hs.2
      have hne : k' ≠ k := fun he => hs2 (by simp [he])
      exact hi.life_settled k' hk' ⟨by simp [hc, Ne.symm hne], fun h => hs2 (List.mem_append_left _ h)⟩
    · exact hi.life_fresh

theorem length_filter_serial_ne {l : List Handler} (hn : (l.map (·.serial)).Nodup) {k : Nat}
    (hk : k ∈ l.map (·.serial)) : (l.filter (fun h => h.serial ≠ k)).length + 1 = l.length := by
  induction l with
  | nil => simp at hk
  | cons h l ih =>
    simp only [List.map_cons, List.nodup_cons, List.mem_cons] at hn hk
    by_cases hh : h.serial = k
    · subst hh
      rw [List.filter_cons_of_neg (by simp), List.filter_eq_self.mpr]
      · rfl
      · intro a ha
        have : a.serial ≠ h.serial := fun he => hn.1 (he ▸ List.mem_map_of_mem _ ha)
        simpa using this
    · rw [List.filter_cons_of_pos (by simpa using hh), List.length_cons, List.length_cons,
        ih hn.2 (hk.resolve_left (Ne.symm hh))]

theorem Consumer.Inv.handlerExit {s : Consumer} (hi : s.Inv) {k : Nat} {h₀ : Handler}
    (hh : s.handler? k = some h₀) (r : RunResult) (hpc : h₀.pc = .finished r) :
    { s with handlers := s.handlers.filter (·.serial ≠ k), hwg := s.hwg - 1 }.Inv := by
  obtain ⟨h0, rfl⟩ := Consumer.handler?_spec hh
  have hkin : h₀.serial ∈ s.serials := List.mem_map_of_mem _ h0
  have hsub : List.Sublist
      (Consumer.serials { s with handlers := s.handlers.filter (·.serial ≠ h₀.serial),
                                 hwg := s.hwg - 1 }) s.serials :=
    (List.filter_sublist _).map _
  have hmem : ∀ {h}, h ∈ s.handlers.filter (·.serial ≠ h₀.serial) ↔
      h ∈ s.handlers ∧ h.serial ≠ h₀.serial := by simp
  refine ⟨?_, hi.nodup.sublist hsub, fun k' hk' => hi.serial_lt k' (hsub.subset hk'), ?_, ?_,
    hi.closed, ?_, ?_, ?_, hi.life_fresh⟩
  · have := length_filter_serial_ne hi.nodup hkin
    simp only at this ⊢
    rw [hi.hwg]; omega
  · intro id k'
    rw [hi.running]
    constructor
    · rintro ⟨h, hh', hs⟩
      refine ⟨h, hmem.mpr ⟨hh', fun he => ?_⟩, hs⟩
      have : h = h₀ := List.inj_on_of_nodup_map hi.nodup hh' h0 he
      simp [this, hpc, HandlerPc.listed] at hs
    · rintro ⟨h, hh', hs⟩; exact ⟨h, (hmem.mp hh').1, hs⟩
  · intro t k' st hc
    have hm := hi.mainHolds t k' st hc
    exact ⟨hm.last, fun h => hm.free (hsub.subset h), hm.unfrozen, hm.life⟩
  · intro p hp hw; simp [hi.drained p hp hw]
  · intro h hh'; exact hi.life_handler h (hmem.mp hh').1
  · intro k' hk' hs
    by_cases hkk : k' = h₀.serial
    · subst hkk
      exact ⟨h₀.task.id, .exited r, rfl, by rw [hi.life_handler h₀ h0, hpc]; rfl⟩
    · refine hi.life_settled k' hk' ⟨hs.1, fun hin => hs.2 ?_⟩
      obtain ⟨h, hh', rfl⟩ := List.mem_map.mp hin
      exact List.mem_map_of_mem _ (hmem.mpr ⟨hh', hkk⟩)

theorem Consumer.Inv.setShutdown {s : Consumer} (hi : s.Inv) (i : Nat) (q : ShutdownPc)
    (b : Bool) (hb : s.stop = true → b = true) (hq : q ≠ .closing → b = true)
    (hd : q = .waitRun ∨ q = .returned → s.handlers = []) :
    { s with stop := b, shutdowns := s.shutdowns.set i q }.Inv :=
  ⟨hi.hwg, hi.nodup, hi.serial_lt, hi.running,
    fun t k st hc => have hm := hi.mainHolds t k st hc; ⟨hm.last, hm.free, hm.unfrozen, hm.life⟩,
    fun p hp hne => by
      rcases List.mem_or_eq_of_mem_set hp with hp | rfl
      · exact hb (hi.closed p hp hne)
      · exact hq hne,
    fun p hp hw => by
      rcases List.mem_or_eq_of_mem_set hp with hp | rfl
      · exact hi.drained p hp hw
      · exact hd hw,
    hi.life_handler, hi.life_settled, hi.life_fresh⟩

/-! ## Every step keeps the invariant -/

theorem Consumer.Inv.frame {s s' : Consumer} (hi : s.Inv) (h₁ : s'.running = s.running)
    (h₂ : s'.handlers = s.handlers) (h₃ : s'.hwg = s.hwg) (h₄ : s'.stop = s.stop)
    (h₅ : s'.main.current = none) (h₀ : s.main.current = none) (h₇ : s'.shutdowns = s.shutdowns)
    (h₈ : s'.arrivals = s.arrivals) (h₉ : ∀ k, trace s'.log k = trace s.log k) : s'.Inv :=
  hi.congr h₁ h₂ h₃ (fun h => h₄ ▸ h) (h₅.trans h₀.symm) (fun h => absurd h₀ h)
    (fun _ hp => .inl (h₇ ▸ hp)) h₈ h₉

theorem Consumer.Inv.handleCommand {s : Consumer} (hi : s.Inv) (hm : s.main = .loop)
    (c : Command) (ids : List String) : (s.handleCommand c ids).Inv := by
  have h₀ : s.main.current = none := by rw [hm]; rfl
  unfold Consumer.handleCommand
  split_ifs
  all_goals first
    | exact hi
    | exact hi.frame rfl rfl rfl rfl h₀ h₀ rfl rfl fun _ => rfl
    | exact hi.frame rfl rfl rfl rfl rfl h₀ rfl rfl fun k => by simp [Event.serial]
    | skip
  split
  · exact hi.frame rfl rfl rfl rfl h₀ h₀ rfl rfl fun _ => rfl
  · exact hi

theorem Consumer.Inv.step {s s' : Consumer} (hi : s.Inv) {a : Action} (h : step s a = some s') :
    s'.Inv := by
  cases a <;> simp only [Metafora.step] at h
  case run =>
    split_ifs at h with hm; cases h
    exact hi.frame rfl rfl rfl rfl rfl (by rw [hm]; rfl) rfl rfl fun _ => rfl
  case shutdown =>
    cases h
    exact hi.congr rfl rfl rfl id rfl (fun _ => rfl) (fun p hp => by simpa using hp) rfl
      fun _ => rfl
  case shutdownStep i =>
    split at h
    · cases h; exact hi.setShutdown i .waitHandlers true (fun _ => rfl) (fun _ => rfl) (by simp)
    · rename_i hp
      split_ifs at h with hw; cases h
      exact hi.setShutdown i .waitRun s.stop id
        (fun _ => hi.closed _ (List.getElem?_mem hp) (by simp))
        fun _ => List.length_eq_zero.mp (hi.hwg ▸ hw)
    · rename_i hp
      split_ifs at h with hw; cases h
      exact hi.setShutdown i .returned s.stop id
        (fun _ => hi.closed _ (List.getElem?_mem hp) (by simp))
        fun _ => hi.drained _ (List.getElem?_mem hp) (.inl rfl)
    · cases h
  case watcherExit =>
    split_ifs at h; cases h
    exact hi.congr rfl rfl rfl (fun _ => rfl) rfl (fun _ => rfl) (fun p hp => .inl hp) rfl
      fun _ => rfl
  case pollerExit | dropResend i =>
    split_ifs at h; cases h
    exact hi.congr rfl rfl rfl id rfl (fun _ => rfl) (fun p hp => .inl hp) rfl fun _ => rfl
  case expire now =>
    cases h
    exact hi.congr rfl rfl rfl id rfl (fun _ => rfl) (fun p hp => .inl hp) rfl fun _ => rfl
  case recvStop | recvBalance ids | recvClosed =>
    split_ifs at h with hm; cases h
    exact hi.frame rfl rfl rfl rfl rfl (by rw [hm.1]; rfl) rfl rfl fun k => by simp [Event.serial]
  case recvTask t =>
    split_ifs at h with hm; cases h
    exact hi.receive t (by rw [hm.1]; rfl) hm.2.1 rfl rfl rfl rfl rfl rfl rfl rfl rfl
  case recvResend i =>
    split_ifs at h with hm
    split at h
    · cases h; exact hi.receive _ (by rw [hm.1]; rfl) hm.2 rfl rfl rfl rfl rfl rfl rfl rfl rfl
    · cases h
  case recvCommand c ids =>
    split_ifs at h with hm; cases h
    exact hi.handleCommand hm.1 c ids
  case checkIgnored now =>
    split at h
    · rename_i t k hm
      cases h
      have hc : s.main.current = some (t, k, .received) := by rw [hm]; rfl
      cases hr : s.ignored t.id now
      · exact hi.mainAdvance hc .notIgnored _ rfl (by simp [Event.serial])
          (.inl (by simp [hr, Main.current])) rfl rfl rfl rfl rfl rfl rfl (by simp [hr])
      · exact hi.mainAdvance hc .ignored _ rfl (by simp [Event.serial])
          (.inr ⟨by simp [hr, Main.current], rfl⟩) rfl rfl rfl rfl rfl rfl rfl (by simp [hr])
    · cases h
  case canClaim ok deadline =>
    split at h
    · rename_i t k hm
      have hc : s.main.current = some (t, k, .notIgnored) := by rw [hm]; rfl
      split_ifs at h <;> cases h
      · exact hi.mainAdvance hc .accepted _ rfl (by simp [Event.serial]) (.inl rfl)
          rfl rfl rfl rfl rfl rfl rfl rfl
      · exact hi.mainAdvance hc .rejected _ rfl (by simp [Event.serial])
          (.inr ⟨rfl, rfl⟩) rfl rfl rfl rfl rfl rfl rfl rfl
    · cases h
  case claim ok =>
    split at h
    · rename_i t k hm
      cases h
      have hc : s.main.current = some (t, k, .accepted) := by rw [hm]; rfl
      cases ok
      · exact hi.mainAdvance hc .lost _ rfl (by simp [Event.serial])
          (.inr ⟨rfl, rfl⟩) rfl rfl rfl rfl rfl rfl rfl rfl
      · exact hi.mainAdvance hc .claimed _ rfl (by simp [Event.serial]) (.inl rfl)
          rfl rfl rfl rfl rfl rfl rfl rfl
    · cases h
  case start now =>
    split at h
    · cases h; exact hi.claimed ‹_› now
    · cases h
  case stopNext =>
    split at h <;> cases h <;> rename_i hm <;>
      exact hi.frame rfl rfl rfl rfl rfl (by rw [hm]; rfl) rfl rfl fun _ => rfl
  case join =>
    split_ifs at h with hm; cases h
    exact hi.frame rfl rfl rfl rfl rfl (by rw [hm.1]; rfl) rfl rfl fun _ => rfl
  case handlerRun k =>
    split at h
    · rename_i h₀ hh
      split_ifs at h with hpc; cases h
      exact hi.handlerStep hh .running _ (by rw [hpc]; rfl) (by simp [Event.serial]) rfl
        (hi.running_update hh _ (by rw [hpc]; rfl)) rfl rfl rfl rfl rfl rfl rfl
    · cases h
  case handlerReturn k r =>
    split at h
    · rename_i h₀ hh
      split_ifs at h with hpc; cases h
      exact hi.handlerStep hh (.returned r) _ (by rw [hpc]; rfl) (by simp [Event.serial]) rfl
        (hi.running_update hh _ (by rw [hpc]; rfl)) rfl rfl rfl rfl rfl rfl rfl
    · cases h
  case handlerDelete k =>
    split at h
    · rename_i serial t started r hh
      cases h
      exact hi.handlerStep hh (.deleted r) [] (List.append_nil _).symm (by simp) rfl
        (hi.running_erase hh _ rfl rfl) rfl rfl rfl rfl rfl rfl (List.append_nil _).symm
    · cases h
  case handlerFinish k =>
    split at h
    · rename_i serial t started r hh
      cases h
      exact hi.handlerStep hh (.finished r) _ rfl (by simp [(Consumer.handler?_spec hh).2])
        rfl (hi.running_update hh _ rfl) rfl rfl rfl rfl rfl rfl rfl
    · cases h
  case handlerExit k =>
    split at h
    · rename_i serial t started r hh
      cases h
      exact hi.handlerExit hh r rfl
    · cases h
  case runStop i now =>
    split at h
    · cases h
      exact hi.congr rfl rfl rfl id rfl (fun _ => rfl) (fun p hp => .inl hp) rfl fun _ => rfl
    · cases h

/-- Every reachable state satisfies the invariant. -/
theorem Reachable.inv {s : Consumer} (hs : Reachable s) : s.Inv := by
  induction hs with
  | init => exact Consumer.Inv.init
  | step a _ h ih => exact ih.step h

end Metafora
