import Mathlib.Data.List.AList
import Mathlib.Algebra.Group.Int
import Metafora.Task

/-! # The task type multiplexer (`src/unnamed/part_003`)

* `GoTime`, `timeUnix`, `GoTime.before`: the seconds since January 1 of year 1 that Go's `Time`
  keeps in an `int64`, `time.Unix(sec, nsec)`, which adds `unixToInternal` to `sec` with
  two's-complement wraparound, and `Before`.
* `forever`: `time.Unix(math.MaxInt64, 0)`. The addition wraps, so `forever` lies before every
  time with an internal second count in range (`forever_before`): `AlwaysReject` asks to
  ignore a task until a moment already past.
* `Mux`, `Mux.new`, `Mux.add`, `Mux.get`, `Mux.canClaim`: the route map, with `nil` handlers
  and balancers as `none`. `registered`: the claim's reading of a sequence of `Add` calls (the
  route of a type is that of its most recent `Add`, a `nil` balancer standing for the default
  one of that moment). `addAll_lookup`: the map refines that reading, so `CanClaim` always calls
  a non-nil balancer (`canClaim_routed`).
* `unknown_type_rejected_until_past`: for a non-empty `_type` no `Add` registered, `CanClaim`
  returns `(forever, false)`, a deadline before every time the consumer can read.
-/

namespace Metafora
set_option autoImplicit false

/-! ## `time` -/

/-- A `time.Time` without a monotonic reading: seconds since January 1 of year 1 (an `int64`)
and nanoseconds. -/
structure GoTime where
  sec : Int
  nsec : Nat
  deriving DecidableEq

def minInt64 : Int := -2 ^ 63
def maxInt64 : Int := 2 ^ 63 - 1

/-- Two's-complement wraparound onto `int64`. -/
def wrapInt64 (x : Int) : Int := (x + 2 ^ 63) % 2 ^ 64 - 2 ^ 63

/-- `unixToInternal`: seconds from January 1 of year 1 to January 1, 1970. -/
def unixToInternal : Int := (1969 * 365 + 1969 / 4 - 1969 / 100 + 1969 / 400) * 86400

/-- `time.Unix(sec, nsec)` for `0 ≤ nsec < 10^9`: `unixTime` stores `sec + unixToInternal`. -/
def timeUnix (sec : Int) (nsec : Nat) : GoTime := ⟨wrapInt64 (sec + unixToInternal), nsec⟩

def GoTime.before (t u : GoTime) : Bool := t.sec < u.sec || (t.sec = u.sec && t.nsec < u.nsec)

def forever : GoTime := timeUnix maxInt64 0

theorem forever_sec : forever.sec = minInt64 + unixToInternal - 1 := by
  simp only [forever, timeUnix, wrapInt64, maxInt64, minInt64, unixToInternal]; omega

theorem forever_before {sec : Int} (h₁ : minInt64 ≤ sec) (h₂ : sec + unixToInternal ≤ maxInt64)
    (nsec : Nat) : forever.before (timeUnix sec nsec) = true := by
  have hs : (timeUnix sec nsec).sec = sec + unixToInternal := by
    simp only [timeUnix, wrapInt64]
    simp only [minInt64, maxInt64] at h₁ h₂
    have : (0 : Int) ≤ unixToInternal := by decide
    omega
  simp only [GoTime.before, hs, forever_sec, decide_eq_true_eq, Bool.or_eq_true]
  exact .inl (by omega)

/-! ## The mux -/

/-- A balancer a route can hold: `AlwaysReject`, or one given to `New` or `Add`, by name. -/
inductive MuxBalancer
  | alwaysReject
  | given (name : String)
  deriving DecidableEq

/-- `route`: a balancer and a handler func (by name), each possibly `nil`. -/
structure Route where
  b : Option MuxBalancer
  h : Option String
  deriving DecidableEq

def defkey : String := ""
def typeKey : String := "_type"

def rejectRoute : Route := ⟨some .alwaysReject, none⟩

structure Mux where
  routes : AList (fun _ : String => Route)

def Mux.new (defh : Option String) (defb : Option MuxBalancer) : Mux :=
  ⟨(∅ : AList (fun _ : String => Route)).insert defkey ⟨defb, defh⟩⟩

namespace Mux

variable (m : Mux)

/-- `m.routes[defkey]`, with Go's zero route for a missing key. -/
def default : Route := (m.routes.lookup defkey).getD ⟨none, none⟩

/-- `Add(typ, h, b)`: a `nil` handler or balancer is taken from the default route. -/
def add (typ : String) (h : Option String) (b : Option MuxBalancer) : Mux :=
  let h := if h = none then m.default.h else h
  let b := if b = none then m.default.b else b
  ⟨m.routes.insert typ ⟨b, h⟩⟩

/-- `get(typ)`: the route of the type, or `rejectRoute`. -/
def get (typ : String) : Route := (m.routes.lookup typ).getD rejectRoute

/-- `CanClaim(task)`: the `CanClaim` of the route's balancer, `user n` for a given balancer
named `n`; `none` for a `nil` balancer, whose method call panics. -/
def canClaim (user : String → Task → GoTime × Bool) (task : Task) : Option (GoTime × Bool) :=
  match (m.get (task.props.get typeKey)).b with
  | some .alwaysReject => some (forever, false)
  | some (.given n) => some (user n task)
  | none => none

end Mux

structure AddCall where
  typ : String
  h : Option String
  b : Option MuxBalancer

def Mux.addAll (m : Mux) (calls : List AddCall) : Mux :=
  calls.foldl (fun m c => m.add c.typ c.h c.b) m

/-- The claim's reading of `New(defh, defb)` followed by `Add` calls, most recent first: the
balancer of a type is that of its most recent `Add`, where a `nil` balancer stands for the
default balancer of that moment; the empty type starts with `defb`; other types have none. -/
def registered (defb : MuxBalancer) : List AddCall → String → Option MuxBalancer
  | [], typ => if typ = defkey then some defb else none
  | c :: older, typ =>
    if c.typ = typ then some (c.b.getD ((registered defb older defkey).getD defb))
    else registered defb older typ

/-! ## Routing -/

theorem registered_defkey (defb : MuxBalancer) :
    ∀ calls : List AddCall, (registered defb calls defkey).isSome
  | [] => rfl
  | c :: older => by
    simp only [registered]
    split_ifs
    · rfl
    · exact registered_defkey defb older

theorem registered_unknown (defb : MuxBalancer) {typ : String} (hne : typ ≠ defkey) :
    ∀ {calls : List AddCall}, (∀ c ∈ calls, c.typ ≠ typ) → registered defb calls typ = none
  | [], _ => if_neg hne
  | c :: older, h => by
    rw [registered, if_neg (h c (List.mem_cons_self _ _))]
    exact registered_unknown defb hne fun c' hc => h c' (List.mem_cons_of_mem _ hc)

theorem addAll_lookup (defh : Option String) (defb : MuxBalancer) (calls : List AddCall)
    (typ : String) : (((Mux.new defh (some defb)).addAll calls).routes.lookup typ).map (·.b) =
      (registered defb calls.reverse typ).map some := by
  induction calls using List.reverseRecOn generalizing typ with
  | nil =>
    by_cases h : typ = defkey
    · subst h
      simp only [Mux.addAll, List.foldl_nil, Mux.new, List.reverse_nil, registered, if_true,
        AList.lookup_insert, Option.map_some']
    · simp only [Mux.addAll, List.foldl_nil, Mux.new, List.reverse_nil, registered, if_neg h,
        AList.lookup_insert_ne h, AList.lookup_empty, Option.map_none']
  | append_singleton calls c ih =>
    set m := (Mux.new defh (some defb)).addAll calls
    have hm : (Mux.new defh (some defb)).addAll (calls ++ [c]) = m.add c.typ c.h c.b := by
      simp only [Mux.addAll, List.foldl_append, List.foldl_cons, List.foldl_nil, m]
    obtain ⟨d, hd⟩ := Option.isSome_iff_exists.1 (registered_defkey defb calls.reverse)
    have hdef : m.default.b = some d := by
      have := ih defkey
      rw [hd, Option.map_some'] at this
      obtain ⟨r, hr, hrb⟩ := Option.map_eq_some'.1 this
      rw [Mux.default, hr, Option.getD_some, hrb]
    rw [hm, List.reverse_append, List.reverse_singleton, List.singleton_append, registered]
    by_cases h : c.typ = typ
    · subst h
      rw [if_pos rfl, Mux.add, AList.lookup_insert, hd, Option.getD_some]
      cases c.b <;> simp [hdef]
    · rw [if_neg h, Mux.add, AList.lookup_insert_ne (Ne.symm h), ih]

theorem canClaim_routed (defh : Option String) (defb : MuxBalancer) (calls : List AddCall)
    (user : String → Task → GoTime × Bool) (task : Task) :
    ((Mux.new defh (some defb)).addAll calls).canClaim user task =
      some (match (registered defb calls.reverse (task.props.get typeKey)).getD .alwaysReject with
        | .alwaysReject => (forever, false)
        | .given n => user n task) := by
  have hl := addAll_lookup defh defb calls (task.props.get typeKey)
  simp only [Mux.canClaim, Mux.get]
  cases hr : registered defb calls.reverse (task.props.get typeKey) with
  | none =>
    rw [hr, Option.map_none', Option.map_eq_none'] at hl
    rw [hl]; rfl
  | some b =>
    rw [hr, Option.map_some'] at hl
    obtain ⟨r, hr', hrb⟩ := Option.map_eq_some'.1 hl
    rw [hr', Option.getD_some, hrb]
    cases b <;> rfl

/-- For a non-empty `_type` that no `Add` registered, `CanClaim` asks to ignore the task until
`forever`, and `forever` lies before every time the consumer can read: the deadline is past. -/
theorem unknown_type_rejected_until_past (defh : Option String) (defb : MuxBalancer)
    (calls : List AddCall) (user : String → Task → GoTime × Bool) (task : Task)
    (hne : task.props.get typeKey ≠ defkey) (hnew : ∀ c ∈ calls, c.typ ≠ task.props.get typeKey) :
    ((Mux.new defh (some defb)).addAll calls).canClaim user task = some (forever, false) ∧
    ∀ sec nsec, minInt64 ≤ sec → sec + unixToInternal ≤ maxInt64 →
      forever.before (timeUnix sec nsec) = true := by
  refine ⟨?_, fun sec nsec h₁ h₂ => forever_before h₁ h₂ nsec⟩
  rw [canClaim_routed, registered_unknown defb hne fun c hc => hnew c (List.mem_reverse.1 hc)]
  rfl

def audioTask : Task := ⟨"t1", Props.empty.insert typeKey "audio"⟩

/-- `New(nil, fair)` with the type `video` added. -/
def videoCalls : List AddCall := [⟨"video", none, none⟩]

theorem unknown_type_rejected_until_past_audio :
    (audioTask.props.get typeKey ≠ defkey ∧ ∀ c ∈ videoCalls, c.typ ≠ audioTask.props.get typeKey) ∧
    ((Mux.new none (some (.given "fair"))).addAll videoCalls).canClaim (fun _ _ => (⟨0, 0⟩, true))
      audioTask = some (forever, false) ∧
    ∀ sec nsec, minInt64 ≤ sec → sec + unixToInternal ≤ maxInt64 →
      forever.before (timeUnix sec nsec) = true :=
  ⟨⟨by decide, by decide⟩, unknown_type_rejected_until_past none (.given "fair") videoCalls
    (fun _ _ => (⟨0, 0⟩, true)) audioTask (by decide) (by decide)⟩

end Metafora
