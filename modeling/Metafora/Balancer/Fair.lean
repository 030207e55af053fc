import Mathlib.Data.List.AList
import Mathlib.Data.Finset.Lattice.Fold
import Mathlib.Data.Fintype.Basic
import Metafora.GoArith
import Metafora.Balancer.Mux

/-! # `FairBalancer` (`src/balancer.go`)

* `FairBalancer`, `newDefaultFairBalancer`, `newDefaultFairBalancerWithThreshold`,
  `defaultThreshold`: the balancer's node ID, release threshold and claim delay. A time is a
  count of nanoseconds, `time.Time{}` being `0`.
* `FairBalancer.canClaim`, `FairBalancer.desiredCount`, `FairBalancer.balance`: the methods,
  with `ClusterState.NodeTaskCount()` given as the map (or error) it returned. Their `int` sums
  and differences wrap (`goInt`), and `desiredCount` rounds as `float64` does (`GoArith`).
* `releaseLoop`: the selection loop `for len(releasetasks) < shouldrelease`, run for at most
  `fuel` draws from a stream `draw`, the `k`-th `random.Intn(len(nodetasks))` being `draw k`.
  `none` means the loop is still running when the fuel runs out.
* `Drawn`: what the loop keeps of `releasetasks` (IDs of the local tasks, each once), so its
  length never exceeds `distinctIds nodetasks`.
* `releaseLoop_none_of_lt`: if `shouldrelease` exceeds the number of distinct local IDs, no fuel
  and no stream ends the loop. `FairBalancer.balance_loops_forever` lifts this to `Balance`:
  the count map is read from the cluster and nothing bounds it by the local task list.
* `FairBalancer.balance_releases`: otherwise, for every stream that draws each position at
  least once, some fuel ends the loop, with `max 0 shouldrelease` distinct local IDs.
* `FairBalancer.canClaim_after_balance`: after `Balance` released `N` tasks, `CanClaim` refuses
  until `N` seconds have passed.
-/

namespace Metafora
set_option autoImplicit false

/-! ## Model -/

structure FairBalancer where
  nodeid : String
  releaseThreshold : Float64
  delay : Nat
  deriving DecidableEq

/-- `defaultThreshold`: the `float64` nearest `1.2`. -/
def defaultThreshold : Float64 := ⟨0x3FF3333333333333⟩

def newDefaultFairBalancerWithThreshold (nodeid : String) (threshold : Float64) : FairBalancer :=
  ⟨nodeid, threshold, 0⟩

def newDefaultFairBalancer (nodeid : String) : FairBalancer :=
  newDefaultFairBalancerWithThreshold nodeid defaultThreshold

/-- `e.CanClaim(ctx, task)` at time `now`: refuse until `delay` while it is in the future. -/
def FairBalancer.canClaim (e : FairBalancer) (now : Nat) : Nat × Bool :=
  if now < e.delay then (e.delay, false) else (0, true)

/-- `e.desiredCount(current)`: `total += c` over the counts, `avg = total / len(current)` (`0` on
an empty map), then `int(math.Ceil(float64(avg) * e.releaseThreshold))`. -/
def FairBalancer.desiredCount (e : FairBalancer) (current : AList fun _ : String => Int) : Int :=
  let total := current.entries.foldl (fun total c => goInt (total + c.2)) 0
  let avg := if current.entries.length > 0 then total.tdiv current.entries.length else 0
  ((roundFloat64 avg).mul e.releaseThreshold.val).ceil.toGoInt

/-- The loop `for len(releasetasks) < shouldrelease`: draw `nodetasks[draw k]` and add its ID
unless `releaseset` holds it. `releaseset` holds exactly the IDs of `releasetasks`, so the lookup
and the two insertions are `setKey`. -/
def releaseLoop (nodetasks : List RunningTask) (shouldrelease : Int)
    (draw : Nat → Fin nodetasks.length) : Nat → Nat → List String → Option (List String)
  | 0, _, _ => none
  | fuel + 1, k, releasetasks =>
    if (releasetasks.length : Int) < shouldrelease then
      releaseLoop nodetasks shouldrelease draw fuel (k + 1)
        (setKey releasetasks (nodetasks.get (draw k)).id)
    else some releasetasks

/-- `e.Balance(ctx)` at time `now`, where `ctx.Tasks()` returns `nodetasks` and
`e.clusterstate.NodeTaskCount()` returns `current`; the selection loop gets `fuel` draws. The
released IDs and the balancer with its new `delay`, or `none` while the loop runs. Where
`shouldrelease` is past `make`'s capacity bound `make` panics before the loop; that `Balance`
does not return either. -/
def FairBalancer.balance (e : FairBalancer) (nodetasks : List RunningTask)
    (current : Except String (AList fun _ : String => Int)) (now : Nat)
    (draw : Nat → Fin nodetasks.length) (fuel : Nat) : Option (List String × FairBalancer) :=
  let e := { e with delay := 0 }
  if nodetasks.length < 2 then some ([], e)
  else match current with
    | .error _ => some ([], e)
    | .ok current =>
      let shouldrelease := goInt ((current.lookup e.nodeid).getD 0 - e.desiredCount current)
      if shouldrelease < 1 then some ([], e)
      else (releaseLoop nodetasks shouldrelease draw fuel 0 []).map fun releasetasks =>
        (releasetasks, { e with delay := now + releasetasks.length * 1000000000 })

@[simp] theorem FairBalancer.desiredCount_with_delay (e : FairBalancer) (d : Nat)
    (current : AList fun _ : String => Int) :
    ({ e with delay := d } : FairBalancer).desiredCount current = e.desiredCount current := rfl

def distinctIds (nodetasks : List RunningTask) : Nat :=
  (nodetasks.map RunningTask.id).dedup.length

/-! ## The selection loop -/

section Loop

variable {nodetasks : List RunningTask} {shouldrelease : Int} {draw : Nat → Fin nodetasks.length}

/-- What the loop keeps of `releasetasks`: IDs of the local tasks, each once. -/
structure Drawn (nodetasks : List RunningTask) (releasetasks : List String) : Prop where
  nodup : releasetasks.Nodup
  sub : ∀ x ∈ releasetasks, x ∈ nodetasks.map RunningTask.id

theorem Drawn.nil : Drawn nodetasks [] := ⟨List.nodup_nil, nofun⟩

theorem Drawn.setKey {r : List String} (h : Drawn nodetasks r) (i : Fin nodetasks.length) :
    Drawn nodetasks (setKey r (nodetasks.get i).id) :=
  ⟨nodup_setKey _ h.nodup, fun x hx => by
    rcases mem_setKey.1 hx with hx | rfl
    · exact h.sub x hx
    · exact List.mem_map_of_mem _ (List.get_mem _ _ _)⟩

theorem Drawn.length_le {r : List String} (h : Drawn nodetasks r) :
    r.length ≤ distinctIds nodetasks :=
  (List.subperm_of_subset h.nodup fun x hx => List.mem_dedup.2 (h.sub x hx)).length_le

theorem length_setKey_le (l : List String) (k : String) : (setKey l k).length ≤ l.length + 1 := by
  unfold setKey; split_ifs <;> simp

/-- No fuel ends the loop once it needs more IDs than the tasks have. -/
theorem releaseLoop_none_of_lt (hlt : (distinctIds nodetasks : Int) < shouldrelease) :
    ∀ (fuel k : Nat) (r : List String), Drawn nodetasks r →
      releaseLoop nodetasks shouldrelease draw fuel k r = none
  | 0, _, _, _ => rfl
  | fuel + 1, k, r, h => by
    have := h.length_le
    rw [releaseLoop, if_pos (by omega)]
    exact releaseLoop_none_of_lt hlt fuel (k + 1) _ (h.setKey _)

theorem releaseLoop_eq_some : ∀ {fuel k : Nat} {r₀ r : List String}, Drawn nodetasks r₀ →
    (r₀.length : Int) ≤ shouldrelease →
    releaseLoop nodetasks shouldrelease draw fuel k r₀ = some r →
      Drawn nodetasks r ∧ (r.length : Int) = shouldrelease
  | 0, _, _, _, _, _, h => nomatch h
  | fuel + 1, k, r₀, r, h₀, hle, h => by
    rw [releaseLoop] at h
    split at h
    · have := length_setKey_le r₀ (nodetasks.get (draw k)).id
      exact releaseLoop_eq_some (h₀.setKey _) (by omega) h
    · cases h
      exact ⟨h₀, by omega⟩

theorem releaseLoop_isSome (hle : shouldrelease ≤ distinctIds nodetasks) :
    ∀ (fuel k : Nat) (r : List String), Drawn nodetasks r →
      (∀ x ∈ nodetasks.map RunningTask.id,
        x ∈ r ∨ ∃ j, k ≤ j ∧ j < k + fuel ∧ (nodetasks.get (draw j)).id = x) →
      (releaseLoop nodetasks shouldrelease draw (fuel + 1) k r).isSome
  | 0, k, r, h, hx => by
    have hall : (nodetasks.map RunningTask.id).dedup ⊆ r := fun x hx' =>
      (hx x (List.mem_dedup.1 hx')).resolve_right fun ⟨j, h₁, h₂, _⟩ => by omega
    have := (List.subperm_of_subset (List.nodup_dedup _) hall).length_le
    rw [releaseLoop, if_neg (by unfold distinctIds at hle; omega)]
    rfl
  | fuel + 1, k, r, h, hx => by
    rw [releaseLoop]
    split
    · refine releaseLoop_isSome hle fuel (k + 1) _ (h.setKey _) fun x hxm => ?_
      rcases hx x hxm with hr | ⟨j, h₁, h₂, rfl⟩
      · exact .inl (mem_setKey.2 (.inl hr))
      · rcases Nat.eq_or_lt_of_le h₁ with rfl | h₁
        · exact .inl (mem_setKey.2 (.inr rfl))
        · exact .inr ⟨j, h₁, by omega, rfl⟩
    · rfl

theorem exists_draw_bound (hall : ∀ i, ∃ k, draw k = i) :
    ∃ K, ∀ x ∈ nodetasks.map RunningTask.id, ∃ j, j < K ∧ (nodetasks.get (draw j)).id = x := by
  choose f hf using hall
  refine ⟨Finset.univ.sup f + 1, fun x hx => ?_⟩
  obtain ⟨t, ht, rfl⟩ := List.mem_map.1 hx
  obtain ⟨i, rfl⟩ := List.get_of_mem ht
  exact ⟨f i, Nat.lt_succ_of_le (Finset.le_sup (Finset.mem_univ i)), by rw [hf i]⟩

end Loop

/-! ## `Balance` -/

theorem FairBalancer.balance_ok {e : FairBalancer} {nodetasks : List RunningTask}
    {current : AList fun _ : String => Int} {now : Nat} {draw : Nat → Fin nodetasks.length}
    {fuel : Nat} (h2 : 2 ≤ nodetasks.length)
    (hpos : 1 ≤ goInt ((current.lookup e.nodeid).getD 0 - e.desiredCount current)) :
    e.balance nodetasks (.ok current) now draw fuel =
      (releaseLoop nodetasks (goInt ((current.lookup e.nodeid).getD 0 - e.desiredCount current))
        draw fuel 0 []).map fun releasetasks =>
          (releasetasks, { e with delay := now + releasetasks.length * 1000000000 }) := by
  simp only [FairBalancer.balance, if_neg (Nat.not_lt.2 h2), FairBalancer.desiredCount_with_delay]
  rw [if_neg (Int.not_lt.2 hpos)]

/-- `Balance` never returns when the cluster's count for this node exceeds the desired count by
more than the number of distinct local task IDs, whatever the random draws and however long it
runs. -/
theorem FairBalancer.balance_loops_forever (e : FairBalancer) (nodetasks : List RunningTask)
    (current : AList fun _ : String => Int) (now : Nat) (h2 : 2 ≤ nodetasks.length)
    (hgt : (distinctIds nodetasks : Int) <
      goInt ((current.lookup e.nodeid).getD 0 - e.desiredCount current))
    (draw : Nat → Fin nodetasks.length) (fuel : Nat) :
    e.balance nodetasks (.ok current) now draw fuel = none := by
  rw [FairBalancer.balance_ok h2 (by omega), releaseLoop_none_of_lt hgt fuel 0 [] Drawn.nil]
  rfl

/-- Otherwise, for every stream that draws each position, some fuel ends `Balance` with
`max 0 (current[nodeid] - desiredCount(current))` distinct local IDs. -/
theorem FairBalancer.balance_releases {e : FairBalancer} {nodetasks : List RunningTask}
    {current : AList fun _ : String => Int} {now : Nat} {draw : Nat → Fin nodetasks.length}
    (h2 : 2 ≤ nodetasks.length)
    (hle : goInt ((current.lookup e.nodeid).getD 0 - e.desiredCount current) ≤
      distinctIds nodetasks)
    (hall : ∀ i, ∃ k, draw k = i) :
    ∃ fuel releasetasks e', e.balance nodetasks (.ok current) now draw fuel =
        some (releasetasks, e') ∧ Drawn nodetasks releasetasks ∧
      (releasetasks.length : Int) =
        max 0 (goInt ((current.lookup e.nodeid).getD 0 - e.desiredCount current)) := by
  by_cases hpos : 1 ≤ goInt ((current.lookup e.nodeid).getD 0 - e.desiredCount current)
  · obtain ⟨K, hK⟩ := exists_draw_bound hall
    have hsome := releaseLoop_isSome hle K 0 [] Drawn.nil fun x hx =>
      .inr (by simpa using hK x hx)
    obtain ⟨r, hr⟩ := Option.isSome_iff_exists.1 hsome
    obtain ⟨hd, hlen⟩ := releaseLoop_eq_some Drawn.nil (by simp; omega) hr
    refine ⟨K + 1, r, _, by rw [FairBalancer.balance_ok h2 hpos, hr]; rfl, hd, by omega⟩
  · refine ⟨0, [], { e with delay := 0 }, ?_, Drawn.nil, by simp; omega⟩
    simp only [FairBalancer.balance, if_neg (Nat.not_lt.2 h2), FairBalancer.desiredCount_with_delay]
    rw [if_pos (by omega)]

/-- The back-pressure of `Balance`: afterwards `CanClaim` refuses exactly before `N` seconds past
`now`, `N` being the number of tasks released, and never when none was released. -/
theorem FairBalancer.canClaim_after_balance {e e' : FairBalancer} {nodetasks : List RunningTask}
    {current : Except String (AList fun _ : String => Int)} {now : Nat}
    {draw : Nat → Fin nodetasks.length} {fuel : Nat} {r : List String}
    (h : e.balance nodetasks current now draw fuel = some (r, e')) (t : Nat) :
    (e'.canClaim t).2 = false ↔ r ≠ [] ∧ t < now + r.length * 1000000000 := by
  have hnone : ({ e with delay := 0 } : FairBalancer).canClaim t = (0, true) := by
    simp [FairBalancer.canClaim]
  simp only [FairBalancer.balance, FairBalancer.desiredCount_with_delay] at h
  split_ifs at h
  · cases h; simp [hnone]
  split at h
  · cases h; simp [hnone]
  split_ifs at h with hpos
  · cases h; simp [hnone]
  obtain ⟨r', hr', hre⟩ := Option.map_eq_some'.1 h
  cases hre
  have hlen := (releaseLoop_eq_some Drawn.nil (by simp; omega) hr').2
  have hne : r ≠ [] := fun hr => by subst hr; simp at hlen; omega
  simp only [FairBalancer.canClaim, ne_eq, hne, not_false_eq_true, true_and]
  split_ifs with ht <;> simpa using ht

/-! ## A count map that disagrees with the local tasks -/

/-- `NodeTaskCount()` reporting ten tasks on `n1` and none on `n2`. -/
def skewedCounts : AList fun _ : String => Int :=
  ((∅ : AList fun _ : String => Int).insert "n2" 0).insert "n1" 10

theorem defaultThreshold_val :
    defaultThreshold.val = .finite (5404319552844595 / 4503599627370496) := by
  have hb : defaultThreshold.bits.toNat = 4608083138725491507 := rfl
  simp only [Float64.val, hb]
  norm_num

/-- `float64(5) * 1.2` is `6`: the exact product is a quarter of a gap below `6`. -/
theorem mul_defaultThreshold_five :
    (roundFloat64 5).mul defaultThreshold.val = .finite 6 := by
  have hq : |(5 : ℚ) * (5404319552844595 / 4503599627370496)| =
      27021597764222975 / 4503599627370496 := by norm_num [abs_of_pos]
  have hr : roundHalfEven ((5 : ℚ) * (5404319552844595 / 4503599627370496) / 2 ^ (2 - 52 : ℤ)) =
      6755399441055743 + 1 :=
    roundHalfEven_of_gt (by rw [Int.floor_eq_iff]; norm_num) (by norm_num)
  rw [show (5 : ℚ) = ((5 : ℤ) : ℚ) by norm_num, roundFloat64_intCast (by norm_num), Int.cast_ofNat,
    defaultThreshold_val, FloatVal.mul,
    roundFloat64_of_binade (e := 2) (by norm_num) (by rw [hq]; norm_num) (by rw [hq]; norm_num)
      (by rw [hr]; norm_num), hr]
  norm_num

theorem desiredCount_skewedCounts : (newDefaultFairBalancer "n1").desiredCount skewedCounts = 6 := by
  have he : skewedCounts.entries = [⟨"n1", 10⟩, ⟨"n2", 0⟩] := rfl
  have htotal : goInt (goInt (0 + 10) + 0) = 10 := by decide
  have havg : Int.tdiv 10 2 = 5 := by decide
  simp only [FairBalancer.desiredCount, he, List.foldl_cons, List.foldl_nil, htotal,
    List.length_cons, List.length_nil, newDefaultFairBalancer, newDefaultFairBalancerWithThreshold]
  rw [if_pos (by norm_num)]
  norm_num [havg, mul_defaultThreshold_five, FloatVal.ceil, FloatVal.toGoInt]

/-- The draws `0, 1, 0, 1, …`, which hit both positions of a two-task list. -/
def alternating (k : Nat) : Fin [runningA, runningB].length := ⟨k % 2, Nat.mod_lt _ (by decide)⟩

theorem balance_loops_forever_skewed :
    2 ≤ [runningA, runningB].length ∧
    (distinctIds [runningA, runningB] : Int) <
      goInt ((skewedCounts.lookup (newDefaultFairBalancer "n1").nodeid).getD 0 -
        (newDefaultFairBalancer "n1").desiredCount skewedCounts) ∧
    (newDefaultFairBalancer "n1").balance [runningA, runningB] (.ok skewedCounts) 0 alternating
      1000 = none := by
  have hgt : (distinctIds [runningA, runningB] : Int) <
      goInt ((skewedCounts.lookup (newDefaultFairBalancer "n1").nodeid).getD 0 -
        (newDefaultFairBalancer "n1").desiredCount skewedCounts) := by
    rw [desiredCount_skewedCounts]; decide
  exact ⟨by decide, hgt, FairBalancer.balance_loops_forever _ _ _ 0 (by decide) hgt _ 1000⟩

/-! ## A count map the local tasks can meet -/

/-- `NodeTaskCount()` reporting four tasks on `n1` and none on `n2`: the desired count is
`⌈2 * 1.2⌉ = 3`, so one task is to be released. -/
def shedCounts : AList fun _ : String => Int :=
  ((∅ : AList fun _ : String => Int).insert "n2" 0).insert "n1" 4

theorem mul_defaultThreshold_two :
    (roundFloat64 2).mul defaultThreshold.val =
      .finite (5404319552844595 / 2251799813685248) := by
  have hq : |(2 : ℚ) * (5404319552844595 / 4503599627370496)| =
      5404319552844595 / 2251799813685248 := by norm_num [abs_of_pos]
  have hr : roundHalfEven ((2 : ℚ) * (5404319552844595 / 4503599627370496) / 2 ^ (1 - 52 : ℤ)) =
      5404319552844595 :=
    roundHalfEven_of_lt (by rw [Int.floor_eq_iff]; norm_num) (by norm_num)
  rw [show (2 : ℚ) = ((2 : ℤ) : ℚ) by norm_num, roundFloat64_intCast (by norm_num), Int.cast_ofNat,
    defaultThreshold_val, FloatVal.mul,
    roundFloat64_of_binade (e := 1) (by norm_num) (by rw [hq]; norm_num) (by rw [hq]; norm_num)
      (by rw [hr]; norm_num [abs_of_pos]), hr]
  norm_num

theorem desiredCount_shedCounts : (newDefaultFairBalancer "n1").desiredCount shedCounts = 3 := by
  have he : shedCounts.entries = [⟨"n1", 4⟩, ⟨"n2", 0⟩] := rfl
  have htotal : goInt (goInt (0 + 4) + 0) = 4 := by decide
  have havg : Int.tdiv 4 2 = 2 := by decide
  simp only [FairBalancer.desiredCount, he, List.foldl_cons, List.foldl_nil, htotal,
    List.length_cons, List.length_nil, newDefaultFairBalancer, newDefaultFairBalancerWithThreshold]
  rw [if_pos (by norm_num)]
  have hceil : ⌈(5404319552844595 / 2251799813685248 : ℚ)⌉ = 3 := by
    rw [Int.ceil_eq_iff]; norm_num
  norm_num [havg, mul_defaultThreshold_two, FloatVal.ceil, FloatVal.toGoInt, hceil]

theorem alternating_surjective (i : Fin [runningA, runningB].length) : ∃ k, alternating k = i :=
  ⟨i.val, Fin.ext (Nat.mod_eq_of_lt i.isLt)⟩

theorem shedCounts_within :
    goInt ((shedCounts.lookup (newDefaultFairBalancer "n1").nodeid).getD 0 -
      (newDefaultFairBalancer "n1").desiredCount shedCounts) ≤ distinctIds [runningA, runningB] := by
  rw [desiredCount_shedCounts]; decide

theorem balance_releases_shed :
    2 ≤ [runningA, runningB].length ∧
    goInt ((shedCounts.lookup (newDefaultFairBalancer "n1").nodeid).getD 0 -
      (newDefaultFairBalancer "n1").desiredCount shedCounts) ≤ distinctIds [runningA, runningB] ∧
    (∀ i, ∃ k, alternating k = i) ∧
    ∃ fuel releasetasks e', (newDefaultFairBalancer "n1").balance [runningA, runningB]
        (.ok shedCounts) 0 alternating fuel = some (releasetasks, e') ∧
      Drawn [runningA, runningB] releasetasks ∧
      (releasetasks.length : Int) =
        max 0 (goInt ((shedCounts.lookup (newDefaultFairBalancer "n1").nodeid).getD 0 -
          (newDefaultFairBalancer "n1").desiredCount shedCounts)) :=
  ⟨by decide, shedCounts_within, alternating_surjective,
    FairBalancer.balance_releases (by decide) shedCounts_within alternating_surjective⟩

theorem balance_shed :
    (newDefaultFairBalancer "n1").balance [runningA, runningB] (.ok shedCounts) 0 alternating 2 =
      some (["a"], { newDefaultFairBalancer "n1" with delay := 1000000000 }) := by
  rw [FairBalancer.balance_ok (by decide) (by rw [desiredCount_shedCounts]; decide),
    desiredCount_shedCounts]
  rfl

theorem canClaim_after_balance_shed :
    (newDefaultFairBalancer "n1").balance [runningA, runningB] (.ok shedCounts) 0 alternating 2 =
      some (["a"], { newDefaultFairBalancer "n1" with delay := 1000000000 }) ∧
    ((({ newDefaultFairBalancer "n1" with delay := 1000000000 } : FairBalancer).canClaim 5).2 =
        false ↔ ["a"] ≠ [] ∧ 5 < 0 + ["a"].length * 1000000000) :=
  ⟨balance_shed, FairBalancer.canClaim_after_balance balance_shed 5⟩

end Metafora
