/-
# A wait comes to its end

The steps of a vigil may come in any order, and it may rest at any time. A run is fair if whoever
waits and can go on does so at some time. If only finitely many tasks are started in a fair run,
and all of them end, then every wait is over some time: once all tasks have ended nobody has any
more of them started, and the caller only has to empty the channel.
-/

import Animation.Proofs.Tasks.Vigil
import Mathlib.Order.Nat
import Mathlib.Data.Nat.Find

namespace Animation.Vigil

variable {v v' : Vigil}

/-- What was started stays started. -/
theorem Step.started_mono (step : v.Step v') : v.started <+: v'.started := by
  cases step with
  | spawn _ job => exact List.prefix_append ..
  | aside _ _ | time _ | abort _ | sleep _ _ | finish _ _ | call _ | receive _ _ | hear _ _
  | leave _ _ => exact List.prefix_refl _

theorem Steps.started_mono (steps : v.Steps v') : v.started <+: v'.started := by
  induction steps with
  | refl => exact List.prefix_refl _
  | tail _ last ih => exact ih.trans last.started_mono

/-- What has ended stays so. -/
theorem Step.hasEnded (step : v.Step v') (h : v.Kept) {k : Ref .task} (mem : k ∈ v.started)
    (ended : v.stage.hasEnded k = true) : v'.stage.hasEnded k = true := by
  cases step with
  | aside tasks _ => rwa [Stage.hasEnded, tasks]
  | spawn _ job => rwa [Stage.hasEnded, Stage.get_spawn job (h.added k mem)]
  | abort j => exact (Stage.hasEnded_eq_of_phase_eq (v.stage.phase_abort j k)).trans ended
  | sleep active wake => exact (Stage.hasEnded_sleepUntil active.2 wake k).trans ended
  | @finish j active how =>
      unfold Stage.hasEnded
      rw [Stage.phase_endTask]
      split
      · rfl
      · exact ended
  | time _ | call _ | receive _ _ | hear _ _ | leave _ _ => exact ended

/-- A step after which the caller no longer waits ends the wait. -/
theorem Step.leaves (step : v.Step v') (waits : v.caller ≠ .acting) (acts : v'.caller = .acting) :
    v.Leaves v' := by
  cases step with
  | leave polling empty => exact ⟨polling, empty, rfl⟩
  | receive _ _ | hear _ _ => exact nomatch acts
  | aside _ _ | time _ | spawn _ _ | abort _ | sleep _ _ | finish _ _ => exact absurd acts waits
  | call acting => exact absurd acting waits

/-- All tasks have ended. -/
def Quiet (v : Vigil) : Prop := ∀ k ∈ v.started, v.stage.hasEnded k = true

theorem Quiet.not_active (quiet : v.Quiet) (k : Ref .task) : ¬ v.IsActive k :=
  fun active => nomatch (quiet k active.1).symm.trans active.2

/-- Then nobody has a turn, and nobody will wake up. -/
theorem Kept.idle_of_quiet (h : v.Kept) (quiet : v.Quiet) :
    v.stage.runnable = [] ∧ v.stage.nextWake? = none := by
  have ended : ∀ k ∈ v.stage.agenda.queue, (v.stage.tasks.get k).phase.isEnded = true :=
    fun k mem => quiet k (h.started_of_queue k mem)
  constructor
  · refine List.filter_eq_nil_iff.2 fun k mem runnable => ?_
    exact nomatch (ended k mem).symm.trans (Stage.hasEnded_of_isRunnable runnable)
  · refine List.min?_eq_none_iff.2 (List.filterMap_eq_nil_iff.2 fun k mem => ?_)
    have ended := ended k mem
    cases phase : (v.stage.tasks.get k).phase with
    | ready | ended _ => rfl
    | sleeping _ => exact nomatch (congrArg Phase.isEnded phase).symm.trans ended

/-- How many steps of its own the caller has to take at most until its wait is over, if no more
tasks are reported. -/
def remaining (v : Vigil) : Nat :=
  match v.caller with
  | .acting => 0
  | .polling => 2 * v.stage.reported.length + 1
  | .awaiting _ => 2 * v.stage.reported.length

theorem remaining_congr (caller : v'.caller = v.caller)
    (channel : v'.stage.agenda.channel = v.stage.agenda.channel) :
    v'.remaining = v.remaining := by
  unfold remaining Stage.reported
  rw [caller, channel]

/-- When all tasks have ended, only the caller can do anything about its wait. -/
theorem Step.remaining_of_quiet (step : v.Step v') (h : v.Kept) (quiet : v.Quiet)
    (waits : v.caller ≠ .acting) :
    v'.caller = v.caller ∧ v'.remaining = v.remaining ∨ v'.remaining < v.remaining := by
  cases step with
  | aside _ agenda => exact .inl ⟨rfl, remaining_congr rfl (congrArg Agenda.channel agenda)⟩
  | time _ => exact .inl ⟨rfl, rfl⟩
  | abort k => exact .inl ⟨rfl, remaining_congr rfl (v.stage.channel_abort k)⟩
  | spawn acts _ =>
      rcases acts with acting | ⟨k, active⟩
      · exact absurd acting waits
      · exact absurd active (quiet.not_active k)
  | sleep active _ => exact absurd active (quiet.not_active _)
  | finish active _ => exact absurd active (quiet.not_active _)
  | call acting => exact absurd acting waits
  | receive polling _ =>
      right
      unfold remaining
      rw [polling]
      exact Nat.lt_succ_self _
  | @hear k awaiting _ =>
      right
      obtain ⟨rest, eq⟩ := h.front k awaiting
      unfold remaining
      rw [awaiting]
      dsimp only
      rw [Stage.reported_dropFront, eq, List.tail_cons, List.length_cons]
      omega
  | leave polling _ =>
      right
      unfold remaining
      rw [polling]
      exact Nat.succ_pos _

/-- Vigils one after another, each of them the same as before or reached by one step. -/
structure Run (hasChannel : Bool) where
  state : Nat → Vigil
  start : state 0 = opening hasChannel
  step : ∀ n, state (n + 1) = state n ∨ (state n).Step (state (n + 1))

namespace Run

variable {hasChannel : Bool} (run : Run hasChannel)

/-- Whoever can go on with a wait does so at some time. -/
def Fair : Prop :=
  ∀ n, (run.state n).Ready → ∃ m, n ≤ m ∧ (run.state (m + 1)).caller ≠ (run.state m).caller

/-- Only so many tasks are ever started. -/
def Finite : Prop := ∃ most, ∀ n, (run.state n).started.length ≤ most

/-- Every task that is started ends some time. -/
def Completes : Prop :=
  ∀ n, ∀ k ∈ (run.state n).started, ∃ m, n ≤ m ∧ (run.state m).stage.hasEnded k = true

theorem met (n : Nat) : Met hasChannel (run.state n) := by
  induction n with
  | zero =>
      rw [run.start]
      exact .refl
  | succ n ih =>
      rcases run.step n with same | step
      · rw [same]
        exact ih
      · exact ih.tail step

variable {run}

theorem started_mono {m n : Nat} (le : m ≤ n) :
    (run.state m).started <+: (run.state n).started := by
  induction n, le using Nat.le_induction with
  | base => exact List.prefix_refl _
  | succ n _ ih =>
      rcases run.step n with same | step
      · rwa [same]
      · exact ih.trans step.started_mono

theorem hasEnded_of_le {m n : Nat} (le : m ≤ n) {k : Ref .task} (mem : k ∈ (run.state m).started)
    (ended : (run.state m).stage.hasEnded k = true) :
    (run.state n).stage.hasEnded k = true := by
  induction n, le using Nat.le_induction with
  | base => exact ended
  | succ n le ih =>
      rcases run.step n with same | step
      · rwa [same]
      · exact step.hasEnded (run.met n).kept ((started_mono le).subset mem) ih

/-- From some time on no more tasks are started. -/
theorem Finite.exists_started_eq (finite : run.Finite) :
    ∃ m, ∀ n, m ≤ n → (run.state n).started = (run.state m).started := by
  classical
  have least := Nat.find_spec finite
  obtain ⟨m, reached⟩ : ∃ m, Nat.find finite ≤ (run.state m).started.length := by
    cases bound : Nat.find finite with
    | zero => exact ⟨0, Nat.zero_le _⟩
    | succ b =>
        have smaller := Nat.find_min finite (m := b) (by omega)
        rw [not_forall] at smaller
        obtain ⟨m, more⟩ := smaller
        exact ⟨m, by omega⟩
  refine ⟨m, fun n le => ?_⟩
  exact ((started_mono le).eq_of_length_le ((least n).trans reached)).symm

/-- Of tasks that all end some time, all have ended at one time. -/
theorem Completes.exists_ended (completes : run.Completes) {m : Nat} {tasks : List (Ref .task)}
    (started : ∀ k ∈ tasks, k ∈ (run.state m).started) :
    ∃ n, m ≤ n ∧ ∀ k ∈ tasks, (run.state n).stage.hasEnded k = true := by
  induction tasks with
  | nil => exact ⟨m, Nat.le_refl m, fun k mem => nomatch mem⟩
  | cons first rest ih =>
      obtain ⟨n, le, others⟩ := ih fun k mem => started k (List.mem_cons_of_mem first mem)
      have mem {k : Ref .task} (hk : k ∈ first :: rest) : k ∈ (run.state n).started :=
        (started_mono le).subset (started k hk)
      obtain ⟨n', le', ended⟩ := completes n first (mem (List.mem_cons_self ..))
      refine ⟨n', le.trans le', fun k hk => ?_⟩
      rcases List.mem_cons.1 hk with rfl | later
      · exact ended
      · exact hasEnded_of_le le' (mem hk) (others k later)

/-- If only so many tasks are started and all of them end, then all have ended from some time on. -/
theorem Finite.exists_quiet (finite : run.Finite) (completes : run.Completes) :
    ∃ m, ∀ n, m ≤ n → (run.state n).Quiet := by
  obtain ⟨m, settled⟩ := finite.exists_started_eq
  obtain ⟨m', le, ended⟩ := completes.exists_ended (m := m) fun _ mem => mem
  refine ⟨m', fun n le' k mem => ?_⟩
  rw [settled n (le.trans le')] at mem
  exact hasEnded_of_le le' ((started_mono le).subset mem) (ended k mem)

/-- Until a wait is over the caller waits. -/
theorem waits_of_le {n m : Nat} (le : n ≤ m) (waits : (run.state n).caller ≠ .acting)
    (lasts : ∀ i, n ≤ i → ¬ (run.state i).Leaves (run.state (i + 1))) :
    (run.state m).caller ≠ .acting := by
  induction m, le using Nat.le_induction with
  | base => exact waits
  | succ m le ih =>
      rcases run.step m with same | step
      · rwa [same]
      · exact fun acts => lasts m le (step.leaves ih acts)

/-- In a wait that is never over, what remains to be done never becomes more once all tasks have
ended. -/
theorem remaining_le {n m : Nat} (le : n ≤ m) (quiet : ∀ i, n ≤ i → (run.state i).Quiet)
    (waits : ∀ i, n ≤ i → (run.state i).caller ≠ .acting) :
    (run.state m).remaining ≤ (run.state n).remaining := by
  induction m, le using Nat.le_induction with
  | base => exact Nat.le_refl _
  | succ m le ih =>
      rcases run.step m with same | step
      · rwa [same]
      · rcases step.remaining_of_quiet (run.met m).kept (quiet m le) (waits m le) with
          ⟨-, same⟩ | less
        · rwa [same]
        · exact (Nat.le_of_lt less).trans ih

/-- In a fair run a wait cannot last for ever once all tasks have ended: the caller always has
fewer steps left to take. -/
theorem Fair.not_lasting (fair : run.Fair) {n : Nat} (quiet : ∀ i, n ≤ i → (run.state i).Quiet)
    (waits : ∀ i, n ≤ i → (run.state i).caller ≠ .acting) : False := by
  induction left : (run.state n).remaining using Nat.strong_induction_on generalizing n with
  | _ left ih =>
      have ready : (run.state n).Ready := by
        rcases (run.met n).kept.ready_or_active (waits n (Nat.le_refl n)) with
          ready | ⟨k, -, active⟩
        · exact ready
        · exact absurd active ((quiet n (Nat.le_refl n)).not_active k)
      obtain ⟨m, le, moved⟩ := fair n ready
      have before := remaining_le le quiet waits
      rcases run.step m with same | step
      · exact moved (congrArg Vigil.caller same)
      · rcases step.remaining_of_quiet (run.met m).kept (quiet m le) (waits m le) with
          ⟨same, -⟩ | less
        · exact moved same
        · exact ih _ (left ▸ Nat.lt_of_lt_of_le less before)
            (fun i le' => quiet i (by omega)) (fun i le' => waits i (by omega)) rfl

/-- If only so many tasks are ever started, all of them end, and the caller goes on whenever it
can, then every wait is over some time. -/
theorem Fair.exists_leaves (fair : run.Fair) (finite : run.Finite) (completes : run.Completes)
    {n : Nat} (waits : (run.state n).caller ≠ .acting) :
    ∃ m, n ≤ m ∧ (run.state m).Leaves (run.state (m + 1)) := by
  by_contra none
  have lasts : ∀ i, n ≤ i → ¬ (run.state i).Leaves (run.state (i + 1)) :=
    fun i le leaves => none ⟨i, le, leaves⟩
  obtain ⟨m, quiet⟩ := finite.exists_quiet completes
  exact fair.not_lasting (n := max n m) (fun i le => quiet i (by omega))
    fun i le => waits_of_le (by omega) waits lasts

end Run

end Animation.Vigil
