/-
# No task is left behind

What a wait for all tasks promises, for every order in which tasks and the caller take their
steps: nothing that was started is left when it is over, and it is over some time if everything
that is started ends. The wait that the schedule runs keeps the promise with every host.
-/

import Animation.Proofs.Tasks.Schedule

namespace Animation.Vigil

/-- When a wait is over, all tasks that were ever started have ended, those that tasks started
among them. Nothing but a task that has not ended keeps the wait from going on, and it is over some
time if all tasks end. Turns, time, courses of the caller, and the wait as the schedule runs it are
made of the steps that this is about. -/
theorem all_ended_after_wait :
    (∀ hasChannel v, Met hasChannel v →
      (∀ v', v.Leaves v' → (∀ k ∈ v'.started, v'.stage.hasEnded k = true) ∧
        v'.stage.runnable = [] ∧ v'.stage.nextWake? = none) ∧
      (v.caller ≠ .acting →
        (∃ v', v.Advances v') ∨ ∃ k, v.caller = .awaiting k ∧ v.IsActive k)) ∧
    (∀ hasChannel (run : Run hasChannel), run.Fair → run.Finite → run.Completes →
      ∀ n, (run.state n).caller ≠ .acting →
        ∃ m, n ≤ m ∧ (run.state m).Leaves (run.state (m + 1))) ∧
    ∀ {υ : Type} {pages : υ → List Stage} {host : Host υ}, host.OfCourses pages →
      ∀ hasChannel v, Met hasChannel v →
        (∀ rounds time, v.Takes (Script.moveTo host rounds time)) ∧
        (v.caller = .acting →
          (∀ {α : Type} {x : Script υ α}, Script.Course pages x → v.Takes x) ∧
          ∀ rounds duration u w',
            ((Script.waitForTasks host rounds duration).run ⟨v.stage, u⟩ = (.ok true, w') →
              ∃ v₁ v₂, v.Steps v₁ ∧ v₁.Leaves v₂ ∧ v₂.stage = w'.stage ∧
                ∀ k ∈ v₂.started, w'.stage.hasEnded k = true) ∧
            ((Script.waitForTasks host rounds duration).run ⟨v.stage, u⟩ = (.ok false, w') →
              ∃ v₁ k, v.Steps v₁ ∧ v₁.caller = .awaiting k ∧ v₁.IsActive k)) := by
  refine ⟨fun hasChannel v met => ⟨fun v' leaves => ?_, fun waits => ?_⟩,
    fun hasChannel run fair finite completes n waits => fair.exists_leaves finite completes waits,
    fun hh hasChannel v met => ⟨fun rounds time => ?_, fun acting => ⟨fun course => ?_,
      fun rounds duration u w' => ?_⟩⟩⟩
  · have quiet : v'.Quiet := met.kept.ended_of_leaves leaves
    exact ⟨quiet, (leaves.step.kept met.kept).idle_of_quiet quiet⟩
  · exact (met.kept.ready_or_active waits).imp_left Ready.exists_advances
  · exact met.kept.takes_moveTo hh.stirring (fun code => (hh.resume code).stirring) rounds time
  · exact met.kept.takes_of_stirring (.inl acting) course.stirring
  · obtain ⟨v₁, steps, stage, empty, givesUp⟩ := met.kept.waited_waitForTasks hh.stirring
      (fun code => (hh.resume code).stirring) acting rounds duration u
    constructor
    · intro answer
      rw [answer] at stage empty
      obtain ⟨polling, empty⟩ := empty rfl
      have leaves : v₁.Leaves { v₁ with caller := .acting } := ⟨polling, empty, rfl⟩
      refine ⟨v₁, _, steps, leaves, stage, fun k mem => ?_⟩
      rw [← stage]
      exact (steps.kept met.kept).ended_of_leaves leaves k mem
    · intro answer
      rw [answer] at givesUp
      exact givesUp rfl

namespace Errand

/-- The caller has a first task spawned and waits; that one has a second spawned while it is waited
for, and ends; the second is aborted. -/
def move : Nat → Vigil → Vigil
  | 0, v | 3, v =>
      { v with
        stage := (v.stage.spawn .idle).1
        started := v.started ++ (v.stage.spawn .idle).2.toList }
  | 1, v => { v with caller := .polling }
  | 2, v => { v with caller := .awaiting ⟨0⟩ }
  | 4, v => { v with stage := v.stage.endTask (.finished none) ⟨0⟩ }
  | 5, v => { v with stage := v.stage.dropFront, caller := .polling }
  | 6, v => { v with caller := .awaiting ⟨1⟩ }
  | 7, v => { v with stage := v.stage.abort ⟨1⟩ }
  | 8, v => { v with stage := v.stage.endTask .aborted ⟨1⟩ }
  | 9, v => { v with stage := v.stage.dropFront, caller := .polling }
  | 10, v => { v with caller := .acting }
  | _, v => v

def state : Nat → Vigil
  | 0 => opening true
  | n + 1 => move n (state n)

theorem step : ∀ n, state (n + 1) = state n ∨ (state n).Step (state (n + 1))
  | 0 => .inr (.spawn (.inl rfl) .idle)
  | 1 => .inr (.call rfl)
  | 2 => .inr (.receive rfl rfl)
  | 3 => .inr (.spawn (.inr ⟨⟨0⟩, by decide, rfl⟩) .idle)
  | 4 => .inr (.finish ⟨by decide, rfl⟩ _)
  | 5 => .inr (.hear rfl rfl)
  | 6 => .inr (.receive rfl rfl)
  | 7 => .inr (.abort _)
  | 8 => .inr (.finish ⟨by decide, rfl⟩ _)
  | 9 => .inr (.hear rfl rfl)
  | 10 => .inr (.leave rfl rfl)
  | _ + 11 => .inl rfl

def run : Run true := ⟨state, rfl, step⟩

theorem state_of_le {n : Nat} (le : 11 ≤ n) : state n = state 11 := by
  induction n, le using Nat.le_induction with
  | base => rfl
  | succ n le ih =>
      obtain ⟨m, rfl⟩ := Nat.exists_eq_add_of_le' le
      exact ih

theorem started_among (n : Nat) : (state n).started <+: [⟨0⟩, ⟨1⟩] := by
  have both : (state 11).started = [⟨0⟩, ⟨1⟩] := by decide +kernel
  have later : (run.state n).started <+: (run.state (n + 11)).started :=
    Run.started_mono (Nat.le_add_right n 11)
  rw [← both, ← state_of_le (Nat.le_add_left 11 n)]
  exact later

theorem finite : run.Finite := ⟨2, fun n => (started_among n).length_le⟩

theorem completes : run.Completes := by
  intro n k mem
  refine ⟨n + 11, Nat.le_add_right n 11, ?_⟩
  show (state (n + 11)).stage.hasEnded k = true
  rw [state_of_le (Nat.le_add_left 11 n)]
  have ended : ∀ k ∈ [(⟨0⟩ : Ref .task), ⟨1⟩], (state 11).stage.hasEnded k = true := by
    decide +kernel
  exact ended k ((started_among n).subset mem)

theorem fair : run.Fair := by
  intro n ready
  refine ⟨10, ?_, nofun⟩
  by_contra after
  have resting : run.state n = state 11 := state_of_le (by omega)
  rcases ready with polling | ⟨k, awaiting, -⟩
  · rw [resting] at polling
    exact nomatch polling
  · rw [resting] at awaiting
    exact nomatch awaiting

/-- The first routine sleeps, and then has the second spawned. -/
def host : Host Bool :=
  { Host.silent Bool with
    resume := fun code => do
      let w ← get
      if code = 0 then
        if w.user then
          let _ ← Script.owning [] (Script.produce (·.spawn (.routine 1 none)))
          return .ends none
        else
          modify fun w => { w with user := true }
          return .sleeps 300
      else return .ends (some .outsideRuntime) }

theorem host_ofCourses : host.OfCourses fun _ => [] where
  notified _ _ := .pure ()
  called _ _ := .pure 0
  driven _ _ := .pure ()
  reacts _ _ := .pure ()
  resume code := by
    have spawns : Script.Offered (Host.silent Bool) []
        (Script.produce (·.spawn (.routine 1 none))) := .spawn (.routine 1 none)
    refine .bind .look fun w => ?_
    split
    · split
      · exact .bind (.offered spawns) fun _ => .pure _
      · exact .bind (.write fun _ _ mem => nomatch mem) fun _ => .pure _
    · exact .pure _

/-- The first routine is spawned. -/
def sent : Vigil := ⟨((Stage.empty true).spawn (.routine 0 none)).1, .acting, [⟨0⟩]⟩

theorem met_sent : Met true sent := .single (.spawn (.inl rfl) (.routine 0 none))

/-- Then it has its first turn, and falls asleep. -/
def asleep : World Bool := ((Script.moveTo host 8 0).run ⟨sent.stage, false⟩).2

theorem run_waitForTasks :
    ∃ w', (Script.waitForTasks host 8 400).run asleep = (.ok true, w') :=
  Script.exists_run_eq (by decide +kernel)

end Errand

/-- The wait for a task and for another one that it has spawned is over some time, in an order of
steps of their own and in the order of the schedule, and then both have ended. -/
theorem all_ended_after_wait_errand :
    (∃ m, 2 ≤ m ∧ (Errand.run.state m).Leaves (Errand.run.state (m + 1)) ∧
      ∀ k ∈ (Errand.run.state (m + 1)).started,
        (Errand.run.state (m + 1)).stage.hasEnded k = true) ∧
    ∃ started w', (Script.waitForTasks Errand.host 8 400).run Errand.asleep = (.ok true, w') ∧
      ∃ v₁ v₂, Steps ⟨Errand.asleep.stage, .acting, started⟩ v₁ ∧ v₁.Leaves v₂ ∧
        v₂.stage = w'.stage ∧ ∀ k ∈ v₂.started, w'.stage.hasEnded k = true := by
  obtain ⟨safe, live, scheduled⟩ := all_ended_after_wait
  constructor
  · obtain ⟨m, le, leaves⟩ := live true Errand.run Errand.fair Errand.finite Errand.completes 2
      nofun
    exact ⟨m, le, leaves, ((safe true _ (Errand.run.met m)).1 _ leaves).1⟩
  · obtain ⟨started, steps⟩ :=
      (scheduled Errand.host_ofCourses true _ Errand.met_sent).1 8 0 false
    have met : Met true ⟨Errand.asleep.stage, .acting, started⟩ := Errand.met_sent.trans steps
    obtain ⟨w', answer⟩ := Errand.run_waitForTasks
    have waits := ((scheduled Errand.host_ofCourses true _ met).2 rfl).2 8 400
      Errand.asleep.user w'
    exact ⟨started, w', answer, waits.1 answer⟩

end Animation.Vigil
