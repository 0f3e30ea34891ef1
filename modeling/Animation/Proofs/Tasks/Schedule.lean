/-
# The schedule keeps watch

Courses of the caller, turns of tasks, and the wait for all tasks as the schedule runs it are made
of the steps of a vigil: while a task has its turn it has not ended, and only a task that was
started has a turn. So what is known of all orders of steps is known of the schedule.
-/

import Animation.Proofs.Script.Stirring
import Animation.Proofs.Tasks.Fairness

namespace Animation

variable {υ α β : Type}

/-- Whatever a host does are courses. -/
structure Host.OfCourses (pages : υ → List Stage) (host : Host υ) : Prop where
  notified : ∀ callback change, Script.Course pages (host.notified callback change)
  called : ∀ callback payload, Script.Course pages (host.called callback payload)
  driven : ∀ callback alpha, Script.Course pages (host.driven callback alpha)
  reacts : ∀ a call, Script.Course pages (host.reacts a call)
  resume : ∀ code, Script.Course pages (host.resume code)

theorem Host.OfCourses.stirring {pages : υ → List Stage} {host : Host υ}
    (h : host.OfCourses pages) : host.Stirring where
  notified callback change := (h.notified callback change).stirring
  called callback payload := (h.called callback payload).stirring
  driven callback alpha := (h.driven callback alpha).stirring
  reacts a call := (h.reacts a call).stirring

namespace Stage

variable {s s' : Stage} {k : Ref .task}

theorem Stir.lasting (h : s.Stir s') : s.Lasting s' := by
  cases h with
  | aside tasks _ => exact .of_tasks_eq tasks
  | spawn job => exact s.lasting_spawn job
  | abort k => exact s.lasting_abort k

theorem drainChannel_eq_self (kept : s.reported.dropWhile s.hasEnded = s.reported) :
    Script.drainChannel s = s := by
  unfold reported at kept
  unfold Script.drainChannel
  cases channel : s.agenda.channel with
  | none => rw [Option.map_none, ← channel]
  | some reported =>
      rw [channel, Option.getD_some] at kept
      rw [Option.map_some, kept, ← channel]

theorem drainChannel_of_ended {rest : List (Ref .task)} (front : s.reported = k :: rest)
    (ended : s.hasEnded k = true) : Script.drainChannel s = Script.drainChannel s.dropFront := by
  unfold reported at front
  unfold Script.drainChannel dropFront
  cases channel : s.agenda.channel with
  | none => rfl
  | some reported =>
      rw [channel, Option.getD_some] at front
      subst front
      simp only [Option.map_some, List.tail_cons, List.dropWhile_cons_of_pos ended]
      rfl

end Stage

namespace Vigil

variable {v v' : Vigil} {k : Ref .task}

/-- A script that runs on the stage of a vigil takes steps of the vigil. -/
def Takes (v : Vigil) (x : Script υ α) : Prop :=
  ∀ u, ∃ started, v.Steps ⟨(x.run ⟨v.stage, u⟩).2.stage, v.caller, started⟩

theorem takes_pure (v : Vigil) (a : α) : v.Takes (pure a : Script υ α) := fun _ => ⟨_, .refl⟩

theorem Step.takes {f : Stage → Stage} (step : v.Step { v with stage := f v.stage }) :
    v.Takes (Script.change f : Script υ Unit) := fun _ => ⟨_, .single step⟩

theorem Takes.bind {x : Script υ α} {f : α → Script υ β} (hx : v.Takes x)
    (hf : ∀ a v', v.Steps v' → v'.caller = v.caller → v'.Takes (f a)) : v.Takes (x >>= f) := by
  intro u
  obtain ⟨started, first⟩ := hx u
  rw [Script.run_bind]
  cases answer : (x.run ⟨v.stage, u⟩).1 with
  | error fault => exact ⟨started, first⟩
  | ok a =>
      obtain ⟨started', next⟩ := hf a _ first rfl (x.run ⟨v.stage, u⟩).2.user
      exact ⟨started', first.trans next⟩

theorem takes_stage_bind {f : Stage → Script υ β} (hf : v.Takes (f v.stage)) :
    v.Takes (Script.stage >>= f) := hf

/-- Those who may act still may after they have stirred tasks. -/
structure StillActs (v v' : Vigil) : Prop where
  caller : v'.caller = v.caller
  isActive : ∀ k, v.IsActive k → v'.IsActive k

theorem StillActs.mayAct (h : v.StillActs v') (acts : v.MayAct) : v'.MayAct :=
  acts.imp h.caller.trans fun ⟨k, active⟩ => ⟨k, h.isActive k active⟩

theorem Kept.exists_step_of_stir (h : v.Kept) (acts : v.MayAct) {s : Stage}
    (stir : v.stage.Stir s) : ∃ started, v.Step ⟨s, v.caller, started⟩ ∧
      v.StillActs ⟨s, v.caller, started⟩ := by
  obtain ⟨started, step⟩ : ∃ started, v.Step ⟨s, v.caller, started⟩ := by
    cases stir with
    | aside tasks agenda => exact ⟨_, .aside tasks agenda⟩
    | spawn job => exact ⟨_, .spawn acts job⟩
    | abort k => exact ⟨_, .abort k⟩
  refine ⟨started, step, rfl, fun k active => ⟨step.started_mono.subset active.1, ?_⟩⟩
  exact (stir.lasting.hasEnded k (h.added k active.1)).trans active.2

/-- Whoever may act takes steps when tasks are stirred. -/
theorem Kept.exists_steps_of_stirs (h : v.Kept) (acts : v.MayAct) {s : Stage}
    (stirs : v.stage.Stirs s) : ∃ started, v.Steps ⟨s, v.caller, started⟩ ∧
      v.StillActs ⟨s, v.caller, started⟩ := by
  induction stirs with
  | refl => exact ⟨v.started, .refl, rfl, fun _ => id⟩
  | tail _ stir ih =>
      obtain ⟨_, before, still⟩ := ih
      obtain ⟨started, step, still'⟩ :=
        Kept.exists_step_of_stir (before.kept h) (still.mayAct acts) stir
      exact ⟨started, before.tail step, rfl, fun k active =>
        still'.isActive k (still.isActive k active)⟩

/-- A course of the caller, or of a task, takes steps. -/
theorem Kept.takes_of_stirring (h : v.Kept) (acts : v.MayAct) {x : Script υ α}
    (hx : x.Stirring) : v.Takes x := by
  intro u
  obtain ⟨started, steps, -⟩ := h.exists_steps_of_stirs acts (hx ⟨v.stage, u⟩)
  exact ⟨started, steps⟩

section Turns

variable {host : Host υ} (hh : host.Stirring) (resume : ∀ code, (host.resume code).Stirring)

/-- While a task stirs others it stays active. -/
theorem Kept.takes_stirring_bind (h : v.Kept) (active : v.IsActive k) {x : Script υ α}
    {f : α → Script υ β} (hx : x.Stirring)
    (hf : ∀ a v', Kept v' → v'.IsActive k → v'.Takes (f a)) : v.Takes (x >>= f) := by
  intro u
  obtain ⟨started, steps, still⟩ := h.exists_steps_of_stirs (.inr ⟨k, active⟩) (hx ⟨v.stage, u⟩)
  rw [Script.run_bind]
  split
  · next a _ =>
      obtain ⟨started', next⟩ := hf a _ (steps.kept h) (still.isActive k active)
        (x.run ⟨v.stage, u⟩).2.user
      exact ⟨started', steps.trans next⟩
  · exact ⟨started, steps⟩

theorem takes_conclude (active : v.IsActive k) (how : Ending) :
    v.Takes (Script.conclude how k : Script υ Unit) := (Step.finish active how).takes

theorem takes_rest (active : v.IsActive k) (wake : Nat) :
    v.Takes (Script.rest k wake : Script υ Unit) := by
  apply takes_stage_bind
  split
  · exact takes_conclude active _
  · exact (Step.sleep active wake).takes

include hh resume

theorem Kept.takes_work (h : v.Kept) (active : v.IsActive k) (row : Task) :
    v.Takes (Script.work host k row) := by
  unfold Script.work
  split
  · exact takes_pure v ()
  · exact takes_conclude active _
  · exact takes_stage_bind (takes_rest active _)
  · refine h.takes_stirring_bind active (Script.stirring_attempt (hh.nextFrame _))
      fun outcome v' _ active' => ?_
    rcases outcome with cause | (_ | _)
    · exact takes_conclude active' _
    · exact takes_conclude active' _
    · exact takes_rest active' _
  · refine h.takes_stirring_bind active (Script.stirring_attempt (resume _))
      fun outcome v' _ active' => ?_
    rcases outcome with cause | (duration | failure)
    · exact takes_conclude active' _
    · exact takes_stage_bind (takes_rest active' _)
    · exact takes_conclude active' _

theorem Kept.takes_takeTurn (h : v.Kept) (started : k ∈ v.started) :
    v.Takes (Script.takeTurn host k) := by
  apply takes_stage_bind
  dsimp only
  split
  · next runnable =>
      have active : v.IsActive k := ⟨started, Stage.hasEnded_of_isRunnable runnable⟩
      split
      · exact takes_conclude active _
      · exact h.takes_work hh resume active _
  · exact takes_pure v ()

theorem Kept.takes_turns (h : v.Kept) {tasks : List (Ref .task)}
    (started : ∀ k ∈ tasks, k ∈ v.started) :
    v.Takes (Script.forEach (Script.takeTurn host) tasks) := by
  induction tasks generalizing v with
  | nil => exact takes_pure v ()
  | cons k rest ih =>
      refine (h.takes_takeTurn hh resume (started k (List.mem_cons_self ..))).bind
        fun _ v' steps _ => ih (steps.kept h) fun j mem => ?_
      exact steps.started_mono.subset (started j (List.mem_cons_of_mem k mem))

theorem Kept.takes_settle (h : v.Kept) (rounds : Nat) : v.Takes (Script.settle host rounds) := by
  induction rounds generalizing v with
  | zero => exact takes_pure v ()
  | succ rounds ih =>
      apply takes_stage_bind
      split
      · exact takes_pure v ()
      · refine (h.takes_turns hh resume fun k mem => ?_).bind fun _ _ steps _ => ih (steps.kept h)
        exact h.started_of_queue k (List.mem_of_mem_filter mem)

theorem Kept.takes_moveTo (h : v.Kept) (rounds time : Nat) :
    v.Takes (Script.moveTo host rounds time) :=
  (Step.time time).takes.bind fun _ _ steps _ => (steps.kept h).takes_settle hh resume rounds

end Turns

/-- Whoever waits and drains the channel finds it empty, or waits for a task that is active. -/
theorem Kept.exists_steps_of_drain (h : v.Kept) (waits : v.caller ≠ .acting) :
    ∃ v', v.Steps v' ∧ v'.stage = Script.drainChannel v.stage ∧
      (v'.caller = .polling ∧ v'.stage.reported = [] ∨
        ∃ k, v'.caller = .awaiting k ∧ v'.IsActive k) := by
  induction reported : v.stage.reported generalizing v with
  | nil =>
      have drained : Script.drainChannel v.stage = v.stage :=
        Stage.drainChannel_eq_self (by rw [reported]; rfl)
      refine ⟨v, .refl, drained.symm, .inl ⟨?_, reported⟩⟩
      cases caller : v.caller with
      | acting => exact absurd caller waits
      | polling => rfl
      | awaiting k =>
          obtain ⟨rest, front⟩ := h.front k caller
          exact nomatch reported.symm.trans front
  | cons k rest ih =>
      -- The caller waits for the task at the front of the channel, or is about to.
      obtain ⟨v', steps, stage, awaiting⟩ :
          ∃ v', v.Steps v' ∧ v'.stage = v.stage ∧ v'.caller = .awaiting k := by
        cases caller : v.caller with
        | acting => exact absurd caller waits
        | polling =>
            exact ⟨_, .single (.receive caller ((queued_of_polling caller).trans reported)),
              rfl, rfl⟩
        | awaiting j =>
            obtain ⟨_, front⟩ := h.front j caller
            cases reported.symm.trans front
            exact ⟨v, .refl, rfl, caller⟩
      have h' := steps.kept h
      rw [← stage] at reported ⊢
      cases ended : v'.stage.hasEnded k with
      | false =>
          have drained : Script.drainChannel v'.stage = v'.stage := by
            refine Stage.drainChannel_eq_self ?_
            rw [reported, List.dropWhile_cons_of_neg (Bool.not_eq_true _ ▸ ended)]
          have mem : k ∈ v'.stage.reported := reported ▸ List.mem_cons_self ..
          exact ⟨v', steps, drained.symm, .inr ⟨k, awaiting, h'.started_of_reported k mem, ended⟩⟩
      | true =>
          have heard : v'.Step { v' with stage := v'.stage.dropFront, caller := .polling } :=
            .hear awaiting ended
          have dropped : v'.stage.dropFront.reported = rest := by
            rw [Stage.reported_dropFront, reported, List.tail_cons]
          obtain ⟨last, more, drained, found⟩ := ih (heard.kept h') nofun dropped
          refine ⟨last, (steps.tail heard).trans more, ?_, found⟩
          rw [drained, Stage.drainChannel_of_ended reported ended]

/-- What comes of a wait: the caller has found the channel empty, or has given up while it waited
for a task that was active. -/
def Waited (v : Vigil) (result : Except Fault Bool × World υ) : Prop :=
  ∃ v', v.Steps v' ∧ v'.stage = result.2.stage ∧
    (result.1 = .ok true → v'.caller = .polling ∧ v'.queued = []) ∧
    (result.1 = .ok false → ∃ v₁ k, v.Steps v₁ ∧ v₁.caller = .awaiting k ∧ v₁.IsActive k)

theorem Waited.of_steps {result : Except Fault Bool × World υ} (steps : v.Steps v')
    (h : v'.Waited result) : v.Waited result := by
  obtain ⟨v₂, more, stage, empty, givesUp⟩ := h
  refine ⟨v₂, steps.trans more, stage, empty, fun answer => ?_⟩
  obtain ⟨v₁, k, before, awaiting⟩ := givesUp answer
  exact ⟨v₁, k, steps.trans before, awaiting⟩

/-- The channel is empty. -/
theorem waited_true (polling : v.caller = .polling) (empty : v.stage.reported = []) (u : υ) :
    v.Waited ((pure true : Script υ Bool).run ⟨v.stage, u⟩) :=
  ⟨v, .refl, rfl, fun _ => ⟨polling, (queued_of_polling polling).trans empty⟩, nofun⟩

/-- The caller gives up. -/
theorem Takes.waited_false {x : Script υ α} (hx : v.Takes x) (awaiting : v.caller = .awaiting k)
    (active : v.IsActive k) (u : υ) :
    v.Waited ((x >>= fun _ => pure false).run ⟨v.stage, u⟩) := by
  obtain ⟨started, steps⟩ := hx u
  rw [Script.run_bind]
  split
  · exact ⟨_, steps, rfl, nofun, fun _ => ⟨v, k, .refl, awaiting, active⟩⟩
  · exact ⟨_, steps, rfl, nofun, nofun⟩

theorem Takes.waited_bind {x : Script υ α} {f : α → Script υ Bool} (hx : v.Takes x)
    (hf : ∀ a v', v.Steps v' → v'.caller = v.caller → ∀ u, v'.Waited ((f a).run ⟨v'.stage, u⟩))
    (u : υ) : v.Waited ((x >>= f).run ⟨v.stage, u⟩) := by
  obtain ⟨started, steps⟩ := hx u
  rw [Script.run_bind]
  split
  · next a _ => exact .of_steps steps (hf a _ steps rfl _)
  · exact ⟨_, steps, rfl, nofun, nofun⟩

theorem Kept.waited_awaitTasks {host : Host υ} (hh : host.Stirring)
    (resume : ∀ code, (host.resume code).Stirring) (h : v.Kept) (waits : v.caller ≠ .acting)
    (rounds limit moves : Nat) (u : υ) :
    v.Waited ((Script.awaitTasks host rounds limit moves).run ⟨v.stage, u⟩) := by
  induction moves generalizing v u with
  | zero =>
      obtain ⟨v', steps, drained, found⟩ := h.exists_steps_of_drain waits
      unfold Script.awaitTasks
      rw [Script.run_change_bind, Script.run_stage_bind, ← drained]
      refine .of_steps steps ?_
      show v'.Waited ((pure v'.stage.reported.isEmpty : Script υ Bool).run ⟨v'.stage, u⟩)
      rcases found with ⟨polling, empty⟩ | ⟨k, awaiting, active⟩
      · rw [empty]
        exact waited_true polling empty u
      · obtain ⟨rest, front⟩ := (steps.kept h).front k awaiting
        rw [front]
        exact (takes_pure v' ()).waited_false awaiting active u
  | succ moves ih =>
      obtain ⟨v', steps, drained, found⟩ := h.exists_steps_of_drain waits
      have moveTo := (steps.kept h).takes_moveTo hh resume rounds
      unfold Script.awaitTasks
      rw [Script.run_change_bind, Script.run_stage_bind, ← drained]
      refine .of_steps steps ?_
      rcases found with ⟨polling, empty⟩ | ⟨k, awaiting, active⟩
      · split
        · exact waited_true polling empty u
        · next front _ => exact nomatch empty.symm.trans front
        · next front _ => exact nomatch empty.symm.trans front
      · split
        · next empty =>
            obtain ⟨rest, front⟩ := (steps.kept h).front k awaiting
            exact nomatch empty.symm.trans front
        · split
          · refine (moveTo _).waited_bind (fun _ v₁ more caller => ?_) u
            exact ih (more.kept (steps.kept h)) (by rw [caller, awaiting]; exact nofun)
          · exact (moveTo _).waited_false awaiting active u
        · exact (moveTo _).waited_false awaiting active u

/-- A wait for all tasks begins with the caller's call. -/
theorem Kept.waited_waitForTasks {host : Host υ} (hh : host.Stirring)
    (resume : ∀ code, (host.resume code).Stirring) (h : v.Kept) (acting : v.caller = .acting)
    (rounds duration : Nat) (u : υ) :
    v.Waited ((Script.waitForTasks host rounds duration).run ⟨v.stage, u⟩) := by
  have call : v.Step { v with caller := .polling } := .call acting
  exact .of_steps (.single call) ((call.kept h).waited_awaitTasks hh resume nofun rounds _ _ u)

end Vigil

end Animation
