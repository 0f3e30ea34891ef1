/-
# Keeping watch over tasks

Whoever waits for all tasks takes them from the channel, one at a time, and waits for each until
it has ended. Meanwhile tasks take steps in any order: they have other tasks spawned, tell each
other to end, fall asleep, and end. The wait is over when the channel is empty for the first time.

A vigil is a stage together with where the caller is and which tasks were ever started. Its steps
are those of the caller and of the tasks, in every order. What carries the proof is that every task
that has not ended is in the channel, or is the one that the caller waits for.
-/

import Animation.Proofs.Playback.Tasks
import Animation.Stage.Schedule

namespace Animation

namespace Stage

variable {s : Stage} {k : Ref .task}

/-- The tasks that the channel reports and that have not been dealt with. The one that is waited
for stays at the front until it has ended. -/
def reported (s : Stage) : List (Ref .task) := s.agenda.channel.getD []

/-- The task at the front of the channel is dealt with. -/
def dropFront (s : Stage) : Stage :=
  { s with agenda := { s.agenda with channel := s.agenda.channel.map List.tail } }

theorem reported_dropFront (s : Stage) : s.dropFront.reported = s.reported.tail := by
  unfold reported dropFront
  cases s.agenda.channel <;> rfl

theorem reported_spawn (s : Stage) (job : Job) :
    (s.spawn job).1.reported = s.reported ++ (s.spawn job).2.toList := by
  unfold reported
  cases channel : s.agenda.channel with
  | none =>
      rw [spawn_of_no_channel channel, channel]
      rfl
  | some reported =>
      rw [spawn_of_channel channel]
      rfl

theorem queue_spawn (s : Stage) (job : Job) :
    (s.spawn job).1.agenda.queue = s.agenda.queue ++ (s.spawn job).2.toList := by
  cases channel : s.agenda.channel with
  | none =>
      rw [spawn_of_no_channel channel]
      exact (List.append_nil _).symm
  | some reported =>
      rw [spawn_of_channel channel]
      rfl

/-- A new task does not sleep. -/
theorem sleeping_of_spawn {job : Job} {wake : Nat}
    (asleep : ((s.spawn job).1.tasks.get k).phase = .sleeping wake) :
    (s.tasks.get k).phase = .sleeping wake := by
  cases channel : s.agenda.channel with
  | none => rwa [spawn_of_no_channel channel] at asleep
  | some reported =>
      rw [tasks_spawn job (Option.isSome_of_eq_some channel), Table.get_push] at asleep
      split at asleep
      · exact nomatch asleep
      · exact asleep

theorem hasEnded_eq_of_phase_eq {s' : Stage}
    (h : (s'.tasks.get k).phase = (s.tasks.get k).phase) : s'.hasEnded k = s.hasEnded k :=
  congrArg Phase.isEnded h

theorem phase_abort (s : Stage) (k j : Ref .task) :
    ((s.abort k).tasks.get j).phase = (s.tasks.get j).phase := by
  cases ended : s.hasEnded k with
  | true => rw [abort_of_hasEnded ended]
  | false =>
      rw [tasks_abort ended]
      exact Table.proj_get_modify s.tasks k j fun _ => rfl

theorem channel_abort (s : Stage) (k : Ref .task) :
    (s.abort k).agenda.channel = s.agenda.channel := by
  unfold abort
  dsimp only
  split
  · rfl
  · split
    · split <;> rfl
    · rfl

theorem mem_requeue {j : Ref .task} (h : j ∈ (s.requeue k).agenda.queue) :
    j = k ∨ j ∈ s.agenda.queue := by
  rcases List.mem_append.1 h with old | new
  · exact .inr (List.mem_of_mem_filter old)
  · exact .inl (List.mem_singleton.1 new)

/-- Only a sleeping task is put in the queue when it is told to end. -/
theorem mem_queue_abort {j : Ref .task} (h : j ∈ (s.abort k).agenda.queue) :
    j ∈ s.agenda.queue ∨ ∃ wake, (s.tasks.get j).phase = .sleeping wake := by
  unfold abort at h
  dsimp only at h
  split at h
  · exact .inl h
  · split at h
    · next asleep =>
        split at h
        · exact .inl h
        · rcases mem_requeue h with rfl | old
          · exact .inr ⟨_, asleep⟩
          · exact .inl old
    · exact .inl h

theorem phase_sleepUntil (s : Stage) (k : Ref .task) (wake : Nat) (j : Ref .task) :
    ((s.sleepUntil k wake).tasks.get j).phase =
      if k = j then .sleeping wake else (s.tasks.get j).phase := by
  show ((s.tasks.modify k _).get j).phase = _
  rw [Table.get_modify]
  split <;> rfl

theorem phase_endTask (s : Stage) (how : Ending) (k j : Ref .task) :
    ((s.endTask how k).tasks.get j).phase =
      if k = j then .ended how else (s.tasks.get j).phase := by
  rw [(s.rehandled_endTask how k).tasks]
  show ((s.tasks.modify k _).get j).phase = _
  rw [Table.get_modify]
  split <;> rfl

theorem channel_endTask (s : Stage) (how : Ending) (k : Ref .task) :
    (s.endTask how k).agenda.channel = s.agenda.channel := by
  rw [(s.rehandled_endTask how k).agenda]

theorem mem_queue_endTask {how : Ending} {j : Ref .task}
    (h : j ∈ (s.endTask how k).agenda.queue) : j ∈ s.agenda.queue := by
  rw [(s.rehandled_endTask how k).agenda] at h
  exact List.mem_of_mem_filter h

end Stage

/-! ## Vigils -/

/-- Where the caller is: about its own business, or in the midst of a wait. -/
inductive Caller where
  | acting
  | polling
  | awaiting (k : Ref .task)
  deriving DecidableEq

/-- A stage, where the caller is, and the tasks that were ever started. -/
structure Vigil where
  stage : Stage
  caller : Caller
  started : List (Ref .task)

namespace Vigil

/-- Nothing has happened yet. -/
def opening (hasChannel : Bool) : Vigil := ⟨.empty hasChannel, .acting, []⟩

variable (v : Vigil)

/-- The tasks in the channel, without the one that the caller has taken and waits for. -/
def queued : List (Ref .task) :=
  match v.caller with
  | .awaiting _ => v.stage.reported.tail
  | _ => v.stage.reported

/-- A task was started and has not ended. -/
def IsActive (k : Ref .task) : Prop := k ∈ v.started ∧ v.stage.hasEnded k = false

/-- Someone can have tasks spawned: the caller, as long as it does not wait, or a task. -/
def MayAct : Prop := v.caller = .acting ∨ ∃ k, v.IsActive k

/-- A single step of the caller, of a task, or of the time. -/
inductive Step : Vigil → Prop
  /-- What does not concern tasks may happen at any time. -/
  | aside {s : Stage} (tasks : s.tasks = v.stage.tasks) (agenda : s.agenda = v.stage.agenda) :
      Step { v with stage := s }
  | time (now : Nat) : Step { v with stage := v.stage.setNow now }
  | spawn (acts : v.MayAct) (job : Job) :
      Step { v with
        stage := (v.stage.spawn job).1
        started := v.started ++ (v.stage.spawn job).2.toList }
  | abort (k : Ref .task) : Step { v with stage := v.stage.abort k }
  | sleep {k : Ref .task} (active : v.IsActive k) (wake : Nat) :
      Step { v with stage := v.stage.sleepUntil k wake }
  /-- A task comes to its end, with success or an error, by a violation, or aborted. -/
  | finish {k : Ref .task} (active : v.IsActive k) (how : Ending) :
      Step { v with stage := v.stage.endTask how k }
  | call (acting : v.caller = .acting) : Step { v with caller := .polling }
  | receive (polling : v.caller = .polling) {k : Ref .task} {rest : List (Ref .task)}
      (front : v.queued = k :: rest) : Step { v with caller := .awaiting k }
  | hear {k : Ref .task} (awaiting : v.caller = .awaiting k)
      (ended : v.stage.hasEnded k = true) :
      Step { v with stage := v.stage.dropFront, caller := .polling }
  | leave (polling : v.caller = .polling) (empty : v.queued = []) :
      Step { v with caller := .acting }

/-- Any number of steps. -/
abbrev Steps : Vigil → Vigil → Prop := Relation.ReflTransGen Step

/-- What comes of steps from the beginning. -/
def Met (hasChannel : Bool) (v : Vigil) : Prop := (opening hasChannel).Steps v

/-- A wait is over. -/
structure Leaves (v' : Vigil) : Prop where
  polling : v.caller = .polling
  empty : v.queued = []
  eq : v' = { v with caller := .acting }

/-- The invariant of a vigil. -/
structure Kept : Prop where
  added : ∀ k ∈ v.started, k.index < v.stage.tasks.size
  started_of_reported : ∀ k ∈ v.stage.reported, k ∈ v.started
  started_of_queue : ∀ k ∈ v.stage.agenda.queue, k ∈ v.started
  started_of_sleeping : ∀ k wake, (v.stage.tasks.get k).phase = .sleeping wake → k ∈ v.started
  /-- Every task that has not ended is in the channel, or is the one waited for. -/
  reported_of_active : ∀ k, v.IsActive k → k ∈ v.stage.reported
  front : ∀ k, v.caller = .awaiting k → ∃ rest, v.stage.reported = k :: rest

theorem kept_opening (hasChannel : Bool) : (opening hasChannel).Kept where
  added _ mem := nomatch mem
  started_of_reported k mem := by
    have none : (Stage.empty hasChannel).reported = [] := by cases hasChannel <;> rfl
    rw [opening, none] at mem
    exact nomatch mem
  started_of_queue _ mem := nomatch mem
  started_of_sleeping _ _ asleep := nomatch asleep
  reported_of_active _ active := nomatch active.1
  front _ awaiting := nomatch awaiting

variable {v}

namespace Kept

/-- A step that leaves the channel alone and starts nothing keeps the invariant, if it wakes nobody
from the dead. -/
theorem change (h : v.Kept) {s : Stage} (size : v.stage.tasks.size ≤ s.tasks.size)
    (channel : s.agenda.channel = v.stage.agenda.channel)
    (queue : ∀ k ∈ s.agenda.queue, k ∈ v.started)
    (sleeping : ∀ k wake, (s.tasks.get k).phase = .sleeping wake → k ∈ v.started)
    (unended : ∀ k, s.hasEnded k = false → v.stage.hasEnded k = false) :
    Kept { v with stage := s } := by
  have reported : s.reported = v.stage.reported := by
    rw [Stage.reported, channel, Stage.reported]
  exact {
    added := fun k mem => Nat.lt_of_lt_of_le (h.added k mem) size
    started_of_reported := fun k mem => h.started_of_reported k (reported ▸ mem)
    started_of_queue := queue
    started_of_sleeping := sleeping
    reported_of_active := fun k active =>
      reported.symm ▸ h.reported_of_active k ⟨active.1, unended k active.2⟩
    front := fun k awaiting => reported.symm ▸ h.front k awaiting }

theorem abort (h : v.Kept) (k : Ref .task) : Kept { v with stage := v.stage.abort k } := by
  have phase := v.stage.phase_abort k
  refine h.change (Stage.lasting_abort _ k).size (v.stage.channel_abort k) ?_ ?_ ?_
  · intro j mem
    rcases Stage.mem_queue_abort mem with old | ⟨wake, asleep⟩
    · exact h.started_of_queue j old
    · exact h.started_of_sleeping j wake asleep
  · exact fun j wake asleep => h.started_of_sleeping j wake ((phase j).symm.trans asleep)
  · exact fun j unended => (Stage.hasEnded_eq_of_phase_eq (phase j)).symm.trans unended

theorem sleep (h : v.Kept) {k : Ref .task} (active : v.IsActive k) (wake : Nat) :
    Kept { v with stage := v.stage.sleepUntil k wake } := by
  refine h.change (Table.size_le_size_modify ..) rfl ?_ ?_ ?_
  · intro j mem
    rcases Stage.mem_requeue mem with rfl | old
    · exact active.1
    · exact h.started_of_queue j old
  · intro j wake' asleep
    rw [Stage.phase_sleepUntil] at asleep
    split at asleep
    · next same => exact same ▸ active.1
    · exact h.started_of_sleeping j wake' asleep
  · intro j unended
    rwa [Stage.hasEnded_sleepUntil active.2] at unended

theorem finish (h : v.Kept) (k : Ref .task) (how : Ending) :
    Kept { v with stage := v.stage.endTask how k } := by
  refine h.change ?_ (v.stage.channel_endTask how k) ?_ ?_ ?_
  · rw [(v.stage.rehandled_endTask how k).tasks]
    exact Table.size_le_size_modify ..
  · exact fun j mem => h.started_of_queue j (Stage.mem_queue_endTask mem)
  · intro j wake asleep
    rw [Stage.phase_endTask] at asleep
    split at asleep
    · exact nomatch asleep
    · exact h.started_of_sleeping j wake asleep
  · intro j unended
    unfold Stage.hasEnded at unended ⊢
    rw [Stage.phase_endTask] at unended
    split at unended
    · exact nomatch unended
    · exact unended

/-- A new task is reported, and it was not there before. -/
theorem spawn (h : v.Kept) (job : Job) :
    Kept { v with
      stage := (v.stage.spawn job).1
      started := v.started ++ (v.stage.spawn job).2.toList } := by
  have lasting := v.stage.lasting_spawn job
  have reported := v.stage.reported_spawn job
  constructor
  · intro k mem
    rcases List.mem_append.1 mem with old | new
    · exact Nat.lt_of_lt_of_le (h.added k old) lasting.size
    · exact (Stage.get_of_spawn (Option.mem_toList.1 new)).1
  · intro k mem
    rw [reported] at mem
    exact List.mem_append.2 ((List.mem_append.1 mem).imp_left (h.started_of_reported k))
  · intro k mem
    rw [Stage.queue_spawn] at mem
    exact List.mem_append.2 ((List.mem_append.1 mem).imp_left (h.started_of_queue k))
  · intro k wake asleep
    exact List.mem_append_left _ (h.started_of_sleeping k wake (Stage.sleeping_of_spawn asleep))
  · rintro k ⟨mem, unended⟩
    rw [reported]
    rcases List.mem_append.1 mem with old | new
    · have before := (lasting.hasEnded k (h.added k old)).symm.trans unended
      exact List.mem_append_left _ (h.reported_of_active k ⟨old, before⟩)
    · exact List.mem_append_right _ new
  · intro k awaiting
    obtain ⟨rest, eq⟩ := h.front k awaiting
    exact ⟨rest ++ (v.stage.spawn job).2.toList, by rw [reported, eq, List.cons_append]⟩

/-- The task that was waited for has ended, so nothing active is dropped. -/
theorem hear (h : v.Kept) {k : Ref .task} (awaiting : v.caller = .awaiting k)
    (ended : v.stage.hasEnded k = true) :
    Kept { v with stage := v.stage.dropFront, caller := .polling } := by
  obtain ⟨rest, eq⟩ := h.front k awaiting
  have dropped : v.stage.dropFront.reported = rest := by
    rw [Stage.reported_dropFront, eq, List.tail_cons]
  have started := h.started_of_reported
  have reported := h.reported_of_active
  rw [eq] at started reported
  refine ⟨h.added, fun j mem => ?_, h.started_of_queue, h.started_of_sleeping, fun j active => ?_,
    fun _ awaiting => nomatch awaiting⟩
  · rw [dropped] at mem
    exact started j (List.mem_cons_of_mem k mem)
  · rw [dropped]
    rcases List.mem_cons.1 (reported j active) with rfl | later
    · exact nomatch ended.symm.trans active.2
    · exact later

end Kept

/-- Every step keeps the invariant. -/
theorem Step.kept {v' : Vigil} (step : v.Step v') (h : v.Kept) : v'.Kept := by
  cases step with
  | aside tasks agenda =>
      refine h.change (Nat.le_of_eq (congrArg Table.size tasks.symm))
        (congrArg Agenda.channel agenda) ?_ ?_ ?_
      · rw [agenda]
        exact h.started_of_queue
      · rw [tasks]
        exact h.started_of_sleeping
      · intro k unended
        rwa [Stage.hasEnded, tasks] at unended
  | time now =>
      exact h.change (Nat.le_refl _) rfl h.started_of_queue h.started_of_sleeping fun _ => id
  | spawn _ job => exact h.spawn job
  | abort k => exact h.abort k
  | sleep active wake => exact h.sleep active wake
  | finish _ how => exact h.finish _ how
  | call _ => exact { h with front := fun _ awaiting => by cases awaiting }
  | @receive polling k rest front =>
      refine { h with front := fun j awaiting => ⟨rest, ?_⟩ }
      cases awaiting
      unfold queued at front
      rwa [polling] at front
  | hear awaiting ended => exact h.hear awaiting ended
  | leave _ _ => exact { h with front := fun _ awaiting => by cases awaiting }

theorem Steps.kept {v' : Vigil} (steps : v.Steps v') (h : v.Kept) : v'.Kept := by
  induction steps with
  | refl => exact h
  | tail _ last ih => exact last.kept ih

theorem Met.kept {hasChannel : Bool} (h : Met hasChannel v) : v.Kept :=
  Steps.kept h (kept_opening hasChannel)

theorem queued_of_polling (polling : v.caller = .polling) : v.queued = v.stage.reported := by
  unfold queued
  rw [polling]

theorem Leaves.step {v' : Vigil} (leaves : v.Leaves v') : v.Step v' := by
  obtain ⟨polling, empty, rfl⟩ := leaves
  exact .leave polling empty

/-- When a wait is over, every task that was ever started has ended. -/
theorem Kept.ended_of_leaves (h : v.Kept) {v' : Vigil} (leaves : v.Leaves v') :
    ∀ k ∈ v'.started, v'.stage.hasEnded k = true := by
  obtain ⟨polling, empty, rfl⟩ := leaves
  intro k mem
  by_contra unended
  have reported := h.reported_of_active k ⟨mem, Bool.not_eq_true _ ▸ unended⟩
  rw [← queued_of_polling polling, empty] at reported
  exact nomatch reported

/-- The caller can go on with its wait: it is about to look into the channel, or it waits for a
task that has ended. -/
def Ready (v : Vigil) : Prop :=
  v.caller = .polling ∨ ∃ k, v.caller = .awaiting k ∧ v.stage.hasEnded k = true

/-- The caller goes on with its wait, or ends it. -/
def Advances (v v' : Vigil) : Prop := v.Step v' ∧ v'.caller ≠ v.caller

/-- Whoever can go on has a step to take. -/
theorem Ready.exists_advances (ready : v.Ready) : ∃ v', v.Advances v' := by
  rcases ready with polling | ⟨k, awaiting, ended⟩
  · cases front : v.queued with
    | nil =>
        refine ⟨_, .leave polling front, ?_⟩
        rw [polling]
        exact nofun
    | cons k rest =>
        refine ⟨_, .receive polling front, ?_⟩
        rw [polling]
        exact nofun
  · refine ⟨_, .hear awaiting ended, ?_⟩
    rw [awaiting]
    exact nofun

/-- Whoever waits can go on, or waits for a task that was started and has not ended. -/
theorem Kept.ready_or_active (h : v.Kept) (waits : v.caller ≠ .acting) :
    v.Ready ∨ ∃ k, v.caller = .awaiting k ∧ v.IsActive k := by
  cases caller : v.caller with
  | acting => exact absurd caller waits
  | polling => exact .inl (.inl caller)
  | awaiting k =>
      cases ended : v.stage.hasEnded k with
      | true => exact .inl (.inr ⟨k, caller, ended⟩)
      | false =>
          obtain ⟨rest, eq⟩ := h.front k caller
          have mem : k ∈ v.stage.reported := eq ▸ List.mem_cons_self ..
          exact .inr ⟨k, rfl, h.started_of_reported k mem, ended⟩

end Vigil

end Animation
