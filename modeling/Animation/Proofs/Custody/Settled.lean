/-
# Accounts of handles

Those who use a stage have handles by name. While the library runs it has some of its own, which
it owes to whoever called it: those of calls that have not come to their end. Each task that has
not ended keeps the handle of its job. The accounts are settled if each thing counts these handles
and those that are kept by things that are alive, and no others.

All that the library does keeps the accounts settled, provided that its callbacks do: whatever it
takes it gives back, also where a callback breaks off, and it never takes a handle on something
that is gone.
-/

import Animation.Proofs.Custody.Balance
import Animation.Proofs.Playback.Tasks
import Animation.Proofs.Stage.Reachable
import Animation.Stage.Schedule

namespace Animation

/-- Something that there is a handle on by name. -/
inductive Possession where
  | timeline (t : Ref .timeline)
  | alpha (a : Ref .alpha)
  | behaviour (b : Ref .behaviour)
  deriving DecidableEq

def Possession.handle : Possession → Handle
  | timeline t => .timeline t
  | alpha a => .alpha a
  | behaviour b => .behaviour b

/-- The handles by name of those who use a stage, beside whatever else they write down. -/
structure Owner (υ : Type) where
  names : List Possession
  rest : υ

/-- The handles that a task keeps until it ends. -/
def Task.owes (row : Task) : List Handle := if row.phase.isEnded then [] else row.job.handles

namespace Stage

/-- The handles that tasks keep, but for one task if one is left out. -/
def owed (s : Stage) (except : Option (Ref .task)) : List Handle :=
  (s.tasks.refs.filter fun k => some k ≠ except).flatMap fun k => (s.tasks.get k).owes

variable {s s' : Stage} {k : Ref .task} {except : Option (Ref .task)}

theorem owed_of_get (size : s'.tasks.size = s.tasks.size)
    (owes : ∀ k, some k ≠ except → (s'.tasks.get k).owes = (s.tasks.get k).owes) :
    s'.owed except = s.owed except := by
  rw [owed, owed, Table.refs, Table.refs, size]
  refine List.flatMap_congr fun k mem => owes k ?_
  simpa using (List.mem_filter.1 mem).2

theorem owed_congr (tasks : s'.tasks = s.tasks) : s'.owed except = s.owed except := by
  rw [owed, owed, tasks]

/-- What is owed for a task, and for all others. -/
theorem count_owed (s : Stage) (added : k.index < s.tasks.size) (h : Handle) :
    (s.owed none).count h = (s.tasks.get k).owes.count h + (s.owed (some k)).count h := by
  have all : (s.tasks.refs.filter fun j => some j ≠ none) = s.tasks.refs :=
    List.filter_eq_self.2 fun _ _ => by simp
  have others : (s.tasks.refs.filter fun j => some j ≠ some k) = s.tasks.refs.erase k := by
    rw [s.tasks.nodup_refs.erase_eq_filter]
    exact List.filter_congr fun j _ => by simp [bne, beq_eq_decide]
  have first := List.perm_cons_erase (Table.mem_refs.2 added)
  rw [owed, owed, all, others,
    (first.flatMap_right fun k => (s.tasks.get k).owes).count_eq, List.flatMap_cons,
    List.count_append]

theorem owed_spawn (s : Stage) (job : Job) (channel : s.agenda.channel.isSome = true)
    (added : ∀ k, except = some k → k.index < s.tasks.size) :
    (s.spawn job).1.owed except = s.owed except ++ job.handles := by
  have fresh : some s.tasks.next ≠ except := fun same => Nat.lt_irrefl _ (added _ same.symm)
  have before : ∀ k ∈ s.tasks.refs.filter fun k => some k ≠ except,
      ((s.spawn job).1.tasks.get k).owes = (s.tasks.get k).owes := fun k mem => by
    rw [get_spawn job (Table.mem_refs.1 (List.mem_of_mem_filter mem))]
  have new : (s.spawn job).1.tasks.get s.tasks.next = ⟨job, .ready, false⟩ := by
    rw [tasks_spawn job channel, Table.get_push_next]
  have refs : (s.spawn job).1.tasks.refs = s.tasks.refs ++ [s.tasks.next] := by
    rw [tasks_spawn job channel, Table.refs_push]
  rw [owed, refs, List.filter_append, List.flatMap_append, List.flatMap_congr before,
    List.filter_singleton, decide_eq_true fresh, cond_true, List.flatMap_singleton, new]
  rfl

theorem owed_abort (s : Stage) (added : k.index < s.tasks.size) :
    (s.abort k).owed except = s.owed except := by
  cases ended : s.hasEnded k with
  | true => rw [abort_of_hasEnded ended]
  | false =>
      have tasks := tasks_abort ended
      refine owed_of_get ?_ fun j _ => ?_
      · rw [tasks]
        exact s.tasks.size_modify _ added
      · rw [tasks]
        exact Table.proj_get_modify (g := Task.owes) _ k j fun _ => rfl

end Stage

/-! ## Settled accounts -/

/-- Nothing is done that goes into the accounts. -/
structure Stage.Quiet (s s' : Stage) : Prop where
  holders : ∀ h, h.isOnActor = false → s'.holders h = s.holders h
  keeps : ∀ h, s'.keeps h = s.keeps h
  playback : ∀ t, (s'.timelines.get t).playback = (s.timelines.get t).playback
  tasks : s'.tasks = s.tasks

namespace Stage.Quiet

variable {s s' s'' : Stage}

theorem refl (s : Stage) : s.Quiet s := ⟨fun _ _ => rfl, fun _ => rfl, fun _ => rfl, rfl⟩

theorem trans (h : s.Quiet s') (h' : s'.Quiet s'') : s.Quiet s'' where
  holders x counted := (h'.holders x counted).trans (h.holders x counted)
  keeps x := (h'.keeps x).trans (h.keeps x)
  playback t := (h'.playback t).trans (h.playback t)
  tasks := h'.tasks.trans h.tasks

/-- Changes to actors, notifiers, emitters, the agenda and the journal. -/
theorem of_tables (timelines : s'.timelines = s.timelines) (alphas : s'.alphas = s.alphas)
    (cores : s'.cores = s.cores) (behaviours : s'.behaviours = s.behaviours)
    (tasks : s'.tasks = s.tasks) : s.Quiet s' where
  holders x counted := by
    cases x with
    | actor a => exact nomatch counted
    | timeline _ | alpha _ | core _ | behaviour _ =>
        simp only [Stage.holders, timelines, alphas, cores, behaviours]
  keeps x := by
    cases x <;> simp only [Stage.keeps, coreOf, boundAlpha?, timelineOf, alphas, cores, behaviours]
  playback t := by rw [timelines]
  tasks := tasks

theorem modifyTimeline (s : Stage) (t : Ref .timeline) {f : Timeline → Timeline}
    (holders : ∀ row, (f row).holders = row.holders)
    (playback : ∀ row, (f row).playback = row.playback) : s.Quiet (s.modifyTimeline t f) where
  holders x _ := by
    cases x with
    | timeline u => exact Table.proj_get_modify _ t u holders
    | alpha _ | core _ | behaviour _ | actor _ => rfl
  keeps x := by cases x <;> rfl
  playback u := Table.proj_get_modify _ t u playback
  tasks := rfl

theorem attach (s : Stage) (t : Ref .timeline) (b : Ref .behaviour) : s.Quiet (s.attach t b).1 :=
  .modifyTimeline s t (fun _ => rfl) fun _ => rfl

theorem detach (s : Stage) (t : Ref .timeline) (ids : List Nat) : s.Quiet (s.detach t ids) :=
  .modifyTimeline s t (fun _ => rfl) fun _ => rfl

theorem modifyAlpha (s : Stage) (a : Ref .alpha) {f : Alpha → Alpha}
    (holders : ∀ row, (f row).holders = row.holders)
    (timeline : ∀ row, (f row).timeline = row.timeline) : s.Quiet (s.modifyAlpha a f) where
  holders x _ := by
    cases x with
    | alpha b => exact Table.proj_get_modify _ a b holders
    | timeline _ | core _ | behaviour _ | actor _ => rfl
  keeps x := by
    cases x with
    | alpha b =>
        exact congrArg (fun t => [Handle.timeline t]) (Table.proj_get_modify _ a b timeline)
    | timeline _ | core _ | behaviour _ | actor _ => rfl
  playback _ := rfl
  tasks := rfl

theorem setActors (s : Stage) (c : Ref .core) (actors : List (Ref .actor)) :
    s.Quiet (s.setActors c actors) where
  holders x _ := by
    cases x with
    | core d => exact Table.proj_get_modify (g := Core.holders) _ c d fun _ => rfl
    | timeline _ | alpha _ | behaviour _ | actor _ => rfl
  keeps x := by
    cases x with
    | core d =>
        have same : ((s.setActors c actors).cores.get d).binding = (s.cores.get d).binding :=
          Table.proj_get_modify (g := Core.binding) _ c d fun _ => rfl
        rw [Stage.keeps, Stage.keeps, boundAlpha?, boundAlpha?, same]
    | timeline _ | alpha _ | behaviour _ | actor _ => rfl
  playback _ := rfl
  tasks := rfl

theorem setDrive (s : Stage) (b : Ref .behaviour) (drive : Drive) :
    s.Quiet (s.setDrive b drive) where
  holders x _ := by
    cases x with
    | behaviour c => exact Table.proj_get_modify (g := Behaviour.holders) _ b c fun _ => rfl
    | timeline _ | alpha _ | core _ | actor _ => rfl
  keeps x := by
    cases x with
    | behaviour c =>
        exact congrArg (fun core => [Handle.core core])
          (Table.proj_get_modify (g := Behaviour.core) _ b c fun _ => rfl)
    | timeline _ | alpha _ | core _ | actor _ => rfl
  playback _ := rfl
  tasks := rfl

theorem note (s : Stage) (what : Occurrence) : s.Quiet (s.note what) :=
  .of_tables rfl rfl rfl rfl rfl

/-- Handles on actors are on no account. -/
theorem retainActors (s : Stage) (actors : List (Ref .actor)) :
    s.Quiet (s.retainAll (actors.map .actor)) := by
  induction actors generalizing s with
  | nil => exact .refl s
  | cons a rest ih =>
      have first : s.Quiet (s.retain (.actor a)) := .of_tables rfl rfl rfl rfl rfl
      exact first.trans (ih _)

theorem releaseActors (s : Stage) (actors : List (Ref .actor)) :
    s.Quiet (s.releaseAll (actors.map .actor)) := by
  induction actors generalizing s with
  | nil => exact .refl s
  | cons a rest ih =>
      have first : s.Quiet (s.release (.actor a)) := .of_tables rfl rfl rfl rfl rfl
      exact first.trans (ih _)

theorem applyActor (s : Stage) (c : Ref .core) (a : Ref .actor) : s.Quiet (s.applyActor c a) := by
  unfold Stage.applyActor
  dsimp only
  split
  · exact .setActors s c _
  · exact (setActors s c _).trans (.note _ _)

theorem removeActor (s : Stage) (c : Ref .core) (a : Ref .actor) :
    s.Quiet (s.removeActor c a) := by
  unfold Stage.removeActor
  dsimp only
  split
  · exact (setActors s c _).trans (.note _ _)
  · exact .setActors s c _

/-- A task is told to end. -/
theorem abort (s : Stage) (k : Ref .task) : s.Quiet { s.abort k with tasks := s.tasks } := by
  unfold Stage.abort
  dsimp only
  split
  · exact refl s
  · split
    · split <;> exact .of_tables rfl rfl rfl rfl rfl
    · exact .of_tables rfl rfl rfl rfl rfl

end Stage.Quiet

/-- To bind a behaviour leaves tasks alone, and what timelines know of them. -/
theorem Stage.same_tasks_rebind (s : Stage) (b : Ref .behaviour) (alpha : Option (Ref .alpha)) :
    (∀ t, ((s.rebind b alpha).timelines.get t).playback = (s.timelines.get t).playback) ∧
      (s.rebind b alpha).tasks = s.tasks := by
  have unbind (s : Stage) (c : Ref .core) :
      (∀ t, ((s.unbind c).timelines.get t).playback = (s.timelines.get t).playback) ∧
        (s.unbind c).tasks = s.tasks := by
    unfold Stage.unbind
    split
    · exact ⟨fun _ => rfl, rfl⟩
    · next a entry _ =>
        let detached := (s.detach (s.alphas.get a).timeline [entry]).setBinding c none
        have released := detached.rehandled_release (.alpha a)
        refine ⟨fun t => ?_, released.tasks⟩
        obtain ⟨n, e⟩ := released.timeline t
        exact (congrArg Timeline.playback e).trans ((Quiet.detach s _ [entry]).playback t)
  cases alpha with
  | none => exact unbind s _
  | some a =>
      obtain ⟨playback, tasks⟩ := unbind (s.retain (.alpha a)) (s.coreOf b)
      let freed := (s.retain (.alpha a)).unbind (s.coreOf b)
      have attached := Quiet.attach freed (freed.timelineOf a) b
      exact ⟨fun t => (attached.playback t).trans (playback t), tasks⟩

variable {υ : Type}

/-- The task whose turn it is, and its job. -/
abbrev Turn : Type := Ref .task × Job

/-- The accounts are settled: handles are counted for debts, for tasks other than the one whose
turn it is, for names, and for things that are alive. -/
structure Settled (turn : Option Turn) (debts : List Handle) (w : World (Owner υ)) : Prop where
  balanced : w.stage.Balanced
    (debts ++ (w.stage.owed (turn.map (·.1)) ++ w.user.names.map (·.handle)))
  players : ∀ t k, (w.stage.timelines.get t).playback = some k → k.index < w.stage.tasks.size
  own : ∀ k job, turn = some (k, job) → k.index < w.stage.tasks.size ∧
    (w.stage.tasks.get k).job = job ∧ w.stage.hasEnded k = false

namespace Settled

open Stage

variable {turn : Option Turn} {debts : List Handle} {w : World (Owner υ)} {s : Stage}

theorem added (h : Settled turn debts w) {k : Ref .task} (own : turn.map (·.1) = some k) :
    k.index < w.stage.tasks.size := by
  obtain ⟨⟨k, job⟩, found, rfl⟩ := Option.map_eq_some_iff.1 own
  exact (h.own k job found).1

theorem isAlive (settled : Settled turn debts w) {h : Handle} (mem : h ∈ debts)
    (counted : h.isOnActor = false) : w.stage.isAlive h = true :=
  settled.balanced.isAlive_of_mem counted (List.mem_append_left _ mem)

/-- Tasks are left alone. -/
theorem of_tasks (settled : Settled turn debts w) {debts' : List Handle} {names : List Possession}
    {rest : υ} (balanced : s.Balanced
      (debts' ++ (w.stage.owed (turn.map (·.1)) ++ names.map (·.handle))))
    (playback : ∀ t, (s.timelines.get t).playback = (w.stage.timelines.get t).playback ∨
      (s.timelines.get t).playback = none)
    (tasks : s.tasks = w.stage.tasks) : Settled turn debts' ⟨s, ⟨names, rest⟩⟩ where
  balanced := by
    rw [show s.owed _ = w.stage.owed _ from owed_congr tasks]
    exact balanced
  players t k taken := by
    rw [tasks]
    rcases playback t with same | none
    · exact settled.players t k (same.symm.trans taken)
    · exact nomatch none.symm.trans taken
  own k job found := by
    rw [tasks, Stage.hasEnded, tasks]
    exact settled.own k job found

theorem quiet (settled : Settled turn debts w) (quiet : w.stage.Quiet s) :
    Settled turn debts { w with stage := s } :=
  settled.of_tasks (settled.balanced.congr quiet.holders quiet.keeps)
    (fun t => .inl (quiet.playback t)) quiet.tasks

theorem retainAll (settled : Settled turn debts w) {handles : List Handle}
    (alive : ∀ h ∈ handles, w.stage.isAlive h = true) :
    Settled turn (handles ++ debts) { w with stage := w.stage.retainAll handles } := by
  have rehandled := w.stage.rehandled_retainAll handles
  refine settled.of_tasks ?_ (fun t => .inl ?_) rehandled.tasks
  · rw [List.append_assoc]
    exact settled.balanced.retainAll alive
  · obtain ⟨n, e⟩ := rehandled.timeline t
    rw [e]

theorem releaseAll {handles : List Handle} (settled : Settled turn (handles ++ debts) w) :
    Settled turn debts { w with stage := w.stage.releaseAll handles } := by
  have rehandled := w.stage.rehandled_releaseAll handles
  refine settled.of_tasks ?_ (fun t => .inl ?_) rehandled.tasks
  · have balanced := settled.balanced
    rw [List.append_assoc] at balanced
    exact balanced.releaseAll
  · obtain ⟨n, e⟩ := rehandled.timeline t
    rw [e]

/-- A handle is named. -/
theorem name {p : Possession} (settled : Settled turn (p.handle :: debts) w) :
    Settled turn debts { w with user := { w.user with names := p :: w.user.names } } := by
  refine settled.of_tasks (settled.balanced.perm (List.perm_iff_count.2 fun h => ?_))
    (fun _ => .inl rfl) rfl
  simp only [List.count_append, List.count_cons, List.map_cons]
  omega

/-- A name is taken off a handle. -/
theorem unname {p : Possession} (settled : Settled turn debts w) (mem : p ∈ w.user.names) :
    Settled turn (p.handle :: debts)
      { w with user := { w.user with names := w.user.names.erase p } } := by
  have perm := (List.perm_cons_erase mem).map (·.handle)
  refine settled.of_tasks (settled.balanced.perm (List.perm_iff_count.2 fun h => ?_))
    (fun _ => .inl rfl) rfl
  have count := perm.count_eq h
  simp only [List.count_append, List.count_cons, List.map_cons] at count ⊢
  omega

theorem addTimeline (settled : Settled turn debts w) (duration : Nat) :
    Settled turn (.timeline (w.stage.addTimeline duration).2 :: debts)
      { w with stage := (w.stage.addTimeline duration).1 } := by
  refine settled.of_tasks (settled.balanced.addTimeline _ duration) (fun t => ?_) rfl
  simp only [Stage.addTimeline, addEmitter, Table.get_push]
  split
  · exact .inr rfl
  · exact .inl rfl

theorem addAlpha (settled : Settled turn debts w) {t : Ref .timeline} (held : .timeline t ∈ debts)
    (easing : Easing) :
    Settled turn (.alpha (w.stage.addAlpha t easing).2 :: debts)
      { w with stage := (w.stage.addAlpha t easing).1 } := by
  refine settled.of_tasks (settled.balanced.addAlpha _ (settled.isAlive held rfl) easing)
    (fun u => .inl ?_) rfl
  exact Table.proj_get_modify (g := Timeline.playback) _ t u fun _ => rfl

theorem addBehaviour (settled : Settled turn debts w) (drive : Drive) :
    Settled turn (.behaviour (w.stage.addBehaviour drive).2 :: debts)
      { w with stage := (w.stage.addBehaviour drive).1 } :=
  settled.of_tasks (settled.balanced.addBehaviour _ drive) (fun _ => .inl rfl) rfl

theorem rebind (settled : Settled turn debts w) {b : Ref .behaviour} {alpha : Option (Ref .alpha)}
    (hb : .behaviour b ∈ debts) (ha : ∀ a, alpha = some a → .alpha a ∈ debts) :
    Settled turn debts { w with stage := w.stage.rebind b alpha } :=
  settled.of_tasks (settled.balanced.rebind (settled.isAlive hb rfl)
    fun a found => settled.isAlive (ha a found) rfl)
    (fun t => .inl ((w.stage.same_tasks_rebind b alpha).1 t)) (w.stage.same_tasks_rebind b alpha).2

theorem spawn (settled : Settled turn debts w) (job : Job) (needs : job.handles ⊆ debts) :
    Settled turn debts { w with stage := (w.stage.spawn job).1 } := by
  cases channel : w.stage.agenda.channel with
  | none =>
      rw [spawn_of_no_channel channel]
      exact settled
  | some reported =>
      have counted : ∀ h ∈ job.handles, h.isOnActor = false := fun h mem => by
        obtain ⟨t, -, rfl⟩ := Option.map_eq_some_iff.1 (Option.mem_toList.1 mem)
        rfl
      have held := settled.balanced.retainAll fun h mem =>
        settled.isAlive (needs mem) (counted h mem)
      have retained := w.stage.rehandled_retainAll job.handles
      have lasting := w.stage.lasting_spawn job
      refine ⟨?_, fun t k taken => ?_, fun k own found => ?_⟩
      · show (w.stage.spawn job).1.Balanced _
        rw [w.stage.owed_spawn job (by rw [channel]; rfl) fun k => settled.added,
          spawn_of_channel channel]
        refine (held.perm ?_).congr (fun h _ => by cases h <;> rfl) fun h => by cases h <;> rfl
        refine List.perm_iff_count.2 fun h => ?_
        simp only [List.count_append]
        omega
      · have before : (w.stage.timelines.get t).playback = some k := by
          obtain ⟨n, e⟩ := retained.timeline t
          have same :
              (w.stage.spawn job).1.timelines = (w.stage.retainAll job.handles).timelines := by
            rw [spawn_of_channel channel]
          rw [same, e] at taken
          exact taken
        exact Nat.lt_of_lt_of_le (settled.players t k before) lasting.size
      · obtain ⟨added, doing, unended⟩ := settled.own k own found
        refine ⟨Nat.lt_of_lt_of_le added lasting.size, ?_, ?_⟩
        · rw [get_spawn job added, doing]
        · rw [lasting.hasEnded k added, unended]

theorem abort (settled : Settled turn debts w) {k : Ref .task}
    (added : k.index < w.stage.tasks.size) :
    Settled turn debts { w with stage := w.stage.abort k } := by
  have lasting := w.stage.lasting_abort k
  have quiet := Stage.Quiet.abort w.stage k
  refine ⟨?_, fun t j taken => ?_, fun j own found => ?_⟩
  · show (w.stage.abort k).Balanced _
    rw [w.stage.owed_abort added]
    exact (settled.balanced.congr quiet.holders quiet.keeps).congr (fun h _ => by cases h <;> rfl)
      fun h => by cases h <;> rfl
  · have before : (w.stage.timelines.get t).playback = some j := (quiet.playback t).symm.trans taken
    exact Nat.lt_of_lt_of_le (settled.players t j before) lasting.size
  · obtain ⟨added, doing, unended⟩ := settled.own j own found
    exact ⟨Nat.lt_of_lt_of_le added lasting.size, (w.stage.job_abort k j).trans doing,
      (lasting.hasEnded j added).trans unended⟩

theorem setPlayback (settled : Settled turn debts w) (t : Ref .timeline)
    (playback : Option (Ref .task))
    (added : ∀ k, playback = some k → k.index < w.stage.tasks.size) :
    Settled turn debts { w with stage := w.stage.setPlayback t playback } where
  balanced := settled.balanced.modifyTimeline t fun _ => rfl
  players u k taken := by
    have row := w.stage.timelines.get_modify t u fun row => { row with playback }
    rw [show (w.stage.setPlayback t playback).timelines.get u = _ from row] at taken
    split at taken
    · exact added k taken
    · exact settled.players u k taken
  own := settled.own

theorem cancelPlayback (settled : Settled turn debts w) (t : Ref .timeline) :
    Settled turn debts { w with stage := w.stage.cancelPlayback t } := by
  unfold Stage.cancelPlayback
  split
  · next k taken =>
      have forgotten := settled.setPlayback t none fun _ none => nomatch none
      exact forgotten.abort (settled.players t k taken)
  · exact settled

variable {k : Ref .task} {job : Job}

/-- What a task owes is handed to it while it has its turn. -/
theorem begin (settled : Settled none debts w) (added : k.index < w.stage.tasks.size)
    (unended : w.stage.hasEnded k = false) :
    Settled (some (k, (w.stage.tasks.get k).job)) ((w.stage.tasks.get k).job.handles ++ debts)
      w where
  balanced := by
    refine settled.balanced.perm (List.perm_iff_count.2 fun h => ?_)
    have owed := w.stage.count_owed added h
    rw [Task.owes, show (w.stage.tasks.get k).phase.isEnded = false from unended] at owed
    simp only [List.count_append, Option.map_none, Option.map_some, owed, Bool.false_eq_true,
      if_false]
    omega
  players := settled.players
  own j job found := by
    cases found
    exact ⟨added, rfl, unended⟩

/-- The turn is over, and the task has not ended. -/
theorem resign (settled : Settled (some (k, job)) (job.handles ++ debts) w) :
    Settled none debts w where
  balanced := by
    obtain ⟨added, rfl, unended⟩ := settled.own k job rfl
    refine settled.balanced.perm (List.perm_iff_count.2 fun h => ?_)
    have owed := w.stage.count_owed added h
    rw [Task.owes, show (w.stage.tasks.get k).phase.isEnded = false from unended] at owed
    simp only [List.count_append, Option.map_none, Option.map_some, owed, Bool.false_eq_true,
      if_false]
    omega
  players := settled.players
  own := nofun

/-- The task whose turn it is ends. -/
theorem conclude (settled : Settled (some (k, job)) (job.handles ++ debts) w) (how : Ending) :
    Settled none debts ((Script.conclude how k).run w).2 := by
  obtain ⟨added, rfl, -⟩ := settled.own k job rfl
  let ended : Stage := { w.stage.modifyTask k fun row => { row with phase := .ended how } with
    agenda := { w.stage.agenda with queue := w.stage.agenda.queue.filter (· != k) } }
  have tasks : ended.tasks =
      w.stage.tasks.modify k fun row => { row with phase := .ended how } := rfl
  have size : ended.tasks.size = w.stage.tasks.size := w.stage.tasks.size_modify _ added
  have others : ended.owed (some k) = w.stage.owed (some k) := by
    refine Stage.owed_of_get size fun j ne => ?_
    rw [tasks, Table.get_modify_of_ne]
    rintro rfl
    exact ne rfl
  have nothing : (ended.tasks.get k).owes = [] := by
    rw [tasks, Table.get_modify_same]
    rfl
  have owed : (ended.owed none).Perm (w.stage.owed (some k)) := List.perm_iff_count.2 fun h => by
    rw [ended.count_owed (size ▸ added), nothing, others, List.count_nil, Nat.zero_add]
  have freed : Settled none ((w.stage.tasks.get k).job.handles ++ debts)
      { w with stage := ended } :=
    { balanced := by
        refine (settled.balanced.perm ?_).congr (fun h _ => by cases h <;> rfl)
          fun h => by cases h <;> rfl
        exact (owed.symm.append_right _).append_left _
      players := fun t j taken => size ▸ settled.players t j taken
      own := nofun }
  exact freed.releaseAll

/-- The task whose turn it is falls asleep. -/
theorem sleepUntil (settled : Settled (some (k, job)) debts w) (wake : Nat) :
    Settled (some (k, job)) debts { w with stage := w.stage.sleepUntil k wake } := by
  obtain ⟨added, doing, -⟩ := settled.own k job rfl
  have size : (w.stage.sleepUntil k wake).tasks.size = w.stage.tasks.size :=
    w.stage.tasks.size_modify _ added
  have others : (w.stage.sleepUntil k wake).owed (some k) = w.stage.owed (some k) := by
    refine Stage.owed_of_get size fun j ne => ?_
    rw [Stage.sleepUntil, Stage.requeue, Stage.modifyTask, Table.get_modify_of_ne]
    rintro rfl
    exact ne rfl
  refine ⟨?_, fun t j taken => size ▸ settled.players t j taken, fun j own found => ?_⟩
  · show (w.stage.sleepUntil k wake).Balanced
        (_ ++ ((w.stage.sleepUntil k wake).owed (some k) ++ _))
    rw [others]
    exact settled.balanced.congr (fun h _ => by cases h <;> rfl) fun h => by cases h <;> rfl
  · cases found
    refine ⟨size ▸ added, ?_, ?_⟩
    · rw [← doing]
      exact Table.proj_get_modify (g := Task.job) _ k k fun _ => rfl
    · simp [Stage.hasEnded, Stage.sleepUntil, Stage.requeue, Stage.modifyTask, Phase.isEnded]

theorem rest (settled : Settled (some (k, job)) (job.handles ++ debts) w) (wake : Nat) :
    Settled none debts ((Script.rest k wake).run w).2 := by
  unfold Script.rest
  rw [Script.run_stage_bind]
  split
  · exact settled.conclude .aborted
  · exact (settled.sleepUntil wake).resign

end Settled

end Animation
