/-
# Tasks and the score

What becomes of the players of a timeline, and of its score, when a task is spawned, told to
end, falls asleep, or ends. A task that does something else is no player, and leaves the score
as it is.
-/

import Animation.Proofs.Playback.Players

namespace Animation.Stage

variable {t : Ref .timeline} {s : Stage} {k : Ref .task}

/-- To change a task changes one player, if the task is a player. -/
theorem players_modifyTask (added : k.index < s.tasks.size) {f : Task → Task} {g : Player → Player}
    (job : (f (s.tasks.get k)).job = (s.tasks.get k).job)
    (player : g ⟨k, s.hasEnded k, (s.tasks.get k).isAborted⟩ =
      ⟨k, (f (s.tasks.get k)).phase.isEnded, (f (s.tasks.get k)).isAborted⟩) :
    (s.modifyTask k f).players t = (s.players t).map (Player.modify k g) := by
  have refs : (s.modifyTask k f).tasks.refs = s.tasks.refs := by
    rw [Table.refs, Table.refs]
    congr 2
    exact s.tasks.size_modify f added
  rw [players, players, refs, List.map_filterMap]
  congr 1
  funext j
  by_cases same : j = k
  · subst same
    have plays := Task.plays_congr job t
    simp only [player?, hasEnded, Stage.modifyTask, Table.get_modify_same, plays] at player ⊢
    split <;> simp [Player.modify, player]
  · have other : (s.modifyTask k f).tasks.get j = s.tasks.get j :=
      Table.get_modify_of_ne _ _ (Ne.symm same)
    simp only [player?, hasEnded, other]
    split <;> simp [Player.modify, same]

/-- A task ends, and then gives up its handles. -/
theorem rehandled_endTask (s : Stage) (how : Ending) (k : Ref .task) :
    Rehandled { s.modifyTask k fun row => { row with phase := .ended how } with
      agenda := { s.agenda with queue := s.agenda.queue.filter (· != k) } } (s.endTask how k) :=
  rehandled_releaseAll _ _

theorem players_endTask (added : k.index < s.tasks.size) (how : Ending) :
    (s.endTask how k).players t = (s.players t).map (Player.modify k .finish) := by
  rw [players_congr (s.rehandled_endTask how k).tasks]
  exact players_modifyTask added rfl rfl

theorem hasEnded_of_isRunnable (h : s.isRunnable k = true) : s.hasEnded k = false := by
  unfold isRunnable at h
  dsimp only at h
  unfold hasEnded
  cases phase : (s.tasks.get k).phase with
  | ready | sleeping _ => rfl
  | ended _ =>
      rw [phase] at h
      exact nomatch h

/-- A task that has ended is not told to end. -/
theorem abort_of_hasEnded (ended : s.hasEnded k = true) : s.abort k = s := by
  unfold hasEnded at ended
  unfold abort
  cases phase : (s.tasks.get k).phase with
  | ended _ => simp only [phase]
  | ready | sleeping _ => simp [phase, Phase.isEnded] at ended

theorem tasks_abort (unended : s.hasEnded k = false) :
    (s.abort k).tasks = (s.modifyTask k fun row => { row with isAborted := true }).tasks := by
  unfold hasEnded at unended
  unfold abort
  dsimp only
  split
  · next ended =>
      rw [ended] at unended
      exact nomatch unended
  · split
    · split <;> rfl
    · rfl

theorem players_abort (added : k.index < s.tasks.size) :
    (s.abort k).players t = (s.players t).map (Player.modify k .abort) := by
  cases ended : s.hasEnded k with
  | true =>
      rw [abort_of_hasEnded ended]
      conv_lhs => rw [← List.map_id (s.players t)]
      apply List.map_congr_left
      intro p mem
      obtain ⟨-, -, hasEnded, -⟩ := mem_players.1 mem
      by_cases own : p.task = k
      · rw [own, ended] at hasEnded
        obtain ⟨task, _, isAborted⟩ := p
        cases hasEnded
        simp [Player.modify, Player.abort]
      · rw [Player.modify, if_neg own]
        rfl
  | false =>
      rw [players_congr (tasks_abort ended)]
      refine players_modifyTask added rfl ?_
      rw [Player.abort, ended, Bool.not_false, Bool.or_true]
      exact congrArg (Player.mk k · true) ended.symm

theorem Orderly.modifyTask (h : s.Orderly) (added : k.index < s.tasks.size) {f : Task → Task}
    (job : ∀ row, (f row).job = row.job) : (s.modifyTask k f).Orderly := by
  have size := s.tasks.size_modify f added
  refine ⟨fun j mem => Nat.lt_of_lt_of_eq (h.queued j mem) size.symm, fun u j taken => ?_⟩
  obtain ⟨before, plays⟩ := h.taken u j taken
  have same : ((s.modifyTask k f).tasks.get j).job = (s.tasks.get j).job :=
    Table.proj_get_modify _ k j job
  exact ⟨Nat.lt_of_lt_of_eq before size.symm, (Task.plays_congr same u).trans plays⟩

theorem Orderly.requeue (h : s.Orderly) (added : k.index < s.tasks.size) :
    (s.requeue k).Orderly := by
  refine ⟨fun j mem => ?_, h.taken⟩
  rcases List.mem_append.1 mem with mem | mem
  · exact h.queued j (List.mem_of_mem_filter mem)
  · cases List.mem_singleton.1 mem
    exact added

theorem spawn_of_channel {reported : List (Ref .task)} (channel : s.agenda.channel = some reported)
    (job : Job) :
    s.spawn job =
      ({ s.retainAll job.handles with
          tasks := s.tasks.push ⟨job, .ready, false⟩
          agenda := { s.agenda with
            queue := s.agenda.queue ++ [s.tasks.next]
            channel := some (reported ++ [s.tasks.next]) } }, some s.tasks.next) := by
  have retained := s.rehandled_retainAll job.handles
  simp only [spawn, channel, retained.tasks, retained.agenda]

theorem spawn_of_no_channel (channel : s.agenda.channel = none) (job : Job) :
    s.spawn job = (s, none) := by
  simp only [spawn, channel]

theorem tasks_spawn (job : Job) (channel : s.agenda.channel.isSome) :
    (s.spawn job).1.tasks = s.tasks.push ⟨job, .ready, false⟩ := by
  obtain ⟨reported, present⟩ := Option.isSome_iff_exists.1 channel
  rw [spawn_of_channel present]

/-- A new task is not one that was there before. -/
theorem get_spawn (job : Job) (added : k.index < s.tasks.size) :
    (s.spawn job).1.tasks.get k = s.tasks.get k := by
  cases channel : s.agenda.channel with
  | none => rw [spawn_of_no_channel channel]
  | some reported =>
      rw [spawn_of_channel channel]
      show (s.tasks.push _).get k = _
      rw [Table.get_push, if_neg]
      rintro rfl
      exact Nat.lt_irrefl _ added

theorem lasting_spawn (s : Stage) (job : Job) : s.Lasting (s.spawn job).1 := by
  refine ⟨?_, fun k added => ?_⟩
  · cases channel : s.agenda.channel with
    | none => exact Nat.le_of_eq (by rw [spawn_of_no_channel channel])
    | some reported =>
        rw [spawn_of_channel channel]
        exact Nat.le_of_lt (Nat.lt_of_lt_of_eq (Nat.lt_succ_self _) (Table.size_push _ _).symm)
  · rw [hasEnded, get_spawn job added, hasEnded]

theorem steady_spawn (s : Stage) (t : Ref .timeline) (job : Job) : s.Steady t (s.spawn job).1 := by
  cases channel : s.agenda.channel with
  | none =>
      rw [spawn_of_no_channel channel]
      exact .refl t s
  | some reported =>
      have retained := s.rehandled_retainAll job.handles
      have first : s.Unplayed t (s.retainAll job.handles) := .ofRehandled retained
      have spawned := spawn_of_channel channel job
      refine ⟨?_, ?_, ?_, ?_, fun orderly => ⟨fun k mem => ?_, fun u k taken => ?_⟩⟩
      · exact spawned ▸ first.size
      · exact spawned ▸ first.emitter
      · exact spawned ▸ first.isHeld
      · rw [spawned, channel]
        rfl
      · rw [tasks_spawn job (by simp [channel]), Table.size_push]
        rw [spawned] at mem
        rcases List.mem_append.1 mem with mem | mem
        · exact Nat.lt_succ_of_lt (orderly.queued k mem)
        · cases List.mem_singleton.1 mem
          exact Nat.lt_succ_self _
      · rw [spawned] at taken
        obtain ⟨added, plays⟩ := (first.orderly orderly).taken u k taken
        rw [retained.tasks] at added plays
        rw [get_spawn job added]
        exact ⟨Nat.lt_of_lt_of_le added (s.lasting_spawn job).size, plays⟩

/-- A task that was spawned is there, and does the job. -/
theorem get_of_spawn {job : Job} (spawned : (s.spawn job).2 = some k) :
    k.index < (s.spawn job).1.tasks.size ∧ (s.spawn job).1.tasks.get k = ⟨job, .ready, false⟩ := by
  cases channel : s.agenda.channel with
  | none =>
      rw [spawn_of_no_channel channel] at spawned
      exact nomatch spawned
  | some reported =>
      have present : s.agenda.channel.isSome = true := by rw [channel]; rfl
      rw [spawn_of_channel channel] at spawned
      cases spawned
      rw [tasks_spawn job present, Table.size_push, Table.get_push_next]
      exact ⟨Nat.lt_succ_self _, rfl⟩

theorem players_spawn (job : Job) (channel : s.agenda.channel.isSome) :
    (s.spawn job).1.players t = s.players t ++
      if (Task.mk job .ready false).plays t then [⟨s.tasks.next, false, false⟩] else [] := by
  have others : s.tasks.refs.filterMap ((s.spawn job).1.player? t) = s.players t := by
    apply List.filterMap_congr
    intro j mem
    simp only [player?, hasEnded, get_spawn job (Table.mem_refs.1 mem)]
  have new : (s.spawn job).1.tasks.get s.tasks.next = ⟨job, .ready, false⟩ := by
    rw [tasks_spawn job channel, Table.get_push_next]
  rw [players, tasks_spawn job channel, Table.refs_push, List.filterMap_append, others]
  congr 1
  by_cases plays : (Task.mk job .ready false).plays t = true <;>
    simp [player?, hasEnded, new, plays, Phase.isEnded]

theorem score_spawn (job : Job) (channel : s.agenda.channel.isSome) :
    (s.spawn job).1.score t = { s.score t with
      players := s.players t ++
        if (Task.mk job .ready false).plays t then [⟨s.tasks.next, false, false⟩] else [] } := by
  obtain ⟨reported, present⟩ := Option.isSome_iff_exists.1 channel
  have retained := s.rehandled_retainAll job.handles
  have first : s.Unplayed t (s.retainAll job.handles) := .ofRehandled retained
  rw [← players_spawn job channel]
  apply score_of_players <;> rw [spawn_of_channel present]
  · exact congrArg Score.playback first.score
  · exact first.emitter
  · exact retained.journal

/-- To spawn a task with another job. -/
theorem Unplayed.spawn (s : Stage) {t : Ref .timeline} {job : Job}
    (stranger : (Task.mk job .ready false).plays t = false) : s.Unplayed t (s.spawn job).1 := by
  refine ⟨s.steady_spawn t job, s.lasting_spawn job, ?_⟩
  cases channel : s.agenda.channel with
  | none => rw [spawn_of_no_channel channel]
  | some reported =>
      rw [score_spawn job (by simp [channel]), stranger, if_neg Bool.false_ne_true,
        List.append_nil]
      rfl

theorem steady_abort (added : k.index < s.tasks.size) : s.Steady t (s.abort k) := by
  have modified : s.Steady t (s.modifyTask k fun row => { row with isAborted := true }) :=
    ⟨Nat.le_refl _, rfl, rfl, rfl, fun orderly => orderly.modifyTask added fun _ => rfl⟩
  unfold abort
  dsimp only
  split
  · exact .refl t s
  · split
    · split
      · exact modified
      · refine modified.trans ⟨Nat.le_refl _, rfl, rfl, rfl, fun orderly => orderly.requeue ?_⟩
        exact Nat.lt_of_lt_of_eq added (s.tasks.size_modify _ added).symm
    · exact modified

theorem job_abort (s : Stage) (k j : Ref .task) :
    ((s.abort k).tasks.get j).job = (s.tasks.get j).job := by
  cases ended : s.hasEnded k with
  | true => rw [abort_of_hasEnded ended]
  | false =>
      rw [tasks_abort ended]
      exact Table.proj_get_modify (g := Task.job) _ k j fun _ => rfl

theorem lasting_abort (s : Stage) (k : Ref .task) : s.Lasting (s.abort k) := by
  cases ended : s.hasEnded k with
  | true =>
      rw [abort_of_hasEnded ended]
      exact .of_tasks_eq rfl
  | false =>
      have tasks := tasks_abort ended
      refine ⟨?_, fun j _ => ?_⟩
      · rw [tasks]
        exact Table.size_le_size_modify ..
      · unfold hasEnded
        rw [tasks]
        exact congrArg Phase.isEnded (Table.proj_get_modify s.tasks k j fun _ => rfl)

theorem score_abort (added : k.index < s.tasks.size) :
    (s.abort k).score t = { s.score t with
      players := (s.players t).map (Player.modify k .abort) } := by
  rw [← players_abort added]
  have rest : (s.abort k).timelines = s.timelines ∧ (s.abort k).journal = s.journal := by
    unfold abort
    dsimp only
    split
    · exact ⟨rfl, rfl⟩
    · split
      · split <;> exact ⟨rfl, rfl⟩
      · exact ⟨rfl, rfl⟩
  apply score_of_players
  · rw [rest.1]
  · rw [emitterOf, rest.1, emitterOf]
  · exact rest.2

/-- To abort a task with another job. -/
theorem Unplayed.abort (added : k.index < s.tasks.size)
    (stranger : (s.tasks.get k).plays t = false) : s.Unplayed t (s.abort k) := by
  refine ⟨steady_abort added, lasting_abort s k, ?_⟩
  have others : (s.players t).map (Player.modify k .abort) = s.players t := by
    conv_rhs => rw [← List.map_id (s.players t)]
    apply List.map_congr_left
    intro p mem
    obtain ⟨-, plays, -⟩ := mem_players.1 mem
    refine if_neg fun same => ?_
    rw [same, stranger] at plays
    exact nomatch plays
  rw [score_abort added, others]
  rfl

theorem hasEnded_sleepUntil (unended : s.hasEnded k = false) (wake : Nat) (j : Ref .task) :
    (s.sleepUntil k wake).hasEnded j = s.hasEnded j := by
  show ((s.tasks.modify k _).get j).phase.isEnded = _
  rw [Table.get_modify]
  split
  · next same => exact same ▸ unended.symm
  · rfl

theorem players_sleepUntil (added : k.index < s.tasks.size) (unended : s.hasEnded k = false)
    (wake : Nat) : (s.sleepUntil k wake).players t = s.players t := by
  have slept : (s.modifyTask k fun row => { row with phase := .sleeping wake }).players t =
      (s.players t).map (Player.modify k id) :=
    players_modifyTask added rfl (congrArg (Player.mk k · _) unended)
  refine ((players_congr rfl).trans slept).trans ?_
  rw [Player.modify_id, List.map_id]

/-- To let a task sleep that has not ended. -/
theorem Unplayed.sleepUntil (added : k.index < s.tasks.size) (unended : s.hasEnded k = false)
    (wake : Nat) : s.Unplayed t (s.sleepUntil k wake) := by
  have size := s.tasks.size_modify (fun row => { row with phase := .sleeping wake }) added
  refine ⟨⟨Nat.le_refl _, rfl, rfl, rfl, fun orderly => ?_⟩,
    ⟨Nat.le_of_eq size.symm, fun j _ => hasEnded_sleepUntil unended wake j⟩, ?_⟩
  · have modified : (s.modifyTask k fun row => { row with phase := .sleeping wake }).Orderly :=
      orderly.modifyTask added fun _ => rfl
    exact modified.requeue (Nat.lt_of_lt_of_eq added size.symm)
  · refine (score_of_players rfl rfl rfl).trans ?_
    rw [players_sleepUntil added unended]
    rfl

theorem steady_endTask (added : k.index < s.tasks.size) (how : Ending) :
    s.Steady t (s.endTask how k) := by
  have released : Unplayed t _ _ := .ofRehandled (s.rehandled_endTask how k)
  refine ⟨released.size, released.emitter, released.isHeld, released.channel, fun orderly =>
    released.orderly ?_⟩
  have modified : (s.modifyTask k fun row => { row with phase := .ended how }).Orderly :=
    orderly.modifyTask added fun _ => rfl
  exact ⟨fun j mem => modified.queued j (List.mem_of_mem_filter mem), modified.taken⟩

theorem score_endTask (added : k.index < s.tasks.size) (how : Ending) :
    (s.endTask how k).score t = (s.score t).finish k := by
  have released : Unplayed t _ _ := .ofRehandled (s.rehandled_endTask how k)
  refine (score_of_players (congrArg Score.playback released.score) released.emitter
    (s.rehandled_endTask how k).journal).trans ?_
  show { s.score t with players := (s.endTask how k).players t } = _
  rw [players_endTask added how]
  rfl

end Animation.Stage
