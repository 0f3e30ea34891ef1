/-
# Who plays a timeline

Of the tasks that were ever spawned to play a timeline at most one still does. It is new, or it
sleeps until the next frame is due, so many periods after the timeline was started. What is done
to tasks, and to the task that a timeline takes for its player, leads from one such mode to
another, and leaves the clock of the timeline and its followers alone.
-/

import Animation.Proofs.Playback.Following

namespace Animation

/-- A task that has ended, or will without doing anything more. -/
def Task.IsSpent (row : Task) : Prop := row.phase.isEnded = true ∨ row.isAborted = true

/-- One that has not slept yet, or sleeps, and was not aborted, will do more. -/
theorem Task.not_isSpent_of_due {job : Job} {phase : Phase} {p : Prop} {wake : Nat}
    (due : phase = .ready ∧ p ∨ phase = .sleeping wake) :
    ¬ (Task.mk job phase false).IsSpent := by
  rintro (ended | aborted)
  · rcases due with ⟨rfl, -⟩ | rfl <;> exact nomatch ended
  · exact nomatch aborted

namespace Stage

/-- The second stage differs from the first one in tasks, in the players that timelines take and in
handles on other things than behaviours. -/
structure Retasked (s s' : Stage) : Prop where
  timeline : ∀ t, ∃ n playback,
    s'.timelines.get t = { s.timelines.get t with holders := n, playback }
  alpha : ∀ a, ∃ n, s'.alphas.get a = { s.alphas.get a with holders := n }
  binding : ∀ c, (s'.cores.get c).binding = (s.cores.get c).binding
  behaviours : s'.behaviours = s.behaviours
  emitters : s'.emitters = s.emitters
  journal : s'.journal = s.journal
  now : s'.agenda.now = s.agenda.now
  channel : s'.agenda.channel.isSome = s.agenda.channel.isSome

namespace Retasked

variable {s s' s'' : Stage}

theorem trans (h : s.Retasked s') (h' : s'.Retasked s'') : s.Retasked s'' where
  timeline t := by
    obtain ⟨n, playback, row⟩ := h.timeline t
    obtain ⟨n', playback', row'⟩ := h'.timeline t
    exact ⟨n', playback', by rw [row', row]⟩
  alpha a := by
    obtain ⟨n, row⟩ := h.alpha a
    obtain ⟨n', row'⟩ := h'.alpha a
    exact ⟨n', by rw [row', row]⟩
  binding c := (h'.binding c).trans (h.binding c)
  behaviours := h'.behaviours.trans h.behaviours
  emitters := h'.emitters.trans h.emitters
  journal := h'.journal.trans h.journal
  now := h'.now.trans h.now
  channel := h'.channel.trans h.channel

/-- Nothing but tasks and the schedule changes. -/
theorem of_tasks (s : Stage) (tasks : Table .task Task) {agenda : Agenda}
    (now : agenda.now = s.agenda.now) (channel : agenda.channel.isSome = s.agenda.channel.isSome) :
    s.Retasked { s with tasks, agenda } where
  timeline _ := ⟨_, _, rfl⟩
  alpha _ := ⟨_, rfl⟩
  binding _ := rfl
  behaviours := rfl
  emitters := rfl
  journal := rfl
  now := now
  channel := channel

theorem of_rehandled (h : s.Rehandled s') (behaviours : s'.behaviours = s.behaviours) :
    s.Retasked s' where
  timeline t := by
    obtain ⟨n, row⟩ := h.timeline t
    exact ⟨n, _, row⟩
  alpha := h.alpha
  binding := h.binding
  behaviours := behaviours
  emitters := h.emitters
  journal := h.journal
  now := by rw [h.agenda]
  channel := by rw [h.agenda]

theorem setPlayback (s : Stage) (t : Ref .timeline) (playback : Option (Ref .task)) :
    s.Retasked (s.setPlayback t playback) where
  timeline u := by
    have row := Table.get_modify s.timelines t u fun row => { row with playback }
    by_cases own : t = u
    · subst own
      exact ⟨_, playback, row.trans (if_pos rfl)⟩
    · exact ⟨_, _, row.trans (if_neg own)⟩
  alpha _ := ⟨_, rfl⟩
  binding _ := rfl
  behaviours := rfl
  emitters := rfl
  journal := rfl
  now := rfl
  channel := rfl

theorem abort (s : Stage) (k : Ref .task) : s.Retasked (s.abort k) := by
  unfold Stage.abort
  dsimp only
  split
  · exact of_tasks s s.tasks rfl rfl
  · split
    · split <;> exact of_tasks s _ rfl rfl
    · exact of_tasks s _ rfl rfl

theorem cancelPlayback (s : Stage) (t : Ref .timeline) : s.Retasked (s.cancelPlayback t) := by
  unfold Stage.cancelPlayback
  split
  · exact (setPlayback s t none).trans (abort _ _)
  · exact of_tasks s s.tasks rfl rfl

theorem spawn (s : Stage) (job : Job) : s.Retasked (s.spawn job).1 := by
  cases channel : s.agenda.channel with
  | none =>
      rw [spawn_of_no_channel channel]
      exact of_tasks s s.tasks rfl rfl
  | some reported =>
      have retained : s.Incidental (s.retainAll job.handles) :=
        .retainAll s Handle.isOnBehaviour_of_timeline?
      have first := of_rehandled (s.rehandled_retainAll job.handles) retained.behaviours
      rw [spawn_of_channel channel]
      exact first.trans (of_tasks _ _ (retained.now ▸ rfl) (by rw [retained.channel, channel]; rfl))

theorem sleepUntil (s : Stage) (k : Ref .task) (wake : Nat) : s.Retasked (s.sleepUntil k wake) :=
  of_tasks s _ rfl rfl

theorem endTask (s : Stage) (how : Ending) (k : Ref .task) : s.Retasked (s.endTask how k) := by
  have ended : s.Retasked { s.modifyTask k fun row => { row with phase := .ended how } with
      agenda := { s.agenda with queue := s.agenda.queue.filter (· != k) } } :=
    of_tasks s _ rfl rfl
  have incidental : Incidental _ (s.endTask how k) :=
    .releaseAll _ (@Handle.isOnBehaviour_of_timeline? (s.tasks.get k).job.timeline?)
  exact ended.trans (of_rehandled (s.rehandled_endTask how k) incidental.behaviours)

/-- What is read of a timeline and of those that follow it does not change. -/
theorem readings (h : s.Retasked s') (t : Ref .timeline) (members : List (Ref .behaviour)) :
    s'.clock t = s.clock t ∧ s'.emitterOf t = s.emitterOf t ∧
      s'.cues t members = s.cues t members := by
  obtain ⟨n, playback, row⟩ := h.timeline t
  have emitter : s'.emitterOf t = s.emitterOf t := by rw [emitterOf, row, emitterOf]
  exact ⟨by rw [Stage.clock, row, Stage.clock], emitter,
    by rw [Stage.cues, emitter, h.journal, Stage.cues]⟩

theorem followed (h : s.Retasked s') {t : Ref .timeline}
    {followers : List (Ref .behaviour × Easing)} (followed : s.Followed t followers) :
    s'.Followed t followers := by
  have attachments : ∀ u, s'.attachments u = s.attachments u := fun u => by
    obtain ⟨n, playback, row⟩ := h.timeline u
    rw [Stage.attachments, row, Stage.attachments]
  have alive : ∀ b, s'.isAlive (.behaviour b) = s.isAlive (.behaviour b) := fun b =>
    congrArg (fun rows : Table .behaviour Behaviour => decide (0 < (rows.get b).holders))
      h.behaviours
  have core : ∀ b, s'.coreOf b = s.coreOf b := fun b => by rw [coreOf, h.behaviours, coreOf]
  refine ⟨?_, fun f mem => ?_, attachments t ▸ followed.ids_nodup,
    fun u ne => attachments u ▸ followed.faithful u ne⟩
  · simp only [attachments, alive]
    exact followed.entries
  · rw [role?_congr core h.binding h.alpha]
    exact followed.role f mem

end Retasked

section Rows

variable {s s' : Stage} {t : Ref .timeline} {k j : Ref .task} {row : Task}

/-- A player is changed and keeps its job. -/
theorem engages_modify {f : Task → Task} (added : k.index < s.tasks.size)
    (tasks : s'.tasks = s.tasks.modify k f) (job : (f (s.tasks.get k)).job = (s.tasks.get k).job) :
    s'.Engages t j row ↔
      if j = k then (s.tasks.get k).plays t = true ∧ row = f (s.tasks.get k)
      else s.Engages t j row := by
  have size : s'.tasks.size = s.tasks.size := by rw [tasks, Table.size_modify _ _ added]
  unfold Engages
  rw [size, tasks]
  split
  · next own =>
      subst own
      rw [Table.get_modify_same]
      constructor
      · rintro ⟨-, rfl, plays⟩
        exact ⟨(Task.plays_congr job t).symm.trans plays, rfl⟩
      · rintro ⟨plays, rfl⟩
        exact ⟨added, rfl, (Task.plays_congr job t).trans plays⟩
  · next other => rw [Table.get_modify_of_ne _ _ (Ne.symm other)]

theorem tasks_endTask (s : Stage) (how : Ending) (k : Ref .task) :
    (s.endTask how k).tasks = s.tasks.modify k fun row => { row with phase := .ended how } :=
  (s.rehandled_endTask how k).tasks

theorem engages_endTask (added : k.index < s.tasks.size) (how : Ending) :
    (s.endTask how k).Engages t j row ↔
      if j = k then
        (s.tasks.get k).plays t = true ∧ row = { s.tasks.get k with phase := .ended how }
      else s.Engages t j row :=
  engages_modify added (s.tasks_endTask how k) rfl

theorem engages_sleepUntil (added : k.index < s.tasks.size) (wake : Nat) :
    (s.sleepUntil k wake).Engages t j row ↔
      if j = k then
        (s.tasks.get k).plays t = true ∧ row = { s.tasks.get k with phase := .sleeping wake }
      else s.Engages t j row :=
  engages_modify (f := fun row => { row with phase := .sleeping wake }) added rfl rfl

/-- A task that is no player is changed. -/
theorem engages_modify_of_stranger {f : Task → Task} (added : k.index < s.tasks.size)
    (tasks : s'.tasks = s.tasks.modify k f) (job : (f (s.tasks.get k)).job = (s.tasks.get k).job)
    (stranger : (s.tasks.get k).plays t = false) : s'.Engages t j row ↔ s.Engages t j row := by
  rw [engages_modify added tasks job]
  split
  · next own =>
      subst own
      constructor
      · rintro ⟨plays, -⟩
        exact nomatch stranger.symm.trans plays
      · rintro ⟨-, rfl, plays⟩
        exact nomatch stranger.symm.trans plays
  · rfl

end Rows

/-- Tasks are not taken away, and play a timeline or not as they did. -/
structure Enduring (t : Ref .timeline) (s s' : Stage) : Prop where
  size : s.tasks.size ≤ s'.tasks.size
  plays : ∀ k, k.index < s.tasks.size → (s'.tasks.get k).plays t = (s.tasks.get k).plays t

namespace Enduring

variable {s s' s'' : Stage} {t : Ref .timeline}

theorem of_tasks_eq (tasks : s'.tasks = s.tasks) : s.Enduring t s' :=
  ⟨Nat.le_of_eq (congrArg Table.size tasks.symm), fun k _ => by rw [tasks]⟩

theorem trans (h : s.Enduring t s') (h' : s'.Enduring t s'') : s.Enduring t s'' :=
  ⟨Nat.le_trans h.size h'.size,
    fun k added => (h'.plays k (Nat.lt_of_lt_of_le added h.size)).trans (h.plays k added)⟩

theorem onward {members : List (Ref .behaviour)} {new : List (Nat × Cue)}
    (h : s.Onward t members new s') : s.Enduring t s' where
  size := h.size
  plays k added := by
    have same := h.engages k
    rw [Bool.eq_iff_iff]
    constructor
    · intro plays
      obtain ⟨-, row, plays⟩ := (same _).1 ⟨Nat.lt_of_lt_of_le added h.size, rfl, plays⟩
      rw [row]
      exact plays
    · intro plays
      obtain ⟨-, row, plays⟩ := (same _).2 ⟨added, rfl, plays⟩
      rw [row]
      exact plays

theorem spawn (s : Stage) (t : Ref .timeline) (job : Job) : s.Enduring t (s.spawn job).1 :=
  ⟨(s.lasting_spawn job).size, fun k added => by rw [get_spawn job added]⟩

theorem cancelPlayback (s : Stage) (t : Ref .timeline) : s.Enduring t (s.cancelPlayback t) := by
  unfold Stage.cancelPlayback
  split
  · next k _ =>
      have untaken : s.Enduring t (s.setPlayback t none) := of_tasks_eq rfl
      refine untaken.trans ?_
      cases ended : (s.setPlayback t none).hasEnded k with
      | true =>
          rw [abort_of_hasEnded ended]
          exact of_tasks_eq rfl
      | false =>
          have tasks := tasks_abort ended
          refine ⟨?_, fun j _ => ?_⟩
          · rw [tasks]
            exact Table.size_le_size_modify ..
          · have job : (((s.setPlayback t none).modifyTask k fun row =>
                { row with isAborted := true }).tasks.get j).job = (s.tasks.get j).job :=
              Table.proj_get_modify _ k j fun _ => rfl
            rw [tasks]
            exact Task.plays_congr job t
  · exact of_tasks_eq rfl

end Enduring

/-! ## Modes -/

/-- How a timeline is played: nobody plays it, and the player that it takes, if any, has ended; or
one task does, which has played some frames since the start, sleeps until the next one is due
or has not slept yet, and has not been passed over by time. -/
inductive InMode (t : Ref .timeline) (s : Stage) : Mode → Prop
  | idle (spent : ∀ k row, s.Engages t k row → row.IsSpent)
      (ends : ∀ k, (s.timelines.get t).playback = some k →
        ∃ row, s.Engages t k row ∧ row.phase.isEnded = true) : InMode t s .idle
  | playing {k : Ref .task} {phase : Phase} {start n : Nat}
      (taken : (s.timelines.get t).playback = some k)
      (engaged : s.Engages t k ⟨.playback t (s.clock t).period, phase, false⟩)
      (others : ∀ k' row, k' ≠ k → s.Engages t k' row → row.IsSpent)
      (due : phase = .ready ∧ n = 0 ∧ s.agenda.now = start ∨
        phase = .sleeping (start + (n + 1) * (s.clock t).period))
      (early : start + n * (s.clock t).period ≤ s.agenda.now)
      (late : s.agenda.now ≤ start + (n + 1) * (s.clock t).period) : InMode t s (.playing start n)

namespace InMode

variable {s s' : Stage} {t : Ref .timeline} {mode : Mode} {k : Ref .task}

theorem isPlaying_of_idle (h : s.InMode t .idle) : s.isPlaying t = false := by
  cases h with
  | idle spent ends =>
      unfold isPlaying
      split
      · next k taken =>
          obtain ⟨row, ⟨-, rfl, -⟩, ended⟩ := ends k taken
          rw [hasEnded, ended]
          rfl
      · rfl

theorem isPlaying_of_playing {start n : Nat} (h : s.InMode t (.playing start n)) :
    s.isPlaying t = true := by
  cases h with
  | playing taken engaged _ due _ _ =>
      unfold isPlaying
      rw [taken]
      obtain ⟨-, row, -⟩ := engaged
      simp only [hasEnded, row]
      rcases due with ⟨rfl, -⟩ | rfl <;> rfl

/-- The mode is read off the player that is taken, the rows of players, the time and the period. -/
theorem congr (h : s.InMode t mode)
    (playback : (s'.timelines.get t).playback = (s.timelines.get t).playback)
    (engages : ∀ k row, s'.Engages t k row ↔ s.Engages t k row) (now : s'.agenda.now = s.agenda.now)
    (period : (s'.clock t).period = (s.clock t).period) : s'.InMode t mode := by
  cases h with
  | idle spent ends =>
      refine .idle (fun k row engaged => spent k row ((engages k row).1 engaged)) fun k taken => ?_
      obtain ⟨row, engaged, ended⟩ := ends k (playback.symm.trans taken)
      exact ⟨row, (engages k row).2 engaged, ended⟩
  | playing taken engaged others due early late =>
      rw [← period, ← now] at due
      rw [← period] at engaged
      rw [← period, ← now] at early late
      exact .playing (playback.trans taken) ((engages _ _).2 engaged)
        (fun k' row ne engaged' => others k' row ne ((engages k' row).1 engaged')) due early late

/-- A task that plays the timeline and is not spent is the one that is taken. -/
theorem of_unspent (h : s.InMode t mode) {row : Task} (engaged : s.Engages t k row)
    (unspent : ¬ row.IsSpent) :
    ∃ start n, mode = .playing start n ∧ (s.timelines.get t).playback = some k ∧
      row = ⟨.playback t (s.clock t).period, row.phase, false⟩ ∧
      (∀ k' row, k' ≠ k → s.Engages t k' row → row.IsSpent) ∧
      (row.phase = .ready ∧ n = 0 ∧ s.agenda.now = start ∨
        row.phase = .sleeping (start + (n + 1) * (s.clock t).period)) ∧
      s.agenda.now ≤ start + (n + 1) * (s.clock t).period := by
  cases h with
  | idle spent _ => exact absurd (spent k row engaged) unspent
  | @playing j phase start n taken engaged' others due early late =>
      by_cases own : k = j
      · subst own
        obtain ⟨-, rfl, -⟩ := engaged
        obtain ⟨-, row, -⟩ := engaged'
        rw [row]
        exact ⟨start, n, rfl, taken, rfl, others, due, late⟩
      · exact absurd (others k row own engaged) unspent

/-- A task is spawned and taken to play the timeline. -/
theorem launch (h : s.InMode t .idle) (channel : s.agenda.channel.isSome = true) :
    ∃ k, (s.spawn (.playback t (s.clock t).period)).2 = some k ∧
      ((s.spawn (.playback t (s.clock t).period)).1.setPlayback t (some k)).InMode t
        (.playing s.agenda.now 0) := by
  let job : Job := .playback t (s.clock t).period
  obtain ⟨reported, present⟩ := Option.isSome_iff_exists.1 channel
  have spawned := spawn_of_channel present job
  have tasks := tasks_spawn job channel
  let k := s.tasks.next
  let s' := (s.spawn job).1.setPlayback t (some k)
  have retasked : s.Retasked s' := (Retasked.spawn s job).trans (.setPlayback _ t (some k))
  have period : (s'.clock t).period = (s.clock t).period :=
    congrArg Clock.period (retasked.readings t []).1
  refine ⟨k, by rw [spawned], ?_⟩
  show s'.InMode t _
  refine @InMode.playing t s' k .ready _ _ (congrArg Timeline.playback (Table.get_modify_same ..))
    ⟨?_, ?_, decide_eq_true rfl⟩ (fun j row ne engaged => ?_) (.inl ⟨rfl, rfl, retasked.now⟩)
    (by rw [retasked.now]; omega) (by rw [retasked.now]; omega)
  · show k.index < (s.spawn job).1.tasks.size
    rw [tasks, Table.size_push]
    exact Nat.lt_succ_self _
  · show (s.spawn job).1.tasks.get k = _
    rw [tasks, Table.get_push_next, period]
  · obtain ⟨added, rfl, plays⟩ := engaged
    change j.index < (s.spawn job).1.tasks.size at added
    change ((s.spawn job).1.tasks.get j).plays t = true at plays
    show ((s.spawn job).1.tasks.get j).IsSpent
    cases h with
    | idle spent _ =>
        have old : (s.spawn job).1.tasks.get j = s.tasks.get j := by
          rw [tasks, Table.get_push, if_neg ne]
        rw [tasks, Table.size_push] at added
        have other : j.index ≠ s.tasks.size := fun same => ne (congrArg Ref.mk same)
        rw [old] at plays ⊢
        exact spent j _ ⟨by omega, rfl, plays⟩

/-- The player that is taken is told to end. -/
theorem halt (h : s.InMode t mode) : (s.cancelPlayback t).InMode t .idle := by
  have untaken : ∀ s : Stage, ((s.setPlayback t none).timelines.get t).playback = none := fun s =>
    congrArg Timeline.playback (Table.get_modify_same ..)
  have same : ∀ k, ((s.setPlayback t none).abort k).timelines = (s.setPlayback t none).timelines :=
    fun k => by
      unfold abort
      dsimp only
      split
      · rfl
      · split
        · split <;> rfl
        · rfl
  unfold cancelPlayback
  cases h with
  | idle spent ends =>
      split
      · next k taken =>
          obtain ⟨row, ⟨-, rfl, -⟩, ended⟩ := ends k taken
          rw [abort_of_hasEnded (s := s.setPlayback t none) ended]
          exact .idle spent fun _ taken => nomatch (untaken s).symm.trans taken
      · next untaken =>
          exact .idle spent fun _ taken => nomatch untaken.symm.trans taken
  | @playing k phase start n taken engaged others due _ _ =>
      rw [taken]
      obtain ⟨added, row, plays⟩ := engaged
      have unended : s.hasEnded k = false := by
        rw [hasEnded, row]
        rcases due with ⟨rfl, -⟩ | rfl <;> rfl
      have tasks := tasks_abort (s := s.setPlayback t none) unended
      refine .idle (fun j row' engaged' => ?_) fun j taken' => ?_
      · rw [engages_modify (s := s) (f := fun row => { row with isAborted := true }) added tasks
          rfl] at engaged'
        split at engaged'
        · rw [engaged'.2]
          exact .inr rfl
        · next other => exact others j row' other engaged'
      · dsimp only at taken'
        rw [same, untaken] at taken'
        exact nomatch taken'

theorem playback_endTask (s : Stage) (how : Ending) (k : Ref .task) (t : Ref .timeline) :
    ((s.endTask how k).timelines.get t).playback = (s.timelines.get t).playback := by
  obtain ⟨n, row⟩ := (s.rehandled_endTask how k).timeline t
  rw [row]
  rfl

/-- A task ends that does not play the timeline any more, or never did. -/
theorem dismiss (h : s.InMode t mode) (added : k.index < s.tasks.size)
    (idle : ∀ row, s.Engages t k row → row.IsSpent) (how : Ending) :
    (s.endTask how k).InMode t mode := by
  have playback := playback_endTask s how k t
  have retasked := Retasked.endTask s how k
  have period := congrArg Clock.period (retasked.readings t []).1
  cases h with
  | idle spent ends =>
      refine .idle (fun j row engaged => ?_) fun j taken => ?_
      · rw [engages_endTask added] at engaged
        split at engaged
        · rw [engaged.2]
          exact .inl rfl
        · exact spent j row engaged
      · obtain ⟨row, engaged, ended⟩ := ends j (playback.symm.trans taken)
        by_cases own : j = k
        · subst own
          obtain ⟨-, rfl, plays⟩ := engaged
          exact ⟨_, (engages_endTask added how).2 (by rw [if_pos rfl]; exact ⟨plays, rfl⟩), rfl⟩
        · exact ⟨row, (engages_endTask added how).2 (by rw [if_neg own]; exact engaged), ended⟩
  | @playing k' phase start n taken engaged others due early late =>
      have other : k' ≠ k := by
        rintro rfl
        exact Task.not_isSpent_of_due due (idle _ engaged)
      rw [← period, ← retasked.now] at due
      rw [← period] at engaged
      rw [← period, ← retasked.now] at early late
      refine .playing (playback.trans taken)
        ((engages_endTask added how).2 (by rw [if_neg other]; exact engaged))
        (fun j row ne engaged' => ?_) due early late
      rw [engages_endTask added] at engaged'
      split at engaged'
      · rw [engaged'.2]
        exact .inl rfl
      · exact others j row ne engaged'

/-- Time passes, but not beyond the moment at which a player wakes up. -/
theorem setNow (h : s.InMode t mode) {now : Nat} (later : s.agenda.now ≤ now)
    (timely : ∀ k row, s.Engages t k row → ¬ row.IsSpent → s.isRunnable k = false ∧
      ∀ wake, row.phase = .sleeping wake → now ≤ wake) : (s.setNow now).InMode t mode := by
  cases h with
  | idle spent ends => exact .idle spent ends
  | playing taken engaged others due early late =>
      obtain ⟨waits, wakes⟩ := timely _ _ engaged (Task.not_isSpent_of_due due)
      rcases due with ⟨rfl, -, -⟩ | rfl
      · -- A player that has not slept yet has its turn first.
        obtain ⟨-, row, -⟩ := engaged
        rw [isRunnable, row] at waits
        exact Bool.noConfusion waits
      · exact .playing taken engaged others (.inr rfl) (Nat.le_trans early later) (wakes _ rfl)

/-- The task that plays the timeline ends. -/
theorem finish (added : k.index < s.tasks.size) (plays : (s.tasks.get k).plays t = true)
    (taken : (s.timelines.get t).playback = some k)
    (others : ∀ k' row, k' ≠ k → s.Engages t k' row → row.IsSpent) (how : Ending) :
    (s.endTask how k).InMode t .idle := by
  refine .idle (fun j row engaged => ?_) fun j taken' => ?_
  · rw [engages_endTask added] at engaged
    split at engaged
    · rw [engaged.2]
      exact .inl rfl
    · next other => exact others j row other engaged
  · cases Option.some.inj (taken.symm.trans ((playback_endTask s how k t).symm.trans taken'))
    exact ⟨_, (engages_endTask added how).2 (by rw [if_pos rfl]; exact ⟨plays, rfl⟩), rfl⟩

/-- The task that plays the timeline sleeps until the next frame is due. -/
theorem sleep {start n : Nat} (added : k.index < s.tasks.size)
    (row : s.tasks.get k = ⟨.playback t (s.clock t).period, (s.tasks.get k).phase, false⟩)
    (taken : (s.timelines.get t).playback = some k)
    (others : ∀ k' row, k' ≠ k → s.Engages t k' row → row.IsSpent)
    (early : start + n * (s.clock t).period ≤ s.agenda.now)
    (late : s.agenda.now ≤ start + (n + 1) * (s.clock t).period) :
    (s.sleepUntil k (start + (n + 1) * (s.clock t).period)).InMode t (.playing start n) := by
  let wake := start + (n + 1) * (s.clock t).period
  have plays : (s.tasks.get k).plays t = true := by
    rw [row]
    exact decide_eq_true rfl
  refine @InMode.playing t _ k (.sleeping wake) _ _ taken ((engages_sleepUntil added wake).2 ?_)
    (fun j row' ne engaged => ?_) (.inr rfl) early late
  · rw [if_pos rfl]
    refine ⟨plays, ?_⟩
    rw [row]
    rfl
  · rw [engages_sleepUntil added, if_neg ne] at engaged
    exact others j row' ne engaged

end InMode

end Stage

end Animation
