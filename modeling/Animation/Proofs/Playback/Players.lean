/-
# The score on a stage

The score of a timeline is read off the stage: the players are the tasks with the job to play
the timeline, and announcements and frames are counted in the journal. Most of what happens on
a stage leaves the score of a timeline as it is, and is said to leave it unplayed.
-/

import Animation.Proofs.Playback.Score
import Animation.Proofs.Stage.Bindings
import Animation.Stage.Emission

namespace Animation

/-- Whether a task plays a timeline. -/
def Task.plays (row : Task) (t : Ref .timeline) : Bool :=
  match row.job with
  | .playback u _ => u = t
  | _ => false

namespace Task

theorem plays_congr {row row' : Task} (job : row'.job = row.job) (t : Ref .timeline) :
    row'.plays t = row.plays t := by
  rw [plays, plays, job]

/-- A task does not play two timelines. -/
theorem plays_of_ne {row : Task} {t u : Ref .timeline} (plays : row.plays u = true) (ne : u ≠ t) :
    row.plays t = false := by
  unfold Task.plays at *
  cases job : row.job <;> simp_all

end Task

/-- Whether an occurrence counts for the score of a timeline: a frame of it is played, or its
start or its pause is announced. -/
def Occurrence.scores (t : Ref .timeline) : Occurrence → Bool
  | .moved u _ _ => u = t
  | .emitted _ event payload =>
      payload = .timeline t &&
        (event = TimelineEvent.started.name || event = TimelineEvent.paused.name)
  | _ => false

namespace Stage

variable (s : Stage) (t : Ref .timeline)

/-- What a task is to a timeline, if it is one of its players. -/
def player? (k : Ref .task) : Option Player :=
  if (s.tasks.get k).plays t then some ⟨k, s.hasEnded k, (s.tasks.get k).isAborted⟩ else none

/-- The tasks that were ever spawned to play a timeline. -/
def players : List Player := s.tasks.refs.filterMap (s.player? t)

/-- The emitter of a timeline. -/
def emitterOf : Ref .emitter := (s.timelines.get t).emitter

/-- How often an event of a timeline was announced. -/
def announced (event : TimelineEvent) : Nat :=
  s.journal.countP fun entry => entry.what = .emitted (s.emitterOf t) event.name (.timeline t)

/-- Whether an occurrence is that a timeline has moved to a frame. -/
def isMove : Occurrence → Bool
  | .moved u _ _ => u = t
  | _ => false

/-- How many frames of a timeline were played. -/
def framesPlayed : Nat := s.journal.countP fun entry => isMove t entry.what

/-- The score of a timeline. -/
def score : Score where
  players := s.players t
  playback := (s.timelines.get t).playback
  started := s.announced t .started
  paused := s.announced t .paused
  frames := s.framesPlayed t

variable {s t}

theorem mem_players {p : Player} :
    p ∈ s.players t ↔ p.task.index < s.tasks.size ∧ (s.tasks.get p.task).plays t = true ∧
      p.hasEnded = s.hasEnded p.task ∧ p.isAborted = (s.tasks.get p.task).isAborted := by
  obtain ⟨task, hasEnded, isAborted⟩ := p
  simp only [players, List.mem_filterMap, Table.mem_refs, player?]
  constructor
  · rintro ⟨k, added, found⟩
    split at found
    · next plays =>
        cases found
        exact ⟨added, plays, rfl, rfl⟩
    · exact nomatch found
  · rintro ⟨added, plays, rfl, rfl⟩
    exact ⟨task, added, if_pos plays⟩

theorem nodup_players (s : Stage) (t : Ref .timeline) :
    ((s.players t).map (·.task)).Nodup := by
  have tasks : (s.players t).map (·.task) =
      s.tasks.refs.filter fun k => (s.tasks.get k).plays t := by
    rw [players, List.map_filterMap, ← List.filterMap_eq_filter]
    congr 1
    funext k
    by_cases plays : (s.tasks.get k).plays t = true <;> simp [player?, Option.guard, plays]
  rw [tasks]
  exact (s.tasks.nodup_refs).filter _

/-- If the score is sound then a timeline is played just if the score says so. -/
theorem isPlaying_eq (h : (s.score t).Sound) : s.isPlaying t = (s.score t).isPlaying := by
  unfold isPlaying
  cases taken : (s.timelines.get t).playback with
  | none =>
      symm
      apply List.any_eq_false.2
      intro p mem active
      have same := h.only p mem active
      exact nomatch taken.symm.trans same
  | some k =>
      -- The player that is taken was not told to end, so it is active unless it has ended.
      obtain ⟨p, mem, rfl, unaborted⟩ := h.current k taken
      obtain ⟨-, -, ended, -⟩ := mem_players.1 mem
      show (!s.hasEnded p.task) = _
      rw [← ended]
      cases unended : p.hasEnded with
      | false =>
          symm
          exact List.any_eq_true.2 ⟨p, mem, by simp [Player.isActive, unended, unaborted]⟩
      | true =>
          symm
          apply List.any_eq_false.2
          intro q mem' active
          have same := Option.some.inj ((h.only q mem' active).symm.trans taken)
          cases h.eq_of_task_eq mem' mem same
          simp [Player.isActive, unended] at active

theorem players_congr {s' : Stage} (same : s'.tasks = s.tasks) : s'.players t = s.players t := by
  have player : s'.player? t = s.player? t := by
    funext k
    rw [player?, player?, hasEnded, hasEnded, same]
  rw [players, players, player, same]

/-- The score after a change of tasks. -/
theorem score_of_players {s' : Stage} (playback : (s'.timelines.get t).playback =
    (s.timelines.get t).playback) (emitter : s'.emitterOf t = s.emitterOf t)
    (journal : s'.journal = s.journal) :
    s'.score t = { s.score t with players := s'.players t } := by
  simp only [score, playback, announced, framesPlayed, emitter, journal]

theorem announced_note (s : Stage) (t : Ref .timeline) (what : Occurrence) (event : TimelineEvent) :
    (s.note what).announced t event = s.announced t event +
      if what = .emitted (s.emitterOf t) event.name (.timeline t) then 1 else 0 := by
  refine List.countP_cons.trans ?_
  simp only [decide_eq_true_eq]
  rfl

theorem framesPlayed_note (s : Stage) (t : Ref .timeline) (what : Occurrence) :
    (s.note what).framesPlayed t = s.framesPlayed t + if isMove t what then 1 else 0 :=
  List.countP_cons

/-- A note can change how often something was announced or a frame was played, and nothing else. -/
theorem score_note (s : Stage) (t : Ref .timeline) (what : Occurrence) :
    (s.note what).score t = { s.score t with
      started := (s.note what).announced t .started
      paused := (s.note what).announced t .paused
      frames := (s.note what).framesPlayed t } := rfl

/-- The tasks of the queue have been spawned, and so have those that timelines take for their
players, each to play the timeline. -/
structure Orderly (s : Stage) : Prop where
  queued : ∀ k ∈ s.agenda.queue, k.index < s.tasks.size
  taken : ∀ u k, (s.timelines.get u).playback = some k →
    k.index < s.tasks.size ∧ (s.tasks.get k).plays u = true

/-- Tasks may be spawned, but none of them ends. -/
structure Lasting (s s' : Stage) : Prop where
  size : s.tasks.size ≤ s'.tasks.size
  hasEnded : ∀ k, k.index < s.tasks.size → s'.hasEnded k = s.hasEnded k

namespace Lasting

theorem of_tasks_eq {s s' : Stage} (same : s'.tasks = s.tasks) : s.Lasting s' where
  size := Nat.le_of_eq (congrArg Table.size same.symm)
  hasEnded k _ := by rw [Stage.hasEnded, same, Stage.hasEnded]

theorem trans {s s' s'' : Stage} (h : s.Lasting s') (h' : s'.Lasting s'') : s.Lasting s'' where
  size := Nat.le_trans h.size h'.size
  hasEnded k added := (h'.hasEnded k (Nat.lt_of_lt_of_le added h.size)).trans (h.hasEnded k added)

end Lasting

/-- What has to stay as it is for a timeline to be played on: the timeline is there, its emitter
is as free as it was, tasks can be spawned as before, and the stage is still orderly. -/
structure Steady (t : Ref .timeline) (s s' : Stage) : Prop where
  size : s.timelines.size ≤ s'.timelines.size
  emitter : s'.emitterOf t = s.emitterOf t
  isHeld : (s'.emitters.get (s.emitterOf t)).isHeld = (s.emitters.get (s.emitterOf t)).isHeld
  channel : s'.agenda.channel.isSome = s.agenda.channel.isSome
  orderly : s.Orderly → s'.Orderly

namespace Steady

variable {t : Ref .timeline} {s s' s'' : Stage}

theorem refl (t : Ref .timeline) (s : Stage) : s.Steady t s := ⟨Nat.le_refl _, rfl, rfl, rfl, id⟩

theorem trans (h : s.Steady t s') (h' : s'.Steady t s'') : s.Steady t s'' where
  size := Nat.le_trans h.size h'.size
  emitter := h'.emitter.trans h.emitter
  isHeld := by
    have held := h'.isHeld
    rw [h.emitter] at held
    exact held.trans h.isHeld
  channel := h'.channel.trans h.channel
  orderly := h'.orderly ∘ h.orderly

theorem note (s : Stage) (t : Ref .timeline) (what : Occurrence) : s.Steady t (s.note what) :=
  ⟨Nat.le_refl _, rfl, rfl, rfl, fun h => ⟨h.queued, h.taken⟩⟩

end Steady

/-- The second stage comes of the first one by changes that have nothing to do with the playing
of a timeline. -/
structure Unplayed (t : Ref .timeline) (s s' : Stage) : Prop extends Steady t s s' where
  lasting : s.Lasting s'
  score : s'.score t = s.score t

namespace Unplayed

variable {t : Ref .timeline} {s s' s'' : Stage}

theorem refl (t : Ref .timeline) (s : Stage) : s.Unplayed t s := ⟨.refl t s, .of_tasks_eq rfl, rfl⟩

theorem trans (h : s.Unplayed t s') (h' : s'.Unplayed t s'') : s.Unplayed t s'' :=
  ⟨h.toSteady.trans h'.toSteady, h.lasting.trans h'.lasting, h'.score.trans h.score⟩

/-- Changes that do not touch tasks, emitters and the journal. -/
theorem of_eq (size : s.timelines.size ≤ s'.timelines.size)
    (emitter : s'.emitterOf t = s.emitterOf t)
    (playback : ∀ u, (s'.timelines.get u).playback = (s.timelines.get u).playback)
    (emitters : s'.emitters = s.emitters) (tasks : s'.tasks = s.tasks)
    (agenda : s'.agenda = s.agenda) (journal : s'.journal = s.journal) : s.Unplayed t s' where
  size := size
  emitter := emitter
  isHeld := by rw [emitters]
  channel := by rw [agenda]
  orderly h := by
    refine ⟨?_, fun u k => ?_⟩
    · rw [agenda, tasks]
      exact h.queued
    · rw [playback, tasks]
      exact h.taken u k
  lasting := .of_tasks_eq tasks
  score := by
    rw [score_of_players (playback t) emitter journal, players_congr tasks]
    rfl

theorem ofRehandled (h : s.Rehandled s') : s.Unplayed t s' := by
  obtain ⟨n, row⟩ := h.timeline t
  refine of_eq h.timelines_size ?_ (fun u => ?_) h.emitters h.tasks h.agenda h.journal
  · rw [emitterOf, row, emitterOf]
  · obtain ⟨n, row⟩ := h.timeline u
    rw [row]

theorem modifyTimeline (s : Stage) (t u : Ref .timeline) {f : Timeline → Timeline}
    (emitter : ∀ row, (f row).emitter = row.emitter)
    (playback : ∀ row, (f row).playback = row.playback) : s.Unplayed t (s.modifyTimeline u f) :=
  of_eq (Table.size_le_size_modify ..) (Table.proj_get_modify _ u t emitter)
    (fun v => Table.proj_get_modify _ u v playback) rfl rfl rfl rfl

theorem setClock (s : Stage) (t u : Ref .timeline) (clock : Clock) :
    s.Unplayed t (s.setClock u clock) :=
  modifyTimeline s t u (fun _ => rfl) fun _ => rfl

theorem note (s : Stage) {what : Occurrence} (h : what.scores t = false) :
    s.Unplayed t (s.note what) := by
  refine ⟨.note s t what, .of_tasks_eq rfl, ?_⟩
  have unannounced : ∀ event : TimelineEvent, event = .started ∨ event = .paused →
      what ≠ .emitted (s.emitterOf t) event.name (.timeline t) := by
    rintro event counts rfl
    rcases counts with rfl | rfl <;> simp [Occurrence.scores] at h
  have unmoved : isMove t what = false := by
    cases what <;> simp_all [isMove, Occurrence.scores]
  rw [score_note, announced_note, announced_note, framesPlayed_note,
    if_neg (unannounced _ (.inl rfl)), if_neg (unannounced _ (.inr rfl)), unmoved]
  rfl

theorem detach (s : Stage) (t u : Ref .timeline) (ids : List Nat) : s.Unplayed t (s.detach u ids) :=
  modifyTimeline s t u (fun _ => rfl) fun _ => rfl

theorem attach (s : Stage) (t u : Ref .timeline) (b : Ref .behaviour) :
    s.Unplayed t (s.attach u b).1 :=
  modifyTimeline s t u (fun _ => rfl) fun _ => rfl

theorem modifyCore (s : Stage) (t : Ref .timeline) (c : Ref .core) (f : Core → Core) :
    s.Unplayed t (s.modifyCore c f) :=
  of_eq (Nat.le_refl _) rfl (fun _ => rfl) rfl rfl rfl rfl

theorem setDrive (s : Stage) (t : Ref .timeline) (b : Ref .behaviour) (drive : Drive) :
    s.Unplayed t (s.setDrive b drive) :=
  of_eq (Nat.le_refl _) rfl (fun _ => rfl) rfl rfl rfl rfl

theorem unbind (s : Stage) (t : Ref .timeline) (c : Ref .core) : s.Unplayed t (s.unbind c) := by
  unfold Stage.unbind
  split
  · exact refl t s
  · exact ((detach s t _ _).trans (modifyCore _ t c _)).trans
        (ofRehandled (rehandled_releaseAlpha _ _))

theorem rebind (s : Stage) (t : Ref .timeline) (b : Ref .behaviour) (alpha : Option (Ref .alpha)) :
    s.Unplayed t (s.rebind b alpha) := by
  cases alpha with
  | none => exact unbind s t _
  | some a =>
      have first := (ofRehandled (t := t) (s.rehandled_retain (.alpha a))).trans
        (unbind _ t (s.behaviours.get b).core)
      exact (first.trans (attach _ t _ b)).trans (modifyCore _ t _ _)

/-- An emitter that is held meanwhile. -/
theorem held {m : Ref .emitter} (free : (s.emitters.get m).isHeld = false)
    (h : (Script.hold true m s).Unplayed t s') : s.Unplayed t (Script.hold false m s') := by
  refine ⟨⟨h.size, h.emitter, Script.isHeld_hold_false free h.isHeld, h.channel,
    fun orderly => ?_⟩, ⟨h.lasting.size, h.lasting.hasEnded⟩, h.score⟩
  have kept := h.orderly ⟨orderly.queued, orderly.taken⟩
  exact ⟨kept.queued, kept.taken⟩

end Unplayed

end Stage

end Animation
