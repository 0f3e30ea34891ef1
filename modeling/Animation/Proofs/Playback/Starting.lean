/-
# Starting and pausing

When a timeline is started its start is announced, and then a task is spawned that plays it.
When it is paused the task is told to end, and this is announced if it had not ended already.
Nothing in between touches the score, since the handlers that are called stay out of it: so
both come to their end, and leave a world in order.
-/

import Animation.Proofs.Playback.Heeding

namespace Animation

namespace Stage

variable {s : Stage} {t : Ref .timeline}

theorem score_announced (s : Stage) (t : Ref .timeline) (event : TimelineEvent) :
    (s.note (.emitted (s.emitterOf t) event.name (.timeline t))).score t =
      (s.score t).announce event := by
  have same : ∀ other : TimelineEvent, event.name = other.name ↔ event = other := fun other => by
    cases event <;> cases other <;> decide
  rw [score_note, announced_note, announced_note, framesPlayed_note]
  simp only [Occurrence.emitted.injEq, same, true_and, and_true]
  cases event <;> rfl

theorem score_setPlayback (s : Stage) (t : Ref .timeline) (playback : Option (Ref .task)) :
    (s.setPlayback t playback).score t = { s.score t with playback } := by
  have emitter : (s.setPlayback t playback).emitterOf t = s.emitterOf t :=
    Table.proj_get_modify _ t t (g := Timeline.emitter) fun _ => rfl
  have taken : ((s.setPlayback t playback).timelines.get t).playback = playback :=
    congrArg Timeline.playback (Table.get_modify_same ..)
  simp only [score, players, announced, framesPlayed, emitter, taken]
  rfl

/-- A timeline takes a task for its player that has been spawned to play it. -/
theorem steady_setPlayback (s : Stage) (t u : Ref .timeline) (playback : Option (Ref .task))
    (player : ∀ k, playback = some k → k.index < s.tasks.size ∧ (s.tasks.get k).plays u = true) :
    s.Steady t (s.setPlayback u playback) := by
  refine ⟨Table.size_le_size_modify .., ?_, rfl, rfl, fun orderly =>
    ⟨orderly.queued, fun v k taken => ?_⟩⟩
  · exact Table.proj_get_modify _ u t (g := Timeline.emitter) fun _ => rfl
  · have row := Table.get_modify s.timelines u v fun row => { row with playback }
    by_cases own : u = v
    · subst own
      rw [if_pos rfl] at row
      exact player k ((congrArg Timeline.playback row).symm.trans taken)
    · rw [if_neg own] at row
      exact orderly.taken v k ((congrArg Timeline.playback row).symm.trans taken)

/-- The player of a timeline is told to end, which has not been announced yet. -/
theorem score_cancelPlayback {k : Ref .task} (taken : (s.timelines.get t).playback = some k)
    (added : k.index < s.tasks.size) :
    (s.cancelPlayback t).score t = { (s.score t).pause k with paused := s.announced t .paused } ∧
      s.Steady t (s.cancelPlayback t) ∧ s.Lasting (s.cancelPlayback t) := by
  have cancelled : s.cancelPlayback t = (s.setPlayback t none).abort k := by
    unfold cancelPlayback
    rw [taken]
  rw [cancelled]
  refine ⟨?_, ?_, ?_⟩
  · rw [score_abort (s := s.setPlayback t none) added, score_setPlayback]
    rfl
  · exact (s.steady_setPlayback t t none nofun).trans
        (steady_abort (s := s.setPlayback t none) added)
  · have kept : s.Lasting (s.setPlayback t none) := .of_tasks_eq rfl
    exact kept.trans (lasting_abort _ k)

namespace Unplayed

variable {u : Ref .timeline} (ne : u ≠ t)

include ne

/-- Another timeline takes a task for its player. -/
theorem setPlayback (playback : Option (Ref .task)) (player : ∀ k, playback = some k →
      k.index < s.tasks.size ∧ (s.tasks.get k).plays u = true) :
    s.Unplayed t (s.setPlayback u playback) := by
  refine ⟨s.steady_setPlayback t u playback player, .of_tasks_eq rfl, ?_⟩
  have row : (s.setPlayback u playback).timelines.get t = s.timelines.get t :=
    Table.get_modify_of_ne _ _ ne
  rw [score_of_players (congrArg Timeline.playback row) (congrArg Timeline.emitter row) rfl,
    players_congr rfl]
  rfl

/-- The player of another timeline is told to end. -/
theorem cancelPlayback (orderly : s.Orderly) : s.Unplayed t (s.cancelPlayback u) := by
  unfold Stage.cancelPlayback
  split
  · next k taken =>
      obtain ⟨added, plays⟩ := orderly.taken u k taken
      have first : s.Unplayed t (s.setPlayback u none) := .setPlayback ne none nofun
      exact first.trans (.abort added (Task.plays_of_ne plays ne))
  · exact .refl t s

end Unplayed

end Stage

/-- One world comes of another, the timeline can be played as before, no task has ended, and
nothing was written down. -/
structure World.Beside {υ : Type} (t : Ref .timeline) (w w' : World (Diary υ)) : Prop where
  steady : w.stage.Steady t w'.stage
  lasting : w.stage.Lasting w'.stage
  byHand : w'.user.byHand = w.user.byHand
  seen : w'.user.seen = w.user.seen

namespace World

variable {υ : Type} {t : Ref .timeline} {w w' w'' : World (Diary υ)}

theorem Beside.trans (h : w.Beside t w') (h' : w'.Beside t w'') : w.Beside t w'' :=
  ⟨h.steady.trans h'.steady, h.lasting.trans h'.lasting, h'.byHand.trans h.byHand,
    h'.seen.trans h.seen⟩

theorem Aside.beside (h : w.Aside t w') : w.Beside t w' :=
  ⟨h.stage.toSteady, h.stage.lasting, h.byHand, h.seen⟩

/-- The timeline is started. -/
structure Launched (t : Ref .timeline) (w w' : World (Diary υ)) (k : Ref .task) : Prop
    extends Beside t w w' where
  new : k ∉ (w.stage.players t).map (·.task)
  score : w'.stage.score t = (w.stage.score t).launch k

/-- The timeline is paused. -/
structure Halted (t : Ref .timeline) (w w' : World (Diary υ)) : Prop extends Beside t w w' where
  score : w'.stage.score t = (w.stage.score t).halt

theorem Launched.proceeds {k : Ref .task} (h : w.Launched t w' k) (kept : w.Kept t)
    (idle : w.stage.isPlaying t = false) : w.Proceeds t w' := by
  rw [Stage.isPlaying_eq kept.ready.sound] at idle
  have sound := kept.ready.sound.launch idle h.new
  obtain ⟨kept', follows⟩ := kept.follow h.steady h.seen (by rw [h.score]; exact sound)
    (by rw [h.score]; exact Nat.le_succ _) fun _ same => by
      rw [h.score] at same
      exact absurd same (Nat.succ_ne_self _)
  exact ⟨kept', follows, h.lasting⟩

theorem Halted.proceeds (h : w.Halted t w') (kept : w.Kept t) : w.Proceeds t w' := by
  have sound := kept.ready.sound
  obtain ⟨kept', follows⟩ := kept.follow h.steady h.seen (by rw [h.score]; exact sound.halt)
    (Nat.le_of_eq (by rw [h.score, Score.started_halt])) fun _ _ => by
      rw [h.score, Score.frames_halt, h.byHand]
      exact ⟨sound.isPlaying_halt, rfl⟩
  exact ⟨kept', follows, h.lasting⟩

end World

namespace Script

variable {υ : Type} {t : Ref .timeline} {host : Host (Diary υ)}
  (called : ∀ callback payload, (host.called callback payload).StaysOut t)

include called

/-- An event of the timeline can be announced, since its emitter is free. -/
theorem run_announce (event : TimelineEvent) {w : World (Diary υ)}
    (added : t.index < w.stage.timelines.size)
    (free : (w.stage.emitters.get (w.stage.emitterOf t)).isHeld = false) :
    ∃ w', (announce host t event (.timeline t)).run w = (.ok (), w') ∧ w.Beside t w' ∧
      w'.stage.score t = (w.stage.score t).announce event := by
  obtain ⟨w', run, aside⟩ := run_emit called (w.stage.emitterOf t) event.name (.timeline t)
      w added free
  have noted : w.Beside t
      { w with stage := w.stage.note (.emitted (w.stage.emitterOf t) event.name (.timeline t)) } :=
    ⟨.note _ t _, .of_tasks_eq rfl, rfl, rfl⟩
  refine ⟨w', ?_, noted.trans aside.beside, ?_⟩
  · simpa [announce, Stage.emitterOf] using run
  · rw [aside.stage.score]
    exact w.stage.score_announced t event

theorem run_launch {w : World (Diary υ)} (ready : w.stage.Ready t) :
    ∃ k w', (launch host t).run w = (.ok (.ok ()), w') ∧ w.Launched t w' k := by
  let noted : World (Diary υ) := { w with
    stage := w.stage.note (.started t (w.stage.clock t).frames (w.stage.clock t).period) }
  have first : w.Aside t noted := ⟨.note w.stage rfl, rfl, rfl⟩
  have ready' := ready.unplayed first.stage
  obtain ⟨w₁, run, beside, score⟩ := run_announce called .started ready'.added ready'.free
  let job : Job := .playback t (w.stage.clock t).period
  have plays : (Task.mk job .ready false).plays t = true := decide_eq_true rfl
  have channel : w₁.stage.agenda.channel.isSome = true := beside.steady.channel.trans ready'.channel
  have spawned := Stage.score_spawn (t := t) job channel
  -- The announcement leaves the players alone, so the task that is spawned is a new one.
  have others : w₁.stage.players t = w.stage.players t :=
    (congrArg Score.players score).trans (congrArg Score.players first.stage.score)
  have new : (w₁.stage.spawn job).2 = some w₁.stage.tasks.next := by
    obtain ⟨reported, present⟩ := Option.isSome_iff_exists.1 channel
    rw [Stage.spawn_of_channel present]
  let k := w₁.stage.tasks.next
  have player : ∀ k', some k = some k' → k'.index < (w₁.stage.spawn job).1.tasks.size ∧
      ((w₁.stage.spawn job).1.tasks.get k').plays t = true := by
    rintro _ ⟨⟩
    obtain ⟨added, row⟩ := Stage.get_of_spawn new
    exact ⟨added, row ▸ plays⟩
  let w₂ : World (Diary υ) := { w₁ with stage := (w₁.stage.spawn job).1.setPlayback t (some k) }
  have last : w₁.Beside t w₂ :=
    ⟨(w₁.stage.steady_spawn t job).trans (Stage.steady_setPlayback _ t t _ player),
      (w₁.stage.lasting_spawn job).trans (.of_tasks_eq rfl), rfl, rfl⟩
  refine ⟨k, w₂, ?_, (first.beside.trans beside).trans last, ?_, ?_⟩
  · unfold launch
    rw [run_stage_bind, run_note_bind, run_bind_of_ok run, run_produce_bind, new]
    rfl
  · intro mem
    obtain ⟨p, player, same⟩ := List.mem_map.1 mem
    obtain ⟨before, -⟩ := Stage.mem_players.1 (others ▸ player)
    rw [same] at before
    exact Nat.lt_irrefl _ before
  · show ((w₁.stage.spawn job).1.setPlayback t (some k)).score t = _
    rw [Stage.score_setPlayback, spawned, plays, if_pos rfl, score, first.stage.score, others]
    rfl

/-- A timeline that is being played is not started again, and one that is not is launched. -/
theorem run_start {w : World (Diary υ)} (ready : w.stage.Ready t) :
    ∃ w', (start host t).run w = (.ok (.ok ()), w') ∧
      (w.stage.isPlaying t = true ∧ w' = w ∨
        w.stage.isPlaying t = false ∧ ∃ k, w.Launched t w' k) := by
  unfold start
  rw [run_stage_bind]
  cases playing : w.stage.isPlaying t with
  | true => exact ⟨w, rfl, .inl ⟨rfl, rfl⟩⟩
  | false =>
      rw [if_neg Bool.false_ne_true, run_stage_bind]
      split
      · have turned : w.Aside t { w with stage := w.stage.rewind t } :=
          ⟨.setClock _ t t _, rfl, rfl⟩
        obtain ⟨k, w', run, launched⟩ := run_launch called (ready.unplayed turned.stage)
        have same := turned.stage.score
        refine ⟨w', run, .inr ⟨rfl, k, turned.beside.trans launched.toBeside, ?_, ?_⟩⟩
        · rw [← show _ = w.stage.players t from congrArg Score.players same]
          exact launched.new
        · rw [launched.score, same]
      · obtain ⟨k, w', run, launched⟩ := run_launch called ready
        exact ⟨w', run, .inr ⟨rfl, k, launched⟩⟩

theorem run_pause {w : World (Diary υ)} (ready : w.stage.Ready t) :
    ∃ w', (pause host t).run w = (.ok (), w') ∧ w.Halted t w' := by
  let cancelled : World (Diary υ) := { w with stage := w.stage.cancelPlayback t }
  have playing_eq := Stage.isPlaying_eq ready.sound
  unfold pause
  rw [run_stage_bind, run_change_bind]
  cases taken : (w.stage.timelines.get t).playback with
  | none =>
      have idle : w.stage.isPlaying t = false := by
        rw [playing_eq]
        exact ready.sound.isPlaying_eq_false taken
      have same : w.stage.cancelPlayback t = w.stage := by
        unfold Stage.cancelPlayback
        rw [taken]
      rw [idle, same]
      refine ⟨w, rfl, ⟨.refl t _, .of_tasks_eq rfl, rfl, rfl⟩, ?_⟩
      exact (Score.halt_of_none taken).symm
  | some k =>
      obtain ⟨p, mem, own, -⟩ := ready.sound.current k taken
      obtain ⟨added, -⟩ := Stage.mem_players.1 mem
      rw [own] at added
      obtain ⟨score, steady, lasting⟩ := Stage.score_cancelPlayback taken added
      have first : w.Beside t cancelled := ⟨steady, lasting, rfl, rfl⟩
      have halt : (w.stage.score t).halt = (w.stage.score t).pause k := Score.halt_of_some taken
      cases playing : w.stage.isPlaying t with
      | false =>
          refine ⟨cancelled, rfl, first, ?_⟩
          rw [halt, Score.pause, ← playing_eq, playing]
          exact score
      | true =>
          let frame := ((w.stage.cancelPlayback t).clock t).frame
          let noted : World (Diary υ) :=
            { w with stage := (w.stage.cancelPlayback t).note (.paused t frame) }
          have second : cancelled.Aside t noted := ⟨.note _ rfl, rfl, rfl⟩
          have steady' := first.steady.trans second.stage.toSteady
          obtain ⟨w', run, beside, announced⟩ := run_announce called .paused (w := noted)
            (Nat.lt_of_lt_of_le ready.added steady'.size)
            (by rw [steady'.emitter, steady'.isHeld, ready.free])
          refine ⟨w', run, (first.trans second.beside).trans beside, ?_⟩
          rw [announced, second.stage.score, score, halt, Score.pause, ← playing_eq, playing]
          rfl

theorem run_stop {w : World (Diary υ)} (ready : w.stage.Ready t) :
    ∃ w', (stop host t).run w = (.ok (), w') ∧ w.Halted t w' := by
  obtain ⟨w', run, halted⟩ := run_pause called ready
  have turned : w'.Aside t { w' with stage := w'.stage.rewind t } :=
    ⟨.setClock _ t t _, rfl, rfl⟩
  refine ⟨_, ?_, halted.toBeside.trans turned.beside, turned.stage.score.trans halted.score⟩
  unfold stop
  rw [run_bind_of_ok run]
  rfl

end Script

namespace Host.Heedful

open Script

variable {υ : Type} {t : Ref .timeline} {host : Host (Diary υ)} (hh : host.Heedful t)
  {w : World (Diary υ)}

include hh

theorem launch_of_ne {u : Ref .timeline} (ne : u ≠ t) : (Script.launch host u).Heeds t w := by
  refine heeds_stage_bind (heeds_note_bind rfl (heeds_bind ?_ fun _ w' _ => ?_))
  · exact heeds_stage_bind (hh.emit _ _ _ (by simp [Occurrence.scores, ne]))
  · let job : Job := .playback u (w.stage.clock u).period
    have plays : (Task.mk job .ready false).plays u = true := decide_eq_true rfl
    refine heeds_produce_bind (.spawn _ (Task.plays_of_ne plays ne)) ?_
    split
    · exact heeds_pure _
    · next k spawned =>
        refine heeds_change_bind (.setPlayback ne _ ?_) (heeds_pure _)
        rintro _ ⟨⟩
        obtain ⟨added, row⟩ := Stage.get_of_spawn spawned
        exact ⟨added, row ▸ plays⟩

theorem start (u : Ref .timeline) : (Script.start host u).Heeds t w := by
  by_cases own : u = t
  · subst own
    intro kept
    obtain ⟨w', run, ⟨-, rfl⟩ | ⟨idle, k, launched⟩⟩ := run_start hh.called kept.ready
    · rw [run]
      exact .refl kept
    · rw [run]
      exact launched.proceeds kept idle
  · apply heeds_stage_bind
    split
    · exact heeds_pure _
    · apply heeds_stage_bind
      dsimp only
      split
      · exact heeds_change_bind (.setClock _ t u _) (hh.launch_of_ne own)
      · exact hh.launch_of_ne own

theorem pause (u : Ref .timeline) : (Script.pause host u).Heeds t w := by
  intro kept
  by_cases own : u = t
  · subst own
    obtain ⟨w', run, halted⟩ := run_pause hh.called kept.ready
    rw [run]
    exact halted.proceeds kept
  · refine heeds_stage_bind (heeds_change_bind (.cancelPlayback own kept.ready.orderly) ?_) kept
    split
    · refine heeds_stage_bind (heeds_note_bind rfl (heeds_stage_bind (hh.emit _ _ _ ?_)))
      simp [Occurrence.scores, own]
    · exact heeds_pure ()

theorem stop (u : Ref .timeline) : (Script.stop host u).Heeds t w :=
  heeds_bind (hh.pause u) fun _ _ _ => heeds_change (.setClock _ t u _)

end Host.Heedful

end Animation
