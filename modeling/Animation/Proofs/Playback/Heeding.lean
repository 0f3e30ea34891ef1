/-
# Scripts that heed a played timeline

A script heeds a timeline if it leaves a world that is kept in order so. The library heeds
every timeline when it delivers changes, drives actors and plays frames, provided that the
callbacks do, and that handlers stay out of it as long as an event is being offered to them.

A frame of the timeline itself is played in order if the timeline is being played, or if it is
written down that the frame is played by hand.
-/

import Animation.Proofs.Playback.Diary
import Animation.Proofs.Timeline.Turns
import Animation.Stage.Bounds
import Animation.Stage.Schedule

namespace Animation

namespace Script

variable {υ α β : Type} {t : Ref .timeline} {w : World (Diary υ)}

/-- From a world that is kept in order a script leads to another one. -/
def Heeds (t : Ref .timeline) (x : Script (Diary υ) α) (w : World (Diary υ)) : Prop :=
  w.Kept t → w.Proceeds t (x.run w).2

theorem Spares.heeds {x : Script (Diary υ) α} (h : x.Spares t) : x.Heeds t w :=
  fun kept => (h w kept.ready.added).proceeds kept

theorem heeds_pure (a : α) : (pure a : Script (Diary υ) α).Heeds t w := .refl

theorem heeds_throw (fault : Fault) : (throw fault : Script (Diary υ) α).Heeds t w := .refl

theorem heeds_bind {x : Script (Diary υ) α} {f : α → Script (Diary υ) β} (hx : x.Heeds t w)
    (hf : ∀ a w', x.run w = (.ok a, w') → (f a).Heeds t w') : (x >>= f).Heeds t w := by
  intro kept
  have first := hx kept
  rw [run_bind]
  cases r : (x.run w).1 with
  | error fault => exact first
  | ok a => exact first.trans (hf a _ (Prod.ext r rfl) first.kept)

theorem heeds_stage_bind {f : Stage → Script (Diary υ) β} (hf : (f w.stage).Heeds t w) :
    (stage >>= f).Heeds t w := hf

theorem heeds_change {f : Stage → Stage} (h : w.stage.Unplayed t (f w.stage)) :
    (change f : Script (Diary υ) Unit).Heeds t w :=
  fun kept => World.Aside.proceeds ⟨h, rfl, rfl⟩ kept

theorem heeds_change_bind {f : Stage → Stage} {g : Unit → Script (Diary υ) β}
    (h : w.stage.Unplayed t (f w.stage))
    (hg : (g ()).Heeds t { w with stage := f w.stage }) : (change f >>= g).Heeds t w :=
  heeds_bind (heeds_change h) fun _ _ run => by cases run; exact hg

theorem heeds_produce_bind {f : Stage → Stage × α} {g : α → Script (Diary υ) β}
    (h : w.stage.Unplayed t (f w.stage).1)
    (hg : (g (f w.stage).2).Heeds t { w with stage := (f w.stage).1 }) :
    (produce f >>= g).Heeds t w :=
  heeds_bind (fun kept => World.Aside.proceeds ⟨h, rfl, rfl⟩ kept) fun _ _ run => by
    cases run; exact hg

theorem heeds_note_bind {what : Occurrence} {g : Unit → Script (Diary υ) β}
    (quiet : what.scores t = false)
    (hg : (g ()).Heeds t { w with stage := w.stage.note what }) : (note what >>= g).Heeds t w :=
  heeds_change_bind (.note _ quiet) hg

theorem heeds_check (r : Except Violation α) : (check r : Script (Diary υ) α).Heeds t w := by
  cases r <;> exact .refl

theorem heeds_thenTidy {x : Script (Diary υ) α} {tidy : Stage → Stage} (hx : x.Heeds t w)
    (h : ∀ s : Stage, s.Unplayed t (tidy s)) : (x.thenTidy tidy).Heeds t w := by
  intro kept
  have first := hx kept
  exact first.trans (World.Aside.proceeds ⟨h _, rfl, rfl⟩ first.kept)

theorem heeds_attempt {x : Script (Diary υ) α} (hx : x.Heeds t w) : x.attempt.Heeds t w := by
  intro kept
  rw [run_attempt_snd]
  exact hx kept

theorem heeds_holding {handles : List Handle} {x : Script (Diary υ) α}
    (hx : x.Heeds t { w with stage := w.stage.retainAll handles }) :
    (holding handles x).Heeds t w :=
  heeds_change_bind (.ofRehandled (Stage.rehandled_retainAll _ _))
    (heeds_thenTidy hx fun s => .ofRehandled (s.rehandled_releaseAll _))

theorem heeds_forEach {visit : β → Script (Diary υ) Unit} (h : ∀ b w, (visit b).Heeds t w)
    (list : List β) (w : World (Diary υ)) : (forEach visit list).Heeds t w := by
  induction list generalizing w with
  | nil => exact heeds_pure ()
  | cons b rest ih => exact heeds_bind (h b w) fun _ w' _ => ih w'

/-- To write down what is met. -/
theorem heeds_look : (look : Script (Diary υ) Unit).Heeds t w := by
  intro kept
  refine ⟨⟨kept.ready, ?_, ?_⟩, .refl t _, .of_tasks_eq rfl⟩
  · intro g mem
    rcases List.mem_cons.1 mem with rfl | mem
    · exact ⟨kept.ready, .refl t _⟩
    · exact kept.met g mem
  · exact List.pairwise_cons.2 ⟨fun g mem => (kept.met g mem).2, kept.order⟩

end Script

/-- The callbacks of a host heed a timeline, and its handlers stay out of it. -/
structure Host.Heedful {υ : Type} (t : Ref .timeline) (host : Host (Diary υ)) : Prop where
  notified : ∀ callback change w, (host.notified callback change).Heeds t w
  called : ∀ callback payload, (host.called callback payload).StaysOut t
  driven : ∀ callback alpha w, (host.driven callback alpha).Heeds t w
  reacts : ∀ a call w, (host.reacts a call).Heeds t w

namespace Host.Heedful

open Script

variable {υ : Type} {t : Ref .timeline} {host : Host (Diary υ)} (hh : host.Heedful t)
  {w : World (Diary υ)}

include hh

theorem notify (n : Ref .notifier) (change : Change) : (Script.notify host n change).Heeds t w :=
  heeds_stage_bind (heeds_note_bind rfl
    (heeds_forEach (fun callback w => hh.notified callback change w) _ _))

theorem bindTo (b : Ref .behaviour) (alpha : Option (Ref .alpha)) :
    (Script.bindTo host b alpha).Heeds t w := by
  apply heeds_stage_bind
  dsimp only
  split
  · exact heeds_pure ()
  · exact heeds_change_bind (.rebind _ t b alpha) (heeds_note_bind rfl (hh.notify _ _))

theorem flush (n : Ref .notifier) (batch : Batch) : (Script.flush host n batch).Heeds t w :=
  heeds_forEach (fun change _ => hh.notify n change) _ _

/-- A new behaviour is bound. -/
theorem make (drive : Drive) (alpha : Option (Ref .alpha)) :
    (produce (·.addBehaviour drive) >>= fun b => do
      Script.bindTo host b alpha
      return b).Heeds t w := by
  refine heeds_produce_bind ?_ (heeds_bind (hh.bindTo _ alpha) fun _ _ _ => heeds_pure _)
  exact .of_eq (Nat.le_refl _) rfl (fun _ => rfl) rfl rfl rfl rfl

theorem makeScale (corners : Corners Fixed) (gravity : Gravity) (alpha : Option (Ref .alpha)) :
    (Script.makeScale host corners gravity alpha).Heeds t w :=
  heeds_bind (heeds_check _) fun _ _ _ => hh.make _ alpha

theorem setScaleBounds (b : Ref .behaviour) (corners : Corners Fixed) :
    (Script.setScaleBounds host b corners).Heeds t w := by
  refine heeds_bind (heeds_check _) fun bounds w _ => heeds_stage_bind ?_
  split
  · exact heeds_change_bind (.setDrive _ t b _) (hh.flush _ _)
  · exact heeds_pure ()

theorem setGravity (b : Ref .behaviour) (gravity : Gravity) :
    (Script.setGravity host b gravity).Heeds t w := by
  apply heeds_stage_bind
  split
  · split
    · exact heeds_pure ()
    · exact heeds_change_bind (.setDrive _ t b _) (hh.notify _ _)
  · exact heeds_pure ()

theorem setOpacityBounds (b : Ref .behaviour) (bounds : Range UInt8) :
    (Script.setOpacityBounds host b bounds).Heeds t w := by
  apply heeds_stage_bind
  split
  · exact heeds_change_bind (.setDrive _ t b _) (hh.flush _ _)
  · exact heeds_pure ()

/-- An event other than the start or the pause of the timeline. -/
theorem emit (m : Ref .emitter) (event : String) (payload : Payload)
    (quiet : (Occurrence.emitted m event payload).scores t = false) :
    (Script.emit host m event payload).Heeds t w := by
  intro kept
  cases free : (w.stage.emitters.get m).isHeld with
  | false =>
      obtain ⟨w', run, aside⟩ := run_emit hh.called m event payload w kept.ready.added free
      have noted : w.Aside t { w with stage := w.stage.note (.emitted m event payload) } :=
        ⟨.note _ quiet, rfl, rfl⟩
      rw [run]
      exact (noted.trans aside).proceeds kept
  | true =>
      rw [run_emit_of_held free]
      exact .refl kept

omit hh in
theorem escort {visit : Ref .actor → Script (Diary υ) Unit} (h : ∀ a w, (visit a).Heeds t w)
    (actors : List (Ref .actor)) (w : World (Diary υ)) :
    (Script.escort visit actors).Heeds t w := by
  induction actors generalizing w with
  | nil => exact heeds_pure ()
  | cons a rest ih =>
      refine heeds_bind (heeds_attempt (heeds_thenTidy (h a w) fun s =>
        .ofRehandled (s.rehandled_release _))) fun outcome w' _ => ?_
      cases outcome with
      | ok _ => exact ih w'
      | error cause =>
          exact heeds_change_bind (.ofRehandled (Stage.rehandled_releaseAll _ _)) (heeds_throw _)

omit hh in
theorem forEachActor {visit : Ref .actor → Script (Diary υ) Unit}
    (h : ∀ a w, (visit a).Heeds t w) (c : Ref .core) : (Script.forEachActor c visit).Heeds t w :=
  heeds_produce_bind (.modifyCore _ t c _) (heeds_change_bind
    (.ofRehandled (Stage.rehandled_retainAll _ _)) (escort h _ _))

theorem ask (a : Ref .actor) (call : ActorCall) : (Script.ask host a call).Heeds t w := by
  refine heeds_change_bind ?_ (hh.reacts a call _)
  exact .of_eq (Nat.le_refl _) rfl (fun _ => rfl) rfl rfl rfl rfl

theorem askScale (a : Ref .actor) (gravity : Gravity) (x y : Double) :
    (Script.askScale host a gravity x y).Heeds t w := by
  unfold Script.askScale
  split
  · exact heeds_bind (hh.ask a _) fun _ _ _ => hh.ask a _
  · exact hh.ask a _

theorem drive (b : Ref .behaviour) (alpha : Nat) : (Script.drive host b alpha).Heeds t w := by
  apply heeds_stage_bind
  dsimp only
  split
  · exact heeds_bind (heeds_check _) fun _ _ _ =>
      forEachActor (fun a _ => hh.askScale a _ _ _) _
  · exact heeds_bind (heeds_check _) fun _ _ _ => forEachActor (fun a _ => hh.ask a _) _
  · exact hh.driven _ alpha w

theorem tick (b : Ref .behaviour) : (Script.tick host b).Heeds t w := by
  apply heeds_stage_bind
  dsimp only
  split
  · exact heeds_pure ()
  · exact heeds_holding (heeds_note_bind rfl (hh.drive b _))

theorem tickEach (entries : List Attachment) : (Script.tickEach host entries).Heeds t w := by
  induction entries generalizing w with
  | nil => exact heeds_pure []
  | cons e rest ih =>
      apply heeds_stage_bind
      split
      · exact heeds_bind (heeds_holding (hh.tick _)) fun _ _ _ => ih
      · exact heeds_bind ih fun _ _ _ => heeds_pure _

theorem tickAttached (u : Ref .timeline) : (Script.tickAttached host u).Heeds t w := by
  refine heeds_stage_bind (heeds_bind (hh.tickEach _) fun gone w' _ => ?_)
  split
  · exact heeds_pure ()
  · exact heeds_note_bind rfl (heeds_change (.detach _ t u _))

theorem concludeFrame (u : Ref .timeline) (played : Clock) :
    (Script.concludeFrame host u played).Heeds t w := by
  have event : ∀ (m : Ref .emitter) {event : TimelineEvent} (payload : Payload),
      event ≠ .started → event ≠ .paused →
        (Occurrence.emitted m event.name payload).scores t = false := by
    intro m event payload not_started not_paused
    cases event <;> simp_all [Occurrence.scores, TimelineEvent.name]
  have announce : ∀ (event : TimelineEvent) (payload : Payload) (w : World (Diary υ)),
      event ≠ .started → event ≠ .paused → (Script.announce host u event payload).Heeds t w :=
    fun _ _ _ not_started not_paused =>
      heeds_stage_bind (hh.emit _ _ _ (event _ _ not_started not_paused))
  refine heeds_bind (announce .newFrame _ _ (by decide) (by decide)) fun _ w' _ => ?_
  split
  · refine heeds_bind (announce .completed _ _ (by decide) (by decide)) fun _ w' _ => ?_
    split
    · exact heeds_change_bind (.setClock _ t u _) (heeds_pure _)
    · exact heeds_pure _
  · exact heeds_pure _

/-- What follows the move of a timeline in a frame. -/
theorem finishFrame {u : Ref .timeline} (played : Clock) :
    (Script.tickAttached host u >>= fun _ => Script.concludeFrame host u played).Heeds t w :=
  heeds_bind (hh.tickAttached u) fun _ _ _ => hh.concludeFrame u played

/-- A frame of another timeline. -/
theorem nextFrame_of_ne {u : Ref .timeline} (ne : u ≠ t) : (Script.nextFrame host u).Heeds t w := by
  apply heeds_stage_bind
  dsimp only
  split
  · exact heeds_pure _
  · refine heeds_bind (heeds_check _) fun played w' _ => ?_
    refine heeds_change_bind (.setClock _ t u _) ?_
    refine heeds_note_bind (by simp [Occurrence.scores, ne]) ?_
    exact hh.finishFrame played

end Host.Heedful

theorem Stage.score_moved (s : Stage) (t : Ref .timeline) (clock : Clock) (frame frames : Nat) :
    ((s.setClock t clock).note (.moved t frame frames)).score t = (s.score t).advance := by
  have turned : s.Unplayed t (s.setClock t clock) := .setClock s t t clock
  have own : isMove t (.moved t frame frames) = true := decide_eq_true rfl
  rw [← turned.score, score_note, announced_note, announced_note, framesPlayed_note, if_neg nofun,
    if_neg nofun, if_pos own]
  rfl

/-- The timeline moves to a frame while it is being played, or by hand. -/
theorem World.Kept.move_on {υ : Type} {t : Ref .timeline} {w w' : World (Diary υ)} (kept : w.Kept t)
    {clock : Clock} {frame frames : Nat}
    (stage : w'.stage = (w.stage.setClock t clock).note (.moved t frame frames))
    (seen : w'.user.seen = w.user.seen)
    (counted : w.stage.isPlaying t = true ∨ w'.user.byHand = w.user.byHand + 1) :
    w.Proceeds t w' := by
  have score : w'.stage.score t = (w.stage.score t).advance := by
    rw [stage]
    exact w.stage.score_moved t clock frame frames
  have turned : w.stage.Unplayed t (w.stage.setClock t clock) := .setClock w.stage t t clock
  have steady : w.stage.Steady t w'.stage := by
    rw [stage]
    exact turned.toSteady.trans (.note _ t _)
  have lasting : w.stage.Lasting w'.stage := by
    rw [stage]
    exact .of_tasks_eq rfl
  obtain ⟨kept', follows⟩ := kept.follow steady seen (by rw [score]; exact kept.ready.sound.advance)
    (Nat.le_of_eq (congrArg Score.started score).symm) fun idle _ => by
      rcases counted with playing | byHand
      · rw [Stage.isPlaying_eq kept.ready.sound, idle] at playing
        exact nomatch playing
      · rw [score, byHand]
        refine ⟨idle, ?_⟩
        show _ + 1 + _ = _
        omega
  exact ⟨kept', follows, lasting⟩

namespace Host.Heedful

open Script

variable {υ : Type} {t : Ref .timeline} {host : Host (Diary υ)} (hh : host.Heedful t)
  {w : World (Diary υ)}

include hh

/-- A frame while the timeline is being played. -/
theorem nextFrame_of_isPlaying (playing : w.stage.isPlaying t = true) :
    (Script.nextFrame host t).Heeds t w := by
  intro kept
  cases going : (w.stage.clock t).isOver with
  | true =>
      rw [run_nextFrame_of_isOver going]
      exact .refl kept
  | false =>
      cases step : (w.stage.clock t).step with
      | error cause =>
          rw [run_nextFrame_of_step_error going step]
          exact .refl kept
      | ok played =>
          rw [run_nextFrame_of_step going step]
          have moved : w.Proceeds t { w with
              stage := (w.stage.setClock t played).note (.moved t played.frame played.frames) } :=
            kept.move_on rfl rfl (.inl playing)
          exact moved.trans (hh.finishFrame played moved.kept)

/-- A frame that is played by hand. -/
theorem playByHand : (Script.playByHand host t).Heeds t w := by
  intro kept
  unfold Script.playByHand
  rw [run_stage_bind]
  cases going : (w.stage.clock t).isOver with
  | true =>
      simp only [going, Bool.not_true, Bool.false_and, Bool.false_eq_true, if_false]
      rw [run_nextFrame_of_isOver going]
      exact .refl kept
  | false =>
      cases step : (w.stage.clock t).step with
      | error cause =>
          simp only [step, Except.isOk, Except.toBool, Bool.and_false, Bool.false_eq_true, if_false]
          rw [run_nextFrame_of_step_error going step]
          exact .refl kept
      | ok played =>
          let counted : World (Diary υ) := { w with user.byHand := w.user.byHand + 1 }
          simp only [going, step, Except.isOk, Except.toBool, Bool.not_false, Bool.and_true,
            if_true]
          show World.Proceeds t w ((Script.nextFrame host t).run counted).2
          rw [run_nextFrame_of_step (w := counted) going step]
          have moved : w.Proceeds t { counted with
              stage := (w.stage.setClock t played).note (.moved t played.frame played.frames) } :=
            kept.move_on rfl rfl (.inr rfl)
          exact moved.trans (hh.finishFrame played moved.kept)

end Host.Heedful

end Animation
