/-
# A diary of a played timeline

Those who use a timeline keep a diary. They can write down the stage at any time, be it while a
frame of the timeline is played, and they write down each frame that they play by hand. A world
is kept in order if the score of the timeline is sound now and was sound whenever the stage was
written down, and if no frame was played in between by any but those who wrote it down, unless
the timeline was being played or its start was announced again.
-/

import Animation.Proofs.Playback.Tasks
import Animation.Proofs.Script.Running

namespace Animation

/-- The stage as it is met, and how many frames had been played by hand until then. -/
structure Glimpse where
  stage : Stage
  byHand : Nat

/-- The callers' own state, how many frames they have played by hand, and what they have written
down, latest first. -/
structure Diary (υ : Type) where
  own : υ
  byHand : Nat
  seen : List Glimpse

/-- What can be met now. -/
def World.glimpse {υ : Type} (w : World (Diary υ)) : Glimpse := ⟨w.stage, w.user.byHand⟩

namespace Script

variable {υ : Type}

/-- Write down what is met. -/
def look : Script (Diary υ) Unit :=
  modify fun w => { w with user.seen := w.glimpse :: w.user.seen }

/-- Play the next frame of a timeline by hand, and write this down if there is one. -/
def playByHand (host : Host (Diary υ)) (t : Ref .timeline) : Script (Diary υ) Bool := do
  let clock := (← stage).clock t
  if !clock.isOver && clock.step.isOk then
    modify fun w => { w with user.byHand := w.user.byHand + 1 }
  nextFrame host t

end Script

/-- The start of a timeline has been announced no less often than before. If it has not been
announced again and the timeline was not being played, then it is not being played and all
frames since were played by hand. -/
structure Follows (t : Ref .timeline) (g g' : Glimpse) : Prop where
  started : g.stage.announced t .started ≤ g'.stage.announced t .started
  idle : g.stage.isPlaying t = false →
    g'.stage.announced t .started = g.stage.announced t .started →
      g'.stage.isPlaying t = false ∧
        g'.stage.framesPlayed t + g.byHand = g.stage.framesPlayed t + g'.byHand

namespace Follows

variable {t : Ref .timeline} {g g' g'' : Glimpse}

theorem refl (t : Ref .timeline) (g : Glimpse) : Follows t g g :=
  ⟨Nat.le_refl _, fun idle _ => ⟨idle, rfl⟩⟩

theorem trans (h : Follows t g g') (h' : Follows t g' g'') : Follows t g g'' where
  started := Nat.le_trans h.started h'.started
  idle idle same := by
    have first := h.started
    have last := h'.started
    obtain ⟨idle', frames⟩ := h.idle idle (by omega)
    obtain ⟨idle'', frames'⟩ := h'.idle idle' (by omega)
    exact ⟨idle'', by omega⟩

/-- It is enough to look at the scores. -/
theorem of_scores (sound : (g.stage.score t).Sound) (sound' : (g'.stage.score t).Sound)
    (started : (g.stage.score t).started ≤ (g'.stage.score t).started)
    (idle : (g.stage.score t).isPlaying = false →
      (g'.stage.score t).started = (g.stage.score t).started →
        (g'.stage.score t).isPlaying = false ∧
          (g'.stage.score t).frames + g.byHand = (g.stage.score t).frames + g'.byHand) :
    Follows t g g' := by
  refine ⟨started, fun quiet same => ?_⟩
  rw [Stage.isPlaying_eq sound] at quiet
  rw [Stage.isPlaying_eq sound']
  exact idle quiet same

end Follows

/-- A timeline is there, its emitter is free, tasks can be spawned, the stage is orderly, and the
score is sound. -/
structure Stage.Ready (t : Ref .timeline) (s : Stage) : Prop where
  added : t.index < s.timelines.size
  free : (s.emitters.get (s.emitterOf t)).isHeld = false
  channel : s.agenda.channel.isSome = true
  orderly : s.Orderly
  sound : (s.score t).Sound

namespace Stage.Ready

variable {t : Ref .timeline} {s s' : Stage}

theorem steady (h : s.Ready t) (steady : s.Steady t s') (sound : (s'.score t).Sound) :
    s'.Ready t where
  added := Nat.lt_of_lt_of_le h.added steady.size
  free := by rw [steady.emitter, steady.isHeld, h.free]
  channel := steady.channel.trans h.channel
  orderly := steady.orderly h.orderly
  sound := sound

theorem unplayed (h : s.Ready t) (aside : s.Unplayed t s') : s'.Ready t :=
  h.steady aside.toSteady (by rw [aside.score]; exact h.sound)

end Stage.Ready

/-- A world in order. -/
structure World.Kept {υ : Type} (t : Ref .timeline) (w : World (Diary υ)) : Prop where
  ready : w.stage.Ready t
  met : ∀ g ∈ w.user.seen, g.stage.Ready t ∧ Follows t g w.glimpse
  order : w.user.seen.Pairwise fun later earlier => Follows t earlier later

/-- One world follows on another: it is in order, and no task has ended. -/
structure World.Proceeds {υ : Type} (t : Ref .timeline) (w w' : World (Diary υ)) : Prop where
  kept : w'.Kept t
  follows : Follows t w.glimpse w'.glimpse
  lasting : w.stage.Lasting w'.stage

/-- One world comes of another by changes that have nothing to do with the playing of a timeline,
and nothing is written down. -/
structure World.Aside {υ : Type} (t : Ref .timeline) (w w' : World (Diary υ)) : Prop where
  stage : w.stage.Unplayed t w'.stage
  byHand : w'.user.byHand = w.user.byHand
  seen : w'.user.seen = w.user.seen

namespace World

variable {υ : Type} {t : Ref .timeline} {w w' w'' : World (Diary υ)}

/-- A world that comes of one in order, and in which nothing has been written down, is in order
if its score follows on the score before. -/
theorem Kept.follow (h : w.Kept t) (steady : w.stage.Steady t w'.stage)
    (seen : w'.user.seen = w.user.seen) (sound : (w'.stage.score t).Sound)
    (started : (w.stage.score t).started ≤ (w'.stage.score t).started)
    (idle : (w.stage.score t).isPlaying = false →
      (w'.stage.score t).started = (w.stage.score t).started →
        (w'.stage.score t).isPlaying = false ∧
          (w'.stage.score t).frames + w.user.byHand = (w.stage.score t).frames + w'.user.byHand) :
    w'.Kept t ∧ Follows t w.glimpse w'.glimpse := by
  have follows : Follows t w.glimpse w'.glimpse := .of_scores h.ready.sound sound started idle
  refine ⟨⟨h.ready.steady steady sound, fun g mem => ?_, seen ▸ h.order⟩, follows⟩
  rw [seen] at mem
  -- What was written down earlier is followed by the world before, and so by this one.
  obtain ⟨before, since⟩ := h.met g mem
  exact ⟨before, since.trans follows⟩

namespace Aside

theorem refl (t : Ref .timeline) (w : World (Diary υ)) : w.Aside t w := ⟨.refl t _, rfl, rfl⟩

theorem trans (h : w.Aside t w') (h' : w'.Aside t w'') : w.Aside t w'' :=
  ⟨h.stage.trans h'.stage, h'.byHand.trans h.byHand, h'.seen.trans h.seen⟩

theorem added (h : w.Aside t w') (added : t.index < w.stage.timelines.size) :
    t.index < w'.stage.timelines.size :=
  Nat.lt_of_lt_of_le added h.stage.size

theorem proceeds (h : w.Aside t w') (kept : w.Kept t) : w.Proceeds t w' := by
  have score := h.stage.score
  obtain ⟨kept', follows⟩ := kept.follow h.stage.toSteady h.seen
      (by rw [score]; exact kept.ready.sound)
    (Nat.le_of_eq (congrArg Score.started score.symm))
    fun idle _ => ⟨by rw [score, idle], by rw [score, h.byHand]⟩
  exact ⟨kept', follows, h.stage.lasting⟩

end Aside

namespace Proceeds

theorem refl (kept : w.Kept t) : w.Proceeds t w := ⟨kept, .refl t _, .of_tasks_eq rfl⟩

theorem trans (h : w.Proceeds t w') (h' : w'.Proceeds t w'') : w.Proceeds t w'' :=
  ⟨h'.kept, h.follows.trans h'.follows, h.lasting.trans h'.lasting⟩

end Proceeds

end World

namespace Script

variable {υ α β : Type} (t : Ref .timeline)

/-- A script that has nothing to do with the playing of a timeline. -/
def Spares (x : Script (Diary υ) α) : Prop :=
  ∀ w : World (Diary υ), t.index < w.stage.timelines.size → w.Aside t (x.run w).2

/-- A script that has nothing to do with the playing of a timeline, and comes to its end. -/
def StaysOut (x : Script (Diary υ) α) : Prop :=
  ∀ w : World (Diary υ), t.index < w.stage.timelines.size →
    ∃ a w', x.run w = (.ok a, w') ∧ w.Aside t w'

variable {t} {x : Script (Diary υ) α} {w : World (Diary υ)}

theorem spares_change {f : Stage → Stage}
    (h : ∀ s : Stage, t.index < s.timelines.size → s.Unplayed t (f s)) :
    (change f : Script (Diary υ) Unit).Spares t := fun w added => ⟨h w.stage added, rfl, rfl⟩

theorem staysOut_forEach {visit : β → Script (Diary υ) Unit} (h : ∀ b, (visit b).StaysOut t)
    (list : List β) : (forEach visit list).StaysOut t := by
  induction list with
  | nil => exact fun w _ => ⟨(), w, rfl, .refl t w⟩
  | cons b rest ih =>
      intro w added
      obtain ⟨_, w₁, first, aside⟩ := h b w added
      obtain ⟨_, w₂, others, aside'⟩ := ih w₁ (aside.added added)
      exact ⟨(), w₂, by rw [run_forEach_cons, run_bind_of_ok first, others], aside.trans aside'⟩

section Emission

variable {host : Host (Diary υ)}
  (called : ∀ callback payload, (host.called callback payload).StaysOut t)

include called

/-- The job that comes of an event is not to play a timeline. -/
theorem run_respond (m : Ref .emitter) (event : String) (payload : Payload) (h : Handler)
    (w : World (Diary υ)) (added : t.index < w.stage.timelines.size) :
    ∃ job w', (respond host m event payload h).run w = (.ok job, w') ∧ w.Aside t w' ∧
      (Task.mk job .ready false).plays t = false := by
  by_cases accepts : h.matches payload = true
  · obtain ⟨code, w', run, aside⟩ := called h.callback payload w added
    refine ⟨.routine code payload.timeline?, w', ?_, aside, rfl⟩
    unfold respond
    rw [if_pos accepts, run_bind_of_ok run]
    rfl
  · refine ⟨.idle, { w with stage := w.stage.note (.mismatched m event) }, ?_,
      ⟨.note w.stage rfl, rfl, rfl⟩, rfl⟩
    unfold respond
    rw [if_neg accepts]
    rfl

theorem staysOut_offer (m : Ref .emitter) (event : String) (payload : Payload) (h : Handler) :
    (offer host m event payload h).StaysOut t := by
  intro w added
  obtain ⟨job, w', run, aside, stranger⟩ := run_respond called m event payload h w added
  have spawned := Stage.Unplayed.spawn w'.stage stranger
  unfold offer
  rw [run_bind_of_ok run, run_produce_bind]
  split
  · exact ⟨(), _, rfl, aside.trans ⟨spawned, rfl, rfl⟩⟩
  · exact ⟨(), _, rfl, aside.trans ⟨spawned.trans (.note _ rfl), rfl, rfl⟩⟩

/-- An event is emitted if its emitter is free. Nothing else happens but that it is noted. -/
theorem run_emit (m : Ref .emitter) (event : String) (payload : Payload) (w : World (Diary υ))
    (added : t.index < w.stage.timelines.size) (free : (w.stage.emitters.get m).isHeld = false) :
    ∃ w', (emit host m event payload).run w = (.ok (), w') ∧
      World.Aside t { w with stage := w.stage.note (.emitted m event payload) } w' := by
  unfold emit
  rw [run_bind_of_ok (run_await_of_free free), run_note_bind]
  split
  · exact ⟨_, rfl, .refl t _⟩
  · let noted := w.stage.note (.emitted m event payload)
    have retained := noted.rehandled_retainAll payload.handles
    have first : noted.Unplayed t (noted.retainAll payload.handles) := .ofRehandled retained
    have free' : ((noted.retainAll payload.handles).emitters.get m).isHeld = false := by
      rw [retained.emitters]
      exact free
    obtain ⟨_, w', run, offered⟩ := staysOut_forEach (staysOut_offer called m event payload)
      ((w.stage.emitters.get m).handling event)
      { w with stage := hold true m (noted.retainAll payload.handles) }
      (Nat.lt_of_lt_of_le added first.size)
    refine ⟨{ w' with stage := (hold false m w'.stage).releaseAll payload.handles }, ?_, ?_⟩
    · simp only [noted] at run
      simp [run]
    · have held := Stage.Unplayed.held free' offered.stage
      exact ⟨(first.trans held).trans (.ofRehandled (Stage.rehandled_releaseAll _ _)),
        offered.byHand, offered.seen⟩

end Emission

end Script

end Animation
