/-
# From the first scale to the last

A timeline that is played from the start of its run, and does not repeat it, plays as many
frames as it has. At each of them a behaviour that follows a rising alpha of the timeline
scales each of its actors once. The scales lead from one end of the bounds to the other: they
never turn back, and the last of them is the end itself. Backward they lead to the start.
-/

import Animation.Proofs.Behaviours.Playing
import Animation.Proofs.Stage.InOrder
import Animation.Proofs.Timeline.Run

namespace Animation

namespace Clock

variable {c : Clock} {r : Range Fixed}

/-- A clock that is at the start of its run stands on one of two frames. -/
theorem frame_of_rewind (start : c.rewind = c) :
    c.direction = .forward ∧ c.frame = 0 ∨ c.direction = .backward ∧ c.frame = c.frames := by
  unfold rewind at start
  cases direction : c.direction with
  | forward =>
      rw [direction] at start
      exact .inl ⟨rfl, (congrArg frame start).symm⟩
  | backward =>
      rw [direction] at start
      exact .inr ⟨rfl, (congrArg frame start).symm⟩

/-- The points at the frames, from the first to the last, are a path. -/
theorem path_frames (c : Clock) (h : r.Accepted) :
    r.Path c.frames fun frame => r.pointAt (ramp { c with frame }) := by
  have ramp : ∀ frame, frame ≤ c.frames →
      RampAlpha c.frames frame (ramp { c with frame }) :=
    fun frame le => rampAlpha (c := { c with frame }) le
  apply h.path
  · exact (ramp 0 (Nat.zero_le _)).first
  · exact (ramp c.frames (Nat.le_refl _)).last c.frames_pos
  · intro i j hij hj
    exact (ramp i (Nat.le_trans hij hj)).mono c.frames_pos (ramp j hj) hij

/-- Along a run of a clock the points of a range are a path in its direction. -/
theorem path_further (start : c.rewind = c) (h : r.Accepted) :
    (r.toward c.direction).Path c.frames fun j => r.pointAt (c.further j).ramp := by
  rcases frame_of_rewind start with ⟨direction, frame⟩ | ⟨direction, frame⟩
  · have same : ∀ j, c.further j = { c with frame := j } := by
      intro j
      rw [c.sameSettings_further j]
      simp [further, direction, frame]
    simp only [same, direction]
    exact c.path_frames h
  · have same : ∀ j, c.further j = { c with frame := c.frames - j } := by
      intro j
      rw [c.sameSettings_further j]
      simp [further, direction, frame]
    simp only [same, direction]
    exact (c.path_frames h).backward

end Clock

namespace Scene

open Script

variable {υ α : Type} {k : Scene υ} {m : Moment} {host : Host υ} {w : World υ}

/-- Where a scene is after so many frames of a run. -/
def after (k : Scene υ) (m : Moment) (j : Nat) : Moment :=
  { m with
    clock := m.clock.further j
    scaling := fun a =>
      if j = 0 then m.scaling a
      else ⟨k.scaleAt (m.clock.further j).ramp, (m.scaling a).calls + j⟩ }

theorem after_zero (k : Scene υ) (m : Moment) : k.after m 0 = m := by
  unfold after
  rw [Clock.further_zero]
  rfl

/-- One frame after so many is one more. -/
theorem ticked_after (k : Scene υ) (m : Moment) (j : Nat) :
    k.ticked { k.after m j with clock := m.clock.further (j + 1) } = k.after m (j + 1) := by
  unfold ticked Moment.scaled after
  congr 1
  funext a
  by_cases first : j = 0
  · subst first
    rfl
  · simp [first, Nat.add_assoc]

namespace Undisturbed

/-- From any frame of a run, frames are played until the last one, or until enough have been
asked for. -/
theorem playFrames (hh : k.Undisturbed host) (free : m.isHeld = false)
    (start : m.clock.rewind = m.clock) (single : m.clock.repeats = false) (most : Nat) {j : Nat}
    (lt : j < m.clock.frames) (count : Nat) (w : World υ) :
    k.Leads (k.after m j) (k.after m (min (j + most) m.clock.frames))
      (fun played => played = count + (min (j + most) m.clock.frames - j))
      (Script.playFrames host k.timeline most count) w := by
  induction most generalizing j count w with
  | zero =>
      rw [show min (j + 0) m.clock.frames = j by omega]
      exact leads_pure (by omega)
  | succ most ih =>
      have frame : k.Leads (k.after m j) (k.after m (j + 1))
          (fun again => again = !decide (j + 1 = m.clock.frames))
          (Script.nextFrame host k.timeline) w := by
        have left : 0 < (m.clock.further j).remaining := by
          rw [Clock.remaining_further, Clock.remaining_of_rewind start]
          omega
        have step : (m.clock.further j).step = .ok (m.clock.further (j + 1)) := by
          rw [Clock.step_of_remaining left, Clock.further_further]
        have last : (m.clock.further (j + 1)).isComplete = decide (j + 1 = m.clock.frames) := by
          rw [Clock.isComplete_further, Clock.remaining_of_rewind start, decide_eq_decide]
          omega
        rw [← ticked_after, ← last]
        apply hh.nextFrame (m := k.after m j) free (Clock.isOver_of_remaining left) step
        rw [(m.clock.sameSettings_further (j + 1)).repeats, single]
      apply leads_bind frame
      intro again w' answer
      by_cases last : j + 1 = m.clock.frames
      · rw [show min (j + (most + 1)) m.clock.frames = j + 1 by omega, answer, decide_eq_true last]
        exact leads_pure (by omega)
      · have more := ih (j := j + 1) (by omega) (count + 1) w'
        rw [show min (j + 1 + most) m.clock.frames = min (j + (most + 1)) m.clock.frames by omega]
          at more
        rw [answer, decide_eq_false last]
        exact more.weaken fun played h => by omega

end Undisturbed

/-- The moment at which a scene is when nothing is going on. -/
def now (k : Scene υ) (s : Stage) : Moment where
  clock := s.clock k.timeline
  isHeld := (s.emitters.get k.emitter).isHeld
  scaling a := (s.actors.get a).scaling
  lent _ := 0

/-- A scene that is set on a stage, of whatever it came, stands as it is. -/
theorem On.standing (on : k.On w.stage) (reachable : w.stage.Reachable)
    (alive : w.stage.isAlive (.behaviour k.behaviour)) (calm : k.calm w.user) :
    k.Standing (k.now w.stage) w := by
  have tied := reachable.tied
  have bound : w.stage.bindingOf k.behaviour = some ⟨k.alpha, k.entry⟩ := by
    rw [Stage.bindingOf, on.core]
    exact on.binding
  have entries := tied.entriesOf_bound alive bound
  have attached := tied.attached alive bound
  rw [on.timeline] at entries attached
  exact
    { on
      entries
      unique := fun e he same => congrArg Attachment.behaviour (tied.eq_of_id_eq he attached same)
      nodup := on.actors ▸ reachable.nodup_actorsOf k.core
      checked := reachable.checked
      clock := rfl
      isHeld := rfl
      scaling := fun _ _ => rfl
      lent := by
        intro handle mem
        apply (Stage.isAlive_iff _).1
        rcases List.mem_cons.1 mem with rfl | mem
        · exact alive
        · obtain ⟨a, ha, rfl⟩ := List.mem_map.1 mem
          rw [← on.actors] at ha
          exact (List.mem_filter.1 ha).2
      calm }

/-- From the start of its run, and unless it repeats it, a timeline plays as many frames as it
has, however many are asked for. Each of them scales each actor of the scene once, along paths
from one end of the bounds to the other. -/
theorem On.actors_scaled_along_run (on : k.On w.stage) (reachable : w.stage.Reachable)
    (alive : w.stage.isAlive (.behaviour k.behaviour)) (undisturbed : k.Undisturbed host)
    (calm : k.calm w.user) (free : (w.stage.emitters.get k.emitter).isHeld = false)
    (single : (w.stage.clock k.timeline).repeats = false)
    (start : (w.stage.clock k.timeline).rewind = w.stage.clock k.timeline) :
    let clock := w.stage.clock k.timeline
    ∃ x y : Nat → Fixed, (k.bounds.x.toward clock.direction).Path clock.frames x ∧
      (k.bounds.y.toward clock.direction).Path clock.frames y ∧
      ∀ most, ∃ w', (Script.playFrames host k.timeline most 0).run w =
          (.ok (min most clock.frames), w') ∧
        ∀ a ∈ k.actors,
          (w'.stage.actors.get a).scaleCalls =
            (w.stage.actors.get a).scaleCalls + min most clock.frames ∧
          (0 < most → (w'.stage.actors.get a).scale =
            ((x (min most clock.frames)).toDouble, (y (min most clock.frames)).toDouble)) := by
  intro clock
  have stands := on.standing reachable alive calm
  have accepted := stands.accepted_of_scale on.drive
  refine ⟨_, _, Clock.path_further start accepted.x, Clock.path_further start accepted.y, ?_⟩
  intro most
  have plays := undisturbed.playFrames (m := k.now w.stage) free start single most
    (j := 0) clock.frames_pos 0 w
  rw [after_zero, Nat.zero_add] at plays
  obtain ⟨played, w', run, count, stands'⟩ := plays stands
  refine ⟨w', ?_, fun a ha => ?_⟩
  · rw [run, count, Nat.zero_add, Nat.sub_zero]
    rfl
  · have scaling := stands'.scaling a ha
    have some := clock.frames_pos
    unfold after at scaling
    dsimp only at scaling
    split at scaling
    · next none =>
        have none : min most clock.frames = 0 := none
        rw [none, Nat.add_zero]
        exact ⟨congrArg Scaling.calls scaling, fun asked => by omega⟩
    · exact ⟨congrArg Scaling.calls scaling, fun _ => congrArg Scaling.scale scaling⟩

/-- A tenth of a second in which an actor comes to twice its size. -/
def doubling : Script Unit Unit := do
  let _ ← owning [] (produce (·.addTimeline 100))
  let _ ← owning [.timeline ⟨0⟩] (produce (·.addAlpha ⟨0⟩ .rampInc))
  let _ ← owning [.alpha ⟨0⟩]
    (makeScale (.silent Unit) ⟨.one, .one, .ofRaw 131072, .ofRaw 131072⟩ .none (some ⟨0⟩))
  let _ ← owning [] (produce (·.addActor (.ofSize true (0, 0))))
  let _ ← owning [.core ⟨0⟩, .actor ⟨0⟩] (change (·.applyActor ⟨0⟩ ⟨0⟩))

theorem reachable_doubling : (doubling.run ⟨.empty true, ()⟩).2.stage.Reachable :=
  Arises.reachable (@Arises.course _ (fun _ => []) _ _ _ (.opening true rfl)
    (.bind (.offered (.addTimeline 100)) fun _ =>
      .bind (.offered (.addAlpha ⟨0⟩ .rampInc)) fun _ =>
        .bind (.offered (.makeScale _ .none (some ⟨0⟩))) fun _ =>
          .bind (.offered (.addActor _)) fun _ =>
            .bind (.offered (.applyActor ⟨0⟩ ⟨0⟩)) fun _ => .pure ()))

/-- The scene that is set by then. Nobody else is there. -/
def doublingScene : Scene Unit where
  timeline := ⟨0⟩
  emitter := ⟨0⟩
  alpha := ⟨0⟩
  behaviour := ⟨0⟩
  core := ⟨0⟩
  entry := 0
  bounds := ⟨⟨.one, .ofRaw 131072⟩, ⟨.one, .ofRaw 131072⟩⟩
  gravity := .none
  actors := [⟨0⟩]
  others _ := False
  callbacks _ := False
  calm _ := True

theorem on_doubling : doublingScene.On (doubling.run ⟨.empty true, ()⟩).2.stage where
  timeline := by decide +kernel
  easing := by decide +kernel
  emitter := by decide +kernel
  core := by decide +kernel
  drive := by decide +kernel
  binding := by decide +kernel
  actors := by decide +kernel
  others e he ne := by
    have all : ∀ e ∈ (doubling.run ⟨.empty true, ()⟩).2.stage.attachments ⟨0⟩,
        e.behaviour = ⟨0⟩ := by decide +kernel
    exact ne (all e he)
  apart _ none := none.elim
  callbacks _ none := none.elim
  handlers h mem := by
    have none : ((doubling.run ⟨.empty true, ()⟩).2.stage.emitters.get ⟨0⟩).handlers = [] := by
      decide +kernel
    exact List.ne_nil_of_mem mem none

theorem spares_pure (a : α) : k.Spares (pure a : Script υ α) := fun _ _ => leads_pure trivial

theorem undisturbed_silent (k : Scene υ) : k.Undisturbed (.silent υ) where
  reacts _ _ := spares_pure ()
  called _ _ _ := spares_pure 0
  driven _ _ _ := spares_pure ()

/-- Ten frames are asked for, six are played, and the actor ends up twice its size. -/
theorem actors_scaled_along_doubling :
    ∃ w', (Script.playFrames (.silent Unit) ⟨0⟩ 10 0).run (doubling.run ⟨.empty true, ()⟩).2 =
        (.ok 6, w') ∧
      (w'.stage.actors.get ⟨0⟩).scaleCalls = 6 ∧ (w'.stage.actors.get ⟨0⟩).scale = (2, 2) := by
  have clock : (doubling.run ⟨.empty true, ()⟩).2.stage.clock ⟨0⟩ = .ofDuration 100 := by
    decide +kernel
  have frames : ((doubling.run ⟨.empty true, ()⟩).2.stage.clock ⟨0⟩).frames = 6 := by
    rw [clock]
    decide
  have calls : ((doubling.run ⟨.empty true, ()⟩).2.stage.actors.get ⟨0⟩).scaleCalls = 0 := by
    decide +kernel
  have two : (Fixed.ofRaw 131072).toDouble = 2 := by decide +kernel
  obtain ⟨x, y, hx, hy, run⟩ := on_doubling.actors_scaled_along_run reachable_doubling
    (by decide +kernel) (undisturbed_silent _) trivial (by decide +kernel)
    (congrArg Clock.repeats clock) (clock ▸ rfl)
  obtain ⟨w', played, scaled⟩ := run 10
  obtain ⟨count, scale⟩ := scaled ⟨0⟩ (List.mem_singleton_self _)
  have last : min 10 ((doubling.run ⟨.empty true, ()⟩).2.stage.clock ⟨0⟩).frames =
      ((doubling.run ⟨.empty true, ()⟩).2.stage.clock ⟨0⟩).frames := by omega
  have x_last := hx.last
  have y_last := hy.last
  have forward := congrArg Clock.direction clock
  refine ⟨w', ?_, ?_, ?_⟩
  · apply played.trans
    rw [show doublingScene.timeline = ⟨0⟩ from rfl, last, frames]
  · apply count.trans
    rw [show doublingScene.timeline = ⟨0⟩ from rfl, last, frames, calls]
  · apply (scale (by omega)).trans
    rw [show doublingScene.timeline = ⟨0⟩ from rfl] at x_last y_last ⊢
    rw [last, x_last, y_last, forward]
    exact congrArg₂ Prod.mk two two

end Scene

end Animation
