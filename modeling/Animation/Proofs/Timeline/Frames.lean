/-
# Frames stay within a timeline

A clock has a rate and stands on one of its frames. Each operation on clocks keeps this, and
a move of the stage changes the clock of a timeline by one operation at most, so it holds of
all clocks that are ever met. No quotient that is taken of a clock has a divisor of zero.
-/

import Animation.Proofs.Stage.Reachable
import Animation.Proofs.Timeline.Ramp

namespace Animation

namespace Clock

variable {c c' : Clock}

/-- A clock has a rate and stands on one of its frames. -/
structure Sound (c : Clock) : Prop where
  fps_pos : 1 ≤ c.fps
  frame_le : c.frame ≤ c.frames

/-- Where the product of duration and rate is held at the largest word, there are already
more frames than can be counted. -/
theorem frames_eq (c : Clock) :
    c.frames = max 1 (min Word.max32 (c.duration * c.fps / 1000)) := by
  unfold frames Word.mulSaturating64 Word.max32 Word.max64
  omega

theorem sound_ofDuration (duration : Nat) : (ofDuration duration).Sound where
  fps_pos := (by decide : 1 ≤ defaultFps)
  frame_le := Nat.zero_le _

theorem sound_clampFrame (h : 1 ≤ c.fps) : c.clampFrame.Sound where
  fps_pos := h
  frame_le := Nat.min_le_right ..

namespace Sound

theorem setDuration (h : c.Sound) (duration : Nat) : (c.setDuration duration).Sound :=
  sound_clampFrame h.fps_pos

theorem setFps {fps : Nat} (e : c.setFps fps = .ok c') : c'.Sound := by
  unfold Clock.setFps at e
  split at e
  · exact nomatch e
  · next some =>
      cases e
      exact sound_clampFrame (Nat.pos_of_ne_zero some)

theorem setDirection (h : c.Sound) (direction : Direction) :
    (c.setDirection direction).Sound := by
  unfold Clock.setDirection
  dsimp only
  split
  · exact ⟨h.fps_pos, Nat.le_refl _⟩
  · exact ⟨h.fps_pos, h.frame_le⟩

theorem advance (h : c.Sound) {frame : Nat} (e : c.advance frame = .ok c') : c'.Sound := by
  unfold Clock.advance at e
  split at e
  · exact nomatch e
  · next le =>
      cases e
      exact ⟨h.fps_pos, Nat.le_of_not_lt le⟩

theorem rewind (h : c.Sound) : c.rewind.Sound := by
  unfold Clock.rewind
  split
  · exact ⟨h.fps_pos, Nat.zero_le _⟩
  · exact ⟨h.fps_pos, Nat.le_refl _⟩

theorem step (h : c.Sound) (e : c.step = .ok c') : c'.Sound := by
  unfold Clock.step at e
  split at e
  · obtain ⟨next, _, e⟩ := Word.exists_of_bind_eq_ok e
    cases e
    exact ⟨h.fps_pos, Nat.min_le_right ..⟩
  · cases e
    exact ⟨h.fps_pos, Nat.le_trans (Nat.sub_le ..) h.frame_le⟩

/-- However far a clock is moved on, it comes to one of its frames. -/
theorem frameAfter_le (h : c.Sound) {n frame : Nat} (e : c.frameAfter n = .ok frame) :
    frame ≤ c.frames := by
  unfold Clock.frameAfter at e
  split at e
  · obtain ⟨target, _, e⟩ := Word.exists_of_bind_eq_ok e
    cases e
    exact Nat.min_le_right ..
  · obtain ⟨target, _, e⟩ := Word.exists_of_bind_eq_ok e
    obtain ⟨span, run, e⟩ := Word.exists_of_bind_eq_ok e
    cases e
    cases Word.add64_eq_ok run
    exact Nat.le_of_lt_succ (Nat.mod_lt _ (Nat.succ_pos _))
  · cases e
    exact Nat.le_trans (Nat.sub_le ..) h.frame_le
  · obtain ⟨span, run, e⟩ := Word.exists_of_bind_eq_ok e
    obtain ⟨raised, _, e⟩ := Word.exists_of_bind_eq_ok e
    obtain ⟨target, _, e⟩ := Word.exists_of_bind_eq_ok e
    cases e
    cases Word.add64_eq_ok run
    exact Nat.le_of_lt_succ (Nat.mod_lt _ (Nat.succ_pos _))

theorem skip (h : c.Sound) {n : Nat} (e : c.skip n = .ok c') : c'.Sound := by
  obtain ⟨frame, run, e⟩ := Word.exists_of_bind_eq_ok e
  cases e
  have le := h.frameAfter_le run
  refine ⟨h.fps_pos, ?_⟩
  show Word.narrow32 frame ≤ c.frames
  rw [Word.narrow32_of_le (Nat.le_trans le c.frames_le)]
  exact le

end Sound

/-- Every operation keeps a clock sound. -/
theorem Turns.sound (turns : c.Turns c') (h : c.Sound) : c'.Sound := by
  cases turns with
  | setDuration duration => exact h.setDuration duration
  | setFps e => exact Sound.setFps e
  | setRepeats _ => exact ⟨h.fps_pos, h.frame_le⟩
  | setDirection direction => exact h.setDirection direction
  | advance e => exact h.advance e
  | rewind => exact h.rewind
  | skip e => exact h.skip e
  | step e => exact h.step e

/-- What a frame is divided by when the progress is computed is more than zero. -/
theorem frames_gt_zero (c : Clock) : (0 : Single).lt (Binary.ofNat c.frames) = true := by
  obtain ⟨v, magnitude, rounds⟩ := Binary.exists_isMagnitude_ofNat (lt_limit32 c.frames_le)
  rw [Easing.isMagnitude_zero.lt_iff magnitude]
  exact RampAlpha.divisor_pos c.frames_pos rounds

end Clock

/-- A clock is replaced by one that is not refused. -/
theorem Script.run_tryClock_of_ok {υ : Type} {t : Ref .timeline}
    {f : Clock → Except TimelineError Clock} {w : World υ} {c : Clock}
    (h : f (w.stage.clock t) = .ok c) :
    (tryClock t f).run w = (.ok (.ok ()), { w with stage := w.stage.setClock t c }) := by
  simp [tryClock, h]

namespace Stage

variable {s s' : Stage}

theorem clock_modifyTimeline (s : Stage) (u t : Ref .timeline) {f : Timeline → Timeline}
    (h : ∀ row, (f row).clock = row.clock) : (s.modifyTimeline u f).clock t = s.clock t :=
  Table.proj_get_modify _ u t h

theorem clock_setClock (s : Stage) (t : Ref .timeline) (clock : Clock) :
    (s.setClock t clock).clock t = clock :=
  congrArg Timeline.clock (Table.get_modify_same ..)

/-- Of two clocks that are set the second one stays. -/
theorem setClock_setClock (s : Stage) (t : Ref .timeline) (c c' : Clock) :
    (s.setClock t c).setClock t c' = s.setClock t c' :=
  congrArg (fun timelines => { s with timelines })
    (s.timelines.modify_modify t (fun row => { row with clock := c })
      fun row => { row with clock := c' })

theorem Rehandled.clock (h : s.Rehandled s') (t : Ref .timeline) : s'.clock t = s.clock t := by
  obtain ⟨n, e⟩ := h.timeline t
  rw [Stage.clock, e, Stage.clock]

theorem clock_attach (s : Stage) (u : Ref .timeline) (b : Ref .behaviour) (t : Ref .timeline) :
    (s.attach u b).1.clock t = s.clock t :=
  s.clock_modifyTimeline u t fun _ => rfl

theorem clock_unbind (s : Stage) (c : Ref .core) (t : Ref .timeline) :
    (s.unbind c).clock t = s.clock t := by
  unfold unbind
  split
  · rfl
  · rw [(rehandled_releaseAlpha _ _).clock]
    exact s.clock_modifyTimeline _ t fun _ => rfl

theorem clock_rebind (s : Stage) (b : Ref .behaviour) (alpha : Option (Ref .alpha))
    (t : Ref .timeline) : (s.rebind b alpha).clock t = s.clock t := by
  cases alpha with
  | none => exact s.clock_unbind _ t
  | some a =>
      show (((s.retain (.alpha a)).unbind _).attach _ b).1.clock t = _
      rw [clock_attach, clock_unbind]
      exact (s.rehandled_retain _).clock t

/-- A move leaves the clock of a timeline alone, or turns it once, or makes it. -/
theorem Move.clock_or (move : s.Move s') (t : Ref .timeline) :
    s'.clock t = s.clock t ∨ (s.clock t).Turns (s'.clock t) ∨
      ∃ duration, s'.clock t = .ofDuration duration := by
  cases move with
  | @turn u c turns =>
      by_cases e : u = t
      · subst e
        refine .inr (.inl ?_)
        rw [clock_setClock]
        exact turns
      · exact .inl (congrArg Timeline.clock (Table.get_modify_of_ne _ _ e))
  | addTimeline duration =>
      by_cases e : t = s.timelines.next
      · refine .inr (.inr ⟨duration, ?_⟩)
        rw [e]
        exact congrArg Timeline.clock (Table.get_push_next ..)
      · refine .inl (congrArg Timeline.clock (Eq.trans (Table.get_push ..) (if_neg e)))
  | addAlpha u easing => exact .inl ((s.rehandled_retain (.timeline u)).clock t)
  | setPlayback u playback => exact .inl (s.clock_modifyTimeline u t fun _ => rfl)
  | retain _ => exact .inl ((s.rehandled_retain _).clock t)
  | release handle => exact .inl ((s.rehandled_release handle).clock t)
  | rebind _ _ => exact .inl (s.clock_rebind _ _ t)
  | prune _ => exact .inl (s.clock_modifyTimeline _ t fun _ => rfl)
  | note _ | addCore | addBehaviour _ | addActor _ | addNotifier | addEmitter | ask _ _
  | setEasing _ _ | setDrive _ | setActors _ | modifyNotifier _ _ | modifyEmitter _ _
  | schedule _ _ => exact .inl rfl

theorem Move.sound (move : s.Move s') (h : ∀ t, (s.clock t).Sound) (t : Ref .timeline) :
    (s'.clock t).Sound := by
  rcases move.clock_or t with same | turns | ⟨duration, new⟩
  · rw [same]
    exact h t
  · exact turns.sound (h t)
  · rw [new]
    exact Clock.sound_ofDuration duration

theorem Reachable.sound (h : s.Reachable) (t : Ref .timeline) : (s.clock t).Sound :=
  h.keeps (fun _ _ => Clock.sound_ofDuration _) Move.sound t

/-- On every stage that is ever met, a timeline has a positive rate, has as many frames as fit
its duration, one at least and no more than can be counted, and stands on one of them. So
neither its period nor its progress is a quotient by zero. -/
theorem Reachable.clock_in_bounds (h : s.Reachable) (t : Ref .timeline) :
    1 ≤ (s.clock t).fps ∧
      (s.clock t).frames =
        max 1 (min (2 ^ 32 - 1) ((s.clock t).duration * (s.clock t).fps / 1000)) ∧
      (s.clock t).frame ≤ (s.clock t).frames ∧
      (0 : Single).lt (Binary.ofNat (s.clock t).frames) = true :=
  ⟨(h.sound t).fps_pos, (s.clock t).frames_eq, (h.sound t).frame_le, (s.clock t).frames_gt_zero⟩

/-- A second that is cut short when its last frame has been reached. -/
def shortening : Script Unit Unit := do
  let _ ← Script.owning [] (Script.produce (·.addTimeline 1000))
  let _ ← Script.owning [.timeline ⟨0⟩] (Script.advance ⟨0⟩ 60)
  let _ ← Script.owning [.timeline ⟨0⟩] (Script.setDuration ⟨0⟩ 500)

theorem reachable_shortening : (shortening.run ⟨.empty true, ()⟩).2.stage.Reachable :=
  Arises.reachable (@Arises.course _ (fun _ => []) _ _ _ (.opening true rfl)
    (.bind (.offered (.addTimeline 1000)) fun _ =>
      .bind (.offered (.advance ⟨0⟩ 60)) fun _ =>
        .bind (.offered (.setDuration ⟨0⟩ 500)) fun _ => .pure ()))

theorem clock_in_bounds_shortening :
    let clock := (shortening.run ⟨.empty true, ()⟩).2.stage.clock ⟨0⟩
    clock.frame = 30 ∧ 1 ≤ clock.fps ∧
      clock.frames = max 1 (min (2 ^ 32 - 1) (clock.duration * clock.fps / 1000)) ∧
      clock.frame ≤ clock.frames ∧ (0 : Single).lt (Binary.ofNat clock.frames) = true :=
  ⟨by decide, reachable_shortening.clock_in_bounds ⟨0⟩⟩

end Stage

end Animation
