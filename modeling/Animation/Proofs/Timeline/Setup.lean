/-
# Setting up a timeline

A new timeline is given a duration, a rate and a direction, and is told whether it repeats, one
after another. Whatever the order, it ends up with these settings, and so with as many frames. The
frame it stands on is another matter. A timeline that runs forward stays on its first one. One
that is turned backward is put on the last frame that there is at that moment; if fewer frames
are left later then it follows, but if there are more then it stays behind.
-/

import Mathlib.Order.Bounds.Basic
import Animation.Proofs.Script.Running
import Animation.Proofs.Timeline.Frames
import Animation.Proofs.Timeline.Run
import Animation.Stage.Setting

namespace Animation

/-- A setting of a timeline. -/
inductive Setting where
  | duration (duration : Nat)
  | fps (fps : Nat)
  | repeats (repeats : Bool)
  | direction (direction : Direction)
  deriving DecidableEq

namespace Clock

/-- How many frames a clock has that is given a duration and a rate. -/
def framesOf (duration fps : Nat) : Nat := { ofDuration duration with fps }.frames

/-- The clock after a setting, the rate not being zero. -/
def set (c : Clock) : Setting → Clock
  | .duration duration => c.setDuration duration
  | .fps fps => clampFrame { c with fps }
  | .repeats repeats => c.setRepeats repeats
  | .direction direction => c.setDirection direction

/-- The clock after one setting after another. -/
def setAll (c : Clock) (settings : List Setting) : Clock := settings.foldl set c

/-- A setting on its own, whatever becomes of the frame. -/
def alter (c : Clock) : Setting → Clock
  | .duration duration => { c with duration }
  | .fps fps => { c with fps }
  | .repeats repeats => { c with repeats }
  | .direction direction => { c with direction }

variable {c : Clock} {settings : List Setting}

theorem setAll_concat (c : Clock) (settings : List Setting) (x : Setting) :
    c.setAll (settings ++ [x]) = (c.setAll settings).set x := by
  rw [setAll, List.foldl_append]
  rfl

theorem sameSettings_set (c : Clock) (x : Setting) : (c.alter x).SameSettings (c.set x) := by
  cases x with
  | direction direction =>
      simp only [SameSettings, alter, set, setDirection]
      split <;> rfl
  | duration _ | fps _ | repeats _ => rfl

theorem SameSettings.alter {c' : Clock} (h : c.SameSettings c') (x : Setting) :
    (c.alter x).SameSettings (c'.alter x) := by
  unfold SameSettings at *
  rw [h]
  cases x <;> rfl

theorem sameSettings_setAll (c : Clock) (settings : List Setting) :
    (settings.foldl alter c).SameSettings (c.setAll settings) := by
  induction settings using List.reverseRecOn with
  | nil => rfl
  | append_singleton settings x ih =>
      rw [setAll_concat, List.foldl_append]
      exact (ih.alter x).trans (sameSettings_set _ x)

theorem frames_setAll (c : Clock) (settings : List Setting) : (c.setAll settings).frames =
    framesOf (settings.foldl alter c).duration (settings.foldl alter c).fps :=
  (sameSettings_setAll c settings).frames

/-- A clock on its first frame stays there as long as it is not turned backward. -/
theorem frame_setAll_of_not_mem (first : c.frame = 0) (h : .direction .backward ∉ settings) :
    (c.setAll settings).frame = 0 := by
  induction settings using List.reverseRecOn with
  | nil => exact first
  | append_singleton settings x ih =>
      rw [List.mem_append, List.mem_singleton, not_or] at h
      rw [setAll_concat]
      have before := ih h.1
      generalize c.setAll settings = c at before
      cases x with
      | duration _ | fps _ => exact Nat.le_zero.1 (before ▸ Nat.min_le_left ..)
      | repeats _ => exact before
      | direction direction =>
          cases direction with
          | forward =>
              simp only [set, setDirection]
              exact before
          | backward => exact absurd rfl h.2

/-- From its last frame on, a clock that is not turned stands on the least number of frames that
there have been. -/
theorem isLeast_frame_setAll (last : c.frame = c.frames)
    (h : ∀ direction, .direction direction ∉ settings) :
    IsLeast {n | ∃ done, done <+: settings ∧ n = (c.setAll done).frames}
      (c.setAll settings).frame := by
  induction settings using List.reverseRecOn with
  | nil =>
      refine ⟨⟨[], List.prefix_refl _, last⟩, ?_⟩
      rintro n ⟨done, none, rfl⟩
      rw [List.prefix_nil.1 none]
      exact Nat.le_of_eq last
  | append_singleton settings x ih =>
      have before := ih fun direction mem => h direction (List.mem_append_left _ mem)
      have le := before.2 ⟨settings, List.prefix_refl _, rfl⟩
      have next : (c.setAll (settings ++ [x])).frame =
          min (c.setAll (settings ++ [x])).frames (c.setAll settings).frame := by
        rw [setAll_concat]
        cases x with
        | duration _ | fps _ => exact Nat.min_comm ..
        | repeats _ => exact (Nat.min_eq_right le).symm
        | direction direction => exact absurd (by simp) (h direction)
      have along : {n | ∃ done, done <+: settings ++ [x] ∧ n = (c.setAll done).frames} =
          insert (c.setAll (settings ++ [x])).frames
            {n | ∃ done, done <+: settings ∧ n = (c.setAll done).frames} := by
        ext n
        simp only [List.prefix_concat_iff, Set.mem_insert_iff, Set.mem_ofPred_eq, or_and_right,
          exists_or, exists_eq_left]
      rw [next, along]
      exact before.insert _

/-- A clock that is turned backward while it is on its first frame goes to its last one. -/
theorem frame_set_backward (first : c.frame = 0) :
    (c.set (.direction .backward)).frame = (c.set (.direction .backward)).frames := by
  have turned : c.set (.direction .backward) =
      { c with direction := .backward, frame := c.frames } := if_pos ⟨rfl, first⟩
  rw [turned]
  rfl

/-- What is read of a clock is as it was at first, if only one kind of setting bears on it, or as
one of these settings says. -/
theorem eq_or_mem_of_setAll {α : Type} {reading : Clock → α} {kind : α → Setting}
    (unmoved : ∀ {c c' : Clock}, c.SameSettings c' → reading c' = reading c)
    (one : ∀ c x, reading (c.alter x) = reading c ∨ x = kind (reading (c.alter x)))
    (c : Clock) (settings : List Setting) :
    reading (c.setAll settings) = reading c ∨ kind (reading (c.setAll settings)) ∈ settings := by
  rw [unmoved (sameSettings_setAll c settings)]
  induction settings using List.reverseRecOn with
  | nil => exact .inl rfl
  | append_singleton settings x ih =>
      rw [List.foldl_append, List.foldl_cons, List.foldl_nil]
      rcases one (settings.foldl alter c) x with same | own
      · rw [same]
        exact ih.imp_right (List.mem_append_left _)
      · exact .inr (List.mem_append_right _ (List.mem_singleton.2 own.symm))

theorem duration_setAll (c : Clock) (settings : List Setting) :
    (c.setAll settings).duration = c.duration ∨
      Setting.duration (c.setAll settings).duration ∈ settings :=
  eq_or_mem_of_setAll (fun same => by rw [same])
    (fun c x => by cases x <;> simp [alter]) c settings

theorem fps_setAll (c : Clock) (settings : List Setting) :
    (c.setAll settings).fps = c.fps ∨ Setting.fps (c.setAll settings).fps ∈ settings :=
  eq_or_mem_of_setAll (fun same => by rw [same])
    (fun c x => by cases x <;> simp [alter]) c settings

end Clock

/-- One setting of each kind. -/
def Setting.each (duration fps : Nat) (repeats : Bool) (direction : Direction) : List Setting :=
  [.duration duration, .fps fps, .repeats repeats, .direction direction]

namespace Clock

section Orders

variable {duration fps : Nat} {repeats : Bool} {direction : Direction} {order : List Setting}
  (perm : order.Perm (Setting.each duration fps repeats direction)) (initial : Nat)

include perm

theorem mem_of_perm {x : Setting} (mem : x ∈ order) :
    x = .duration duration ∨ x = .fps fps ∨ x = .repeats repeats ∨ x = .direction direction := by
  simpa [Setting.each] using perm.mem_iff.1 mem

theorem nodup_of_perm : order.Nodup := perm.nodup_iff.2 (by simp [Setting.each])

/-- Settings of different kinds do not get in each other's way, apart from the frame. -/
theorem foldl_alter_of_perm (c : Clock) :
    order.foldl alter c = ⟨duration, fps, repeats, direction, c.frame⟩ := by
  refine (perm.foldl_eq' (fun x hx y hy z => ?_) c).trans rfl
  rcases mem_of_perm perm hx with rfl | rfl | rfl | rfl <;>
    rcases mem_of_perm perm hy with rfl | rfl | rfl | rfl <;> rfl

theorem setAll_of_perm (c : Clock) :
    c.setAll order = ⟨duration, fps, repeats, direction, (c.setAll order).frame⟩ := by
  have same : (order.foldl alter c).SameSettings (c.setAll order) := sameSettings_setAll c order
  rwa [foldl_alter_of_perm perm] at same

/-- The direction is given once, so that it is not given before and not again after it is. -/
theorem not_turned_of_perm {before after : List Setting}
    (split : order = before ++ .direction direction :: after) :
    ∀ other, .direction other ∉ before ∧ .direction other ∉ after := by
  have nodup := nodup_of_perm perm
  have own : ∀ other, .direction other ∈ order → other = direction := fun other mem => by
    simpa using mem_of_perm perm mem
  subst split
  obtain ⟨-, rest, apart⟩ := List.nodup_append.1 nodup
  refine fun other => ⟨fun mem => ?_, fun mem => ?_⟩
  · cases own other (List.mem_append_left _ mem)
    exact apart _ mem _ (List.mem_cons_self ..) rfl
  · cases own other (List.mem_append_right _ (List.mem_cons_of_mem _ mem))
    exact (List.nodup_cons.1 rest).1 mem

/-- One that runs forward stands on its first frame. -/
theorem frame_of_perm_of_forward (forward : direction = .forward) :
    ((ofDuration initial).setAll order).frame = 0 := by
  subst forward
  exact frame_setAll_of_not_mem rfl fun mem => by simpa using mem_of_perm perm mem

/-- One that is turned backward stands on the least number of frames that it has had since. -/
theorem isLeast_frame_of_perm (backward : direction = .backward) {before after : List Setting}
    (split : order = before ++ .direction direction :: after) :
    IsLeast {n | ∃ done, done <+: after ∧
        n = ((ofDuration initial).setAll (before ++ .direction direction :: done)).frames}
      ((ofDuration initial).setAll order).frame := by
  have unturned := not_turned_of_perm perm split
  subst split backward
  have first := frame_setAll_of_not_mem (c := ofDuration initial) rfl (unturned .backward).1
  have least := isLeast_frame_setAll (frame_set_backward first) fun other => (unturned other).2
  simpa only [setAll, List.foldl_append, List.foldl_cons] using least

/-- On the way there are as many frames as the old or the new duration and rate make. -/
theorem frames_setAll_of_prefix {done : List Setting} (h : done <+: order) :
    ∃ d ∈ [initial, duration], ∃ r ∈ [defaultFps, fps],
      ((ofDuration initial).setAll done).frames = framesOf d r := by
  refine ⟨_, ?_, _, ?_, rfl⟩
  · rcases duration_setAll (ofDuration initial) done with same | own
    · exact List.mem_cons.2 (.inl same)
    · have known := mem_of_perm perm (h.subset own)
      exact List.mem_cons_of_mem _ (by simpa using known)
  · rcases fps_setAll (ofDuration initial) done with same | own
    · exact List.mem_cons.2 (.inl same)
    · have known := mem_of_perm perm (h.subset own)
      exact List.mem_cons_of_mem _ (by simpa using known)

/-- Once its duration and its rate are given a timeline has all its frames. -/
theorem frames_setAll_of_mem {done rest : List Setting} (split : order = done ++ rest)
    (timed : .duration duration ∈ done ∧ .fps fps ∈ done) :
    ((ofDuration initial).setAll done).frames = framesOf duration fps := by
  have nodup := nodup_of_perm perm
  have last := setAll_of_perm perm (ofDuration initial)
  subst split
  obtain ⟨-, -, apart⟩ := List.nodup_append.1 nodup
  have parts : (ofDuration initial).setAll (done ++ rest) =
      ((ofDuration initial).setAll done).setAll rest := List.foldl_append
  -- The rest says nothing of them any more, so that they are what they are at last.
  have duration : ((ofDuration initial).setAll done).duration = duration := by
    rcases duration_setAll ((ofDuration initial).setAll done) rest with same | own
    · rw [← same, ← parts, last]
    · rw [← parts, last] at own
      exact absurd rfl (apart _ timed.1 _ own)
  have fps : ((ofDuration initial).setAll done).fps = fps := by
    rcases fps_setAll ((ofDuration initial).setAll done) rest with same | own
    · rw [← same, ← parts, last]
    · rw [← parts, last] at own
      exact absurd rfl (apart _ timed.2 _ own)
  exact congrArg₂ framesOf duration fps

/-- One that is turned backward after its duration and its rate are given stands on its last
frame. -/
theorem frame_of_perm_of_mem (backward : direction = .backward) {before after : List Setting}
    (split : order = before ++ .direction direction :: after)
    (timed : .duration duration ∈ before ∧ .fps fps ∈ before) :
    ((ofDuration initial).setAll order).frame = framesOf duration fps := by
  obtain ⟨⟨done, ⟨rest, along⟩, frame⟩, -⟩ := isLeast_frame_of_perm perm initial backward split
  have parts : order = (before ++ .direction direction :: done) ++ rest := by
    rw [split, ← along, List.append_assoc]
    rfl
  rw [frame]
  exact frames_setAll_of_mem perm initial parts
    ⟨List.mem_append_left _ timed.1, List.mem_append_left _ timed.2⟩

/-- If there are never fewer frames than at last then one that is turned backward stands on its
last frame, whenever it is turned. -/
theorem frame_of_perm_of_le (backward : direction = .backward)
    (least : ∀ d ∈ [initial, duration], ∀ r ∈ [defaultFps, fps],
      framesOf duration fps ≤ framesOf d r) :
    ((ofDuration initial).setAll order).frame = framesOf duration fps := by
  have turned : .direction direction ∈ order := perm.mem_iff.2 (by simp [Setting.each])
  obtain ⟨before, after, split⟩ := List.append_of_mem turned
  obtain ⟨⟨done, along, frame⟩, le⟩ := isLeast_frame_of_perm perm initial backward split
  have last : ((ofDuration initial).setAll order).frames = framesOf duration fps := by
    rw [setAll_of_perm perm]
    rfl
  refine Nat.le_antisymm (le ⟨after, List.prefix_refl _, ?_⟩) ?_
  · rw [← split, last]
  · have early : before ++ .direction direction :: done <+: order := by
      rw [split, List.prefix_append_right_inj, List.cons_prefix_cons]
      exact ⟨rfl, along⟩
    obtain ⟨d, hd, r, hr, frames⟩ := frames_setAll_of_prefix perm initial early
    rw [frame, frames]
    exact least d hd r hr

end Orders

/-- The frame is the same in all orders just if it is the first one, or if there are never fewer
frames than at last. -/
theorem frame_setAll_eq_iff (initial duration fps : Nat) (repeats : Bool) (direction : Direction) :
    (∀ order order' : List Setting, order.Perm (Setting.each duration fps repeats direction) →
        order'.Perm (Setting.each duration fps repeats direction) →
        ((ofDuration initial).setAll order).frame = ((ofDuration initial).setAll order').frame) ↔
      direction = .forward ∨ ∀ d ∈ [initial, duration], ∀ r ∈ [defaultFps, fps],
        framesOf duration fps ≤ framesOf d r := by
  constructor
  · intro same
    cases direction with
    | forward => exact .inl rfl
    | backward =>
        let turn : Setting := .direction .backward
        let others : List Setting := [.duration duration, .fps fps, .repeats repeats]
        -- Turned last it stands on its last frame, and turned first on none that it had not then.
        have timed :
            ((ofDuration initial).setAll (others ++ [turn])).frame = framesOf duration fps :=
          frame_of_perm_of_mem (.refl _) initial rfl (show _ = others ++ turn :: [] from rfl)
            (by simp [others])
        have swap : ([turn] ++ others).Perm (others ++ [turn]) := List.perm_append_comm
        have below : ∀ (done : List Setting) {rest : List Setting}, rest.Perm others →
            done <+: rest → framesOf duration fps ≤
              framesOf ((turn :: done).foldl alter (ofDuration initial)).duration
                ((turn :: done).foldl alter (ofDuration initial)).fps := by
          intro done rest perm along
          have order : (turn :: rest).Perm (others ++ [turn]) := (perm.cons turn).trans swap
          have least := isLeast_frame_of_perm order initial rfl (List.nil_append _).symm
          rw [← frames_setAll, ← timed, same (others ++ [turn]) _ (.refl _) order]
          exact least.2 ⟨done, along, rfl⟩
        have atOnce : framesOf duration fps ≤ framesOf initial defaultFps :=
          below [] (.refl _) List.nil_prefix
        have timedFirst : framesOf duration fps ≤ framesOf duration defaultFps :=
          below [.duration duration] (.refl _) (List.prefix_append [_] _)
        have ratedFirst : framesOf duration fps ≤ framesOf initial fps :=
          below [.fps fps] (.swap ..) (List.prefix_append [_] _)
        right
        simp [atOnce, timedFirst, ratedFirst]
  · intro h order order' perm perm'
    cases direction with
    | forward =>
        rw [frame_of_perm_of_forward perm initial rfl, frame_of_perm_of_forward perm' initial rfl]
    | backward =>
        have least := h.resolve_left nofun
        rw [frame_of_perm_of_le perm initial rfl least, frame_of_perm_of_le perm' initial rfl least]

end Clock

/-! ## On the stage -/

namespace Script

variable {υ : Type}

/-- Set a timeline. -/
def set (t : Ref .timeline) : Setting → Script υ (Except Error Unit)
  | .duration duration => do
      setDuration t duration
      return .ok ()
  | .fps fps => setFps t fps
  | .repeats repeats => do
      setRepeats t repeats
      return .ok ()
  | .direction direction => do
      setDirection t direction
      return .ok ()

/-- Set a timeline in one way after another, until that is refused. -/
def setAll (t : Ref .timeline) : List Setting → Script υ (Except Error Unit)
  | [] => return .ok ()
  | x :: rest => do
      match ← set t x with
      | .ok () => setAll t rest
      | .error cause => return .error cause

/-- Make a timeline and set it. -/
def setUp (initial : Nat) (settings : List Setting) :
    Script υ (Except Error (Ref .timeline)) := do
  let t ← produce (·.addTimeline initial)
  match ← setAll t settings with
  | .ok () => return .ok t
  | .error cause => return .error cause

/-- A setting that is not refused sets the clock. -/
theorem run_set (t : Ref .timeline) {x : Setting} (accepted : ∀ fps, x = .fps fps → 1 ≤ fps)
    (w : World υ) :
    (set t x).run w =
      (.ok (.ok ()), { w with stage := w.stage.setClock t ((w.stage.clock t).set x) }) := by
  cases x with
  | fps fps =>
      have some : fps ≠ 0 := Nat.ne_of_gt (accepted fps rfl)
      exact run_tryClock_of_ok (f := (·.setFps fps)) (if_neg some)
  | duration _ | repeats _ | direction _ => rfl

theorem run_setAll (t : Ref .timeline) {settings : List Setting}
    (accepted : ∀ fps, .fps fps ∈ settings → 1 ≤ fps) (w : World υ) :
    ∃ w', (setAll t settings).run w = (.ok (.ok ()), w') ∧
      w'.stage.clock t = (w.stage.clock t).setAll settings := by
  induction settings generalizing w with
  | nil => exact ⟨w, rfl, rfl⟩
  | cons x rest ih =>
      have first := run_set t (x := x)
        (fun fps same => accepted fps (same ▸ List.mem_cons_self ..)) w
      obtain ⟨w', run, clock⟩ := ih (fun fps mem => accepted fps (List.mem_cons_of_mem _ mem))
        { w with stage := w.stage.setClock t ((w.stage.clock t).set x) }
      rw [Stage.clock_setClock] at clock
      exact ⟨w', (run_bind_of_ok first _).trans run, clock⟩

theorem run_setUp (initial : Nat) {settings : List Setting}
    (accepted : ∀ fps, .fps fps ∈ settings → 1 ≤ fps) (w : World υ) :
    ∃ t w', (setUp initial settings).run w = (.ok (.ok t), w') ∧
      w'.stage.clock t = (Clock.ofDuration initial).setAll settings := by
  obtain ⟨w', run, clock⟩ := run_setAll w.stage.timelines.next accepted
    { w with stage := (w.stage.addTimeline initial).1 }
  have new : (w.stage.addTimeline initial).1.clock w.stage.timelines.next = .ofDuration initial :=
    congrArg Timeline.clock (Table.get_push_next ..)
  rw [new] at clock
  refine ⟨_, w', ?_, clock⟩
  unfold setUp
  rw [run_produce_bind]
  exact run_bind_of_ok run _

/-- A new timeline is given one setting of each kind, in any order. It ends up with these settings,
and with the frames that they make. It stands on its first frame if it runs forward, and else on the
least number of frames that it has had since it was turned, which is its last frame if its duration
and its rate were given before. That is the same frame in all orders just if the timeline runs
forward or if neither its old duration nor its old rate makes fewer frames. -/
theorem set_up_in_any_order (w : World υ) (initial duration : Nat) {fps : Nat} (positive : 1 ≤ fps)
    (repeats : Bool) (direction : Direction) :
    ∃ frame : List Setting → Nat,
      (∀ order : List Setting, order.Perm (Setting.each duration fps repeats direction) →
        (∃ t w', (setUp initial order).run w = (.ok (.ok t), w') ∧
          w'.stage.clock t = ⟨duration, fps, repeats, direction, frame order⟩ ∧
          (w'.stage.clock t).frames = Clock.framesOf duration fps) ∧
        (direction = .forward → frame order = 0) ∧
        (direction = .backward → ∀ before after,
          order = before ++ .direction direction :: after →
            IsLeast {n | ∃ done, done <+: after ∧ n = ((Clock.ofDuration initial).setAll
              (before ++ .direction direction :: done)).frames} (frame order) ∧
            (.duration duration ∈ before ∧ .fps fps ∈ before →
              frame order = Clock.framesOf duration fps))) ∧
      ((∀ order order' : List Setting,
          order.Perm (Setting.each duration fps repeats direction) →
          order'.Perm (Setting.each duration fps repeats direction) →
          frame order = frame order') ↔
        direction = .forward ∨ ∀ d ∈ [initial, duration], ∀ r ∈ [Clock.defaultFps, fps],
          Clock.framesOf duration fps ≤ Clock.framesOf d r) := by
  refine ⟨fun order => ((Clock.ofDuration initial).setAll order).frame, fun order perm =>
    ⟨?_, fun forward => Clock.frame_of_perm_of_forward perm initial forward,
      fun backward before after split =>
        ⟨Clock.isLeast_frame_of_perm perm initial backward split,
          Clock.frame_of_perm_of_mem perm initial backward split⟩⟩,
    Clock.frame_setAll_eq_iff initial duration fps repeats direction⟩
  have accepted : ∀ rate, .fps rate ∈ order → 1 ≤ rate := by
    intro rate mem
    have known : rate = fps := by simpa using Clock.mem_of_perm perm mem
    rw [known]
    exact positive
  obtain ⟨t, w', run, clock⟩ := run_setUp initial accepted w
  rw [Clock.setAll_of_perm perm] at clock
  exact ⟨t, w', run, clock, by rw [clock]; rfl⟩

end Script

/-- The timeline is turned backward when its rate is given, and its duration is not. -/
def turnedBetween : List Setting :=
  [.fps 30, .direction .backward, .repeats true, .duration 1000]

theorem set_up_in_any_order_turnedBetween :
    let w : World Unit := ⟨.empty true, ()⟩
    1 ≤ 30 ∧ turnedBetween.Perm (Setting.each 1000 30 true .backward) ∧
      ((Script.setUp 500 turnedBetween).run w).2.stage.clock ⟨0⟩ = ⟨1000, 30, true, .backward, 15⟩ ∧
      IsLeast {n | ∃ done, done <+: [.repeats true, .duration 1000] ∧
        n = ((Clock.ofDuration 500).setAll
          ([.fps 30] ++ .direction .backward :: done)).frames} 15 := by
  intro w
  have perm : turnedBetween.Perm (Setting.each 1000 30 true .backward) := by decide
  have known : ((Script.setUp 500 turnedBetween).run w).2.stage.clock ⟨0⟩ =
      ⟨1000, 30, true, .backward, 15⟩ := by decide +kernel
  have made : ((Script.setUp 500 turnedBetween).run w).1 = .ok (.ok ⟨0⟩) := by decide +kernel
  obtain ⟨frame, orders, -⟩ :=
    Script.set_up_in_any_order w 500 1000 (by decide : 1 ≤ 30) true .backward
  obtain ⟨⟨t, w', run, clock, -⟩, -, turned⟩ := orders turnedBetween perm
  have same : frame turnedBetween = 15 := by
    have stands := known
    rw [run] at stands made
    cases made
    exact congrArg Clock.frame (clock.symm.trans stands)
  exact ⟨by decide, perm, known, same ▸ (turned rfl [.fps 30] _ rfl).1⟩

/-- A second that becomes two: turned backward at first it stands on its sixtieth frame, and turned
backward at last on its last one, the hundred and twentieth. -/
theorem order_of_setting_tells :
    let w : World Unit := ⟨.empty true, ()⟩
    let order : List Setting := [.direction .backward, .duration 2000, .fps 60, .repeats false]
    let order' : List Setting := [.duration 2000, .fps 60, .repeats false, .direction .backward]
    order.Perm (Setting.each 2000 60 false .backward) ∧
      order'.Perm (Setting.each 2000 60 false .backward) ∧
      ((Script.setUp 1000 order).run w).1 = .ok (.ok ⟨0⟩) ∧
      (((Script.setUp 1000 order).run w).2.stage.clock ⟨0⟩).frame = 60 ∧
      ((Script.setUp 1000 order').run w).1 = .ok (.ok ⟨0⟩) ∧
      (((Script.setUp 1000 order').run w).2.stage.clock ⟨0⟩).frame = 120 := by
  decide +kernel

end Animation
