/-
# Starting without a runtime

To start a timeline is to take it back to the start of a run that is over, to announce the start,
and to spawn a task that plays the frames. Without a runtime the last of these fails, and by then
the others are done. So the caller is told of an error and no frame is ever played, but a run that
was over has been wound back, and the handlers of the start have been called, although nothing
comes of what they ask for.
-/

import Animation.Proofs.Playback.Players
import Animation.Proofs.Script.Pact
import Animation.Proofs.Stage.Reachable
import Animation.Proofs.Timeline.Mirror

namespace Animation

open Script

section Calls

variable {υ : Type} (host : Host υ) (m : Ref .emitter) (event : String) (payload : Payload)

/-- Handlers are called one after another where no task can be spawned: each that accepts the
payload is called and comes to its end, one that does not is left out, and either way it is noted
that nothing comes of it. -/
inductive Script.CallsInVain : List Handler → World υ → World υ → Prop
  | done (w : World υ) : CallsInVain [] w w
  | called {h : Handler} {rest : List Handler} {routine : Nat} {w w₁ w' : World υ}
      (accepts : h.matches payload = true)
      (run : (host.called h.callback payload).run w = (.ok routine, w₁))
      (others : CallsInVain rest
        { w₁ with stage := w₁.stage.note (.unrun m event .outsideRuntime) } w') :
      CallsInVain (h :: rest) w w'
  | leftOut {h : Handler} {rest : List Handler} {w w' : World υ}
      (refuses : h.matches payload = false)
      (others : CallsInVain rest
        { w with stage :=
          (w.stage.note (.mismatched m event)).note (.unrun m event .outsideRuntime) } w') :
      CallsInVain (h :: rest) w w'

/-- An event is emitted where no task can be spawned. If it has handlers then they are called in
vain, while the emitter is held and the payload keeps its handle. -/
inductive Script.EmitsInVain : World υ → World υ → Prop
  | unheard {w : World υ} (none : (w.stage.emitters.get m).handling event = []) :
      EmitsInVain w { w with stage := w.stage.note (.emitted m event payload) }
  | heard {w called : World υ} (some : (w.stage.emitters.get m).handling event ≠ [])
      (calls : CallsInVain host m event payload ((w.stage.emitters.get m).handling event)
        { w with
          stage := hold true m
            ((w.stage.note (.emitted m event payload)).retainAll payload.handles) }
        called) :
      EmitsInVain w
        { called with stage := (hold false m called.stage).releaseAll payload.handles }

/-- Without a runtime nothing comes of what a handler asks for. -/
theorem Script.run_offer_of_no_channel {h : Handler} {job : Job} {w w' : World υ}
    (responded : (respond host m event payload h).run w = (.ok job, w'))
    (none : w'.stage.agenda.channel = none) :
    (offer host m event payload h).run w =
      (.ok (), { w' with stage := w'.stage.note (.unrun m event .outsideRuntime) }) := by
  simp [offer, run_bind_of_ok responded, Stage.spawn_of_no_channel none]

end Calls

namespace Stage

/-- A timeline stands as it stood: with its settings, on its frame, with the same behaviours
attached to it that are still there, and not played if it was not. Nor has a runtime come up or
gone down, or the emitter been held. -/
structure Undisturbed (t : Ref .timeline) (s s' : Stage) : Prop where
  row : ∃ n, s'.timelines.get t = { s.timelines.get t with holders := n }
  attached : s'.attachedCount t = s.attachedCount t
  idle : s.isPlaying t = false → s'.isPlaying t = false
  isHeld : (s'.emitters.get (s.emitterOf t)).isHeld = (s.emitters.get (s.emitterOf t)).isHeld
  channel : s'.agenda.channel.isSome = s.agenda.channel.isSome

namespace Undisturbed

variable {t : Ref .timeline} {s s' s'' : Stage}

theorem refl (t : Ref .timeline) (s : Stage) : s.Undisturbed t s :=
  ⟨⟨_, rfl⟩, rfl, id, rfl, rfl⟩

theorem clock (h : s.Undisturbed t s') : s'.clock t = s.clock t := by
  obtain ⟨n, row⟩ := h.row
  rw [Stage.clock, row, Stage.clock]

theorem attachments (h : s.Undisturbed t s') :
    (s'.timelines.get t).attachments = (s.timelines.get t).attachments := by
  obtain ⟨n, row⟩ := h.row
  rw [row]

theorem emitter (h : s.Undisturbed t s') : s'.emitterOf t = s.emitterOf t := by
  obtain ⟨n, row⟩ := h.row
  rw [emitterOf, row, emitterOf]

theorem outside (h : s.Undisturbed t s') (channel : s.agenda.channel = none) :
    s'.agenda.channel = none := by
  have same := h.channel
  rwa [channel, Option.isSome_none, Option.isSome_eq_false_iff, Option.isNone_iff_eq_none] at same

theorem trans (h : s.Undisturbed t s') (h' : s'.Undisturbed t s'') : s.Undisturbed t s'' where
  row := by
    obtain ⟨n, row⟩ := h.row
    obtain ⟨n', row'⟩ := h'.row
    exact ⟨n', by rw [row', row]⟩
  attached := h'.attached.trans h.attached
  idle still := h'.idle (h.idle still)
  isHeld := by
    have held := h'.isHeld
    rw [h.emitter] at held
    exact held.trans h.isHeld
  channel := h'.channel.trans h.channel

/-- A task that has ended is one of those that were there, and so none of the new ones. -/
theorem incidental (h : s.Incidental s') : s.Undisturbed t s' where
  row := h.timeline t
  attached := by
    obtain ⟨n, row⟩ := h.timeline t
    simp only [attachedCount, row, isAlive, holders, h.behaviours]
    rfl
  idle still := by
    obtain ⟨n, row⟩ := h.timeline t
    unfold isPlaying at still ⊢
    rw [row]
    dsimp only
    split
    · next k played =>
        rw [played] at still
        dsimp only at still
        have added : k.index < s.tasks.size := by
          by_contra new
          rw [hasEnded, Table.get_of_size_le _ (Nat.le_of_not_lt new)] at still
          exact Bool.noConfusion (show true = false from still)
        rwa [hasEnded, h.task k added]
    · rfl
  isHeld := by rw [h.emitters]
  channel := h.channel

theorem held {m : Ref .emitter} (free : (s.emitters.get m).isHeld = false)
    (h : (hold true m s).Undisturbed t s') : s.Undisturbed t (hold false m s') where
  row := h.row
  attached := h.attached
  idle := h.idle
  isHeld := isHeld_hold_false free h.isHeld
  channel := h.channel

end Undisturbed

end Stage

namespace Pact

variable {υ : Type} {calm : υ → Prop} {t : Ref .timeline} {host : Host υ} {w : World υ}

/-- The pact to leave a timeline as it stands. -/
def undisturbed (calm : υ → Prop) (t : Ref .timeline) : Pact υ where
  calm := calm
  leaves := Stage.Undisturbed t
  refl := .refl t
  trans := .trans
  incidental := .incidental
  held := .held

namespace Binds

variable (hh : (undisturbed calm t).Binds host)

include hh

/-- A handler is called or left out. If nothing comes of it then this is how handlers begin to be
called in vain. -/
theorem run_respond (m : Ref .emitter) (event : String) (payload : Payload) (h : Handler)
    (keeps : (undisturbed calm t).Keeps w) :
    ∃ job w₁, (respond host m event payload h).run w = (.ok job, w₁) ∧
      (undisturbed calm t).Follows w w₁ ∧
      ∀ rest w', CallsInVain host m event payload rest
          { w₁ with stage := w₁.stage.note (.unrun m event .outsideRuntime) } w' →
        CallsInVain host m event payload (h :: rest) w w' := by
  unfold respond
  cases accepts : h.matches payload with
  | true =>
      obtain ⟨routine, w₁, run, -, follows⟩ := hh.called h.callback payload w keeps
      refine ⟨.routine routine payload.timeline?, w₁, ?_, follows,
        fun _ _ others => .called accepts run others⟩
      rw [if_pos rfl, run_bind_of_ok run]
      rfl
  | false =>
      refine ⟨.idle, { w with stage := w.stage.note (.mismatched m event) }, ?_,
        keeps.incidental (.note _ rfl), fun _ _ others => .leftOut accepts others⟩
      rw [if_neg Bool.false_ne_true]
      rfl

/-- Without a runtime handlers are called in vain. -/
theorem run_offers (m : Ref .emitter) (event : String) (payload : Payload)
    (handlers : List Handler) (keeps : (undisturbed calm t).Keeps w)
    (outside : w.stage.agenda.channel = none) :
    ∃ w', (forEach (Script.offer host m event payload) handlers).run w = (.ok (), w') ∧
      CallsInVain host m event payload handlers w w' ∧ (undisturbed calm t).Follows w w' := by
  induction handlers generalizing w with
  | nil => exact ⟨w, rfl, .done w, .refl keeps⟩
  | cons h rest ih =>
      obtain ⟨job, w₁, responded, first, calls⟩ := hh.run_respond m event payload h keeps
      have outside₁ := first.leaves.outside outside
      have offered := run_offer_of_no_channel host m event payload responded outside₁
      have unrun : (undisturbed calm t).Follows w
          { w₁ with stage := w₁.stage.note (.unrun m event .outsideRuntime) } :=
        first.trans (first.keeps.incidental (.note _ rfl))
      obtain ⟨w', run, others, follows⟩ := ih unrun.keeps outside₁
      exact ⟨w', (run_bind_of_ok offered _).trans run, calls rest w' others, unrun.trans follows⟩

/-- Without a runtime an event is emitted in vain. -/
theorem run_emit_of_no_channel (m : Ref .emitter) (event : String) (payload : Payload)
    (keeps : (undisturbed calm t).Keeps w) (free : (w.stage.emitters.get m).isHeld = false)
    (outside : w.stage.agenda.channel = none) :
    ∃ w', (Script.emit host m event payload).run w = (.ok (), w') ∧
      EmitsInVain host m event payload w w' ∧ (undisturbed calm t).Follows w w' := by
  let noted : World υ := { w with stage := w.stage.note (.emitted m event payload) }
  have told : (undisturbed calm t).Follows w noted :=
    keeps.follows (fun _ => rfl) ⟨⟨_, rfl⟩, rfl, id, rfl, rfl⟩
  unfold Script.emit
  rw [run_bind_of_ok (run_await_of_free free), run_note_bind]
  split
  · next none => exact ⟨noted, rfl, .unheard none, told⟩
  · next some =>
      have others : ∀ h ∈ payload.handles, h.isOnBehaviour = false :=
        Handle.isOnBehaviour_of_timeline?
      have kept := told.trans (told.keeps.incidental (.retainAll noted.stage others))
      have free' : ((noted.stage.retainAll payload.handles).emitters.get m).isHeld = false := by
        rw [(Stage.rehandled_retainAll _ _).emitters]
        exact free
      obtain ⟨w₁, run, calls, follows⟩ := hh.run_offers m event payload
        ((w.stage.emitters.get m).handling event)
        (w := { w with stage := hold true m (noted.stage.retainAll payload.handles) })
        ⟨kept.keeps.calm, kept.keeps.checked⟩ ((kept.leaves.outside outside : _))
      have letGo : (undisturbed calm t).Follows w
          { w₁ with stage := hold false m w₁.stage } :=
        kept.trans ⟨⟨follows.keeps.calm, follows.keeps.checked⟩, .held free' follows.leaves⟩
      refine ⟨_, ?_, .heard some calls,
        letGo.trans (letGo.keeps.incidental (.releaseAll _ others))⟩
      rw [run_holding, run_thenTidy, run_change_bind, run_thenTidy, run]

end Binds

end Pact

/-! ## Starting -/

/-- A run that is over does not begin where it ends. -/
theorem Clock.frame_rewind_ne {c : Clock} (complete : c.isComplete = true) :
    c.rewind.frame ≠ c.frame := by
  have pos := c.frames_pos
  cases direction : c.direction with
  | forward =>
      simp only [isComplete, direction, decide_eq_true_iff] at complete
      simp only [rewind, direction]
      omega
  | backward =>
      simp only [isComplete, direction, beq_iff_eq] at complete
      simp only [rewind, direction]
      omega

namespace Stage

/-- A timeline is ready to be played: a run that is over begins anew, and the start is noted. -/
def readied (s : Stage) (t : Ref .timeline) : Stage :=
  let s := if (s.clock t).isComplete then s.rewind t else s
  s.note (.started t (s.clock t).frames (s.clock t).period)

/-- Nothing changes in this but the frame. -/
theorem timeline_readied (s : Stage) (t : Ref .timeline) :
    (s.readied t).timelines.get t = { s.timelines.get t with
      clock := if (s.clock t).isComplete then (s.clock t).rewind else s.clock t } := by
  cases complete : (s.clock t).isComplete with
  | false =>
      simp only [readied, complete, if_neg Bool.false_ne_true]
      rfl
  | true =>
      simp only [readied, complete, if_true]
      exact Table.get_modify_same ..

/-- Only the timelines and the journal are others. -/
theorem exists_readied_eq (s : Stage) (t : Ref .timeline) :
    ∃ timelines journal, s.readied t = { s with timelines, journal } := by
  unfold readied
  dsimp only
  split <;> exact ⟨_, _, rfl⟩

theorem isPlaying_readied (s : Stage) (t : Ref .timeline) :
    (s.readied t).isPlaying t = s.isPlaying t := by
  have tasks : (s.readied t).tasks = s.tasks := by
    obtain ⟨timelines, journal, eq⟩ := s.exists_readied_eq t
    rw [eq]
  simp only [isPlaying, timeline_readied, hasEnded, tasks]

theorem attachedCount_readied (s : Stage) (t : Ref .timeline) :
    (s.readied t).attachedCount t = s.attachedCount t := by
  have alive (b : Ref .behaviour) :
      (s.readied t).isAlive (.behaviour b) = s.isAlive (.behaviour b) := by
    obtain ⟨timelines, journal, eq⟩ := s.exists_readied_eq t
    rw [eq]
    rfl
  simp only [attachedCount, timeline_readied, alive]

end Stage

/-- A timeline that is ready is announced, and then a task is missing that plays it. -/
theorem Script.run_start_of_no_channel {υ : Type} {host : Host υ} {w w' : World υ}
    {t : Ref .timeline} (idle : w.stage.isPlaying t = false)
    (announced : (announce host t .started (.timeline t)).run
      { w with stage := w.stage.readied t } = (.ok (), w'))
    (outside : w'.stage.agenda.channel = none) :
    (start host t).run w = (.ok (.error .outsideRuntime), w') := by
  have launched (v : World υ) (ready : { v with stage := v.stage.note (.started t
        (v.stage.clock t).frames (v.stage.clock t).period) } =
      { w with stage := w.stage.readied t }) :
      (launch host t).run v = (.ok (.error .outsideRuntime), w') := by
    simp [launch, ready, run_bind_of_ok announced, Stage.spawn_of_no_channel outside]
  unfold start
  rw [run_stage_bind, idle, if_neg Bool.false_ne_true, run_stage_bind]
  cases complete : (w.stage.clock t).isComplete with
  | false => exact launched w (by simp only [Stage.readied, complete, if_neg Bool.false_ne_true])
  | true =>
      exact launched { w with stage := w.stage.rewind t }
        (by simp only [Stage.readied, complete, if_true])

/-- Without a runtime a timeline that is not being played cannot be started, and stays as little
played as it was, with the same behaviours attached. But its start has been announced, to handlers
that are called in vain, and if its run was over then it stands on another frame, at the start of
the run. -/
theorem Stage.Reachable.start_fails_outside_runtime {υ : Type} {w : World υ}
    (reachable : w.stage.Reachable) {t : Ref .timeline} {calm : υ → Prop} {host : Host υ}
    (binds : (Pact.undisturbed calm t).Binds host) (atEase : calm w.user)
    (free : (w.stage.emitters.get (w.stage.emitterOf t)).isHeld = false)
    (outside : w.stage.agenda.channel = none) (idle : w.stage.isPlaying t = false) :
    ∃ w', (start host t).run w = (.ok (.error .outsideRuntime), w') ∧
      w'.stage.isPlaying t = false ∧
      (w'.stage.timelines.get t).attachments = (w.stage.timelines.get t).attachments ∧
      w'.stage.attachedCount t = w.stage.attachedCount t ∧
      w'.stage.clock t = (if (w.stage.clock t).isComplete then (w.stage.clock t).rewind
        else w.stage.clock t) ∧
      ((w'.stage.clock t).frame = (w.stage.clock t).frame ↔
        (w.stage.clock t).isComplete = false) ∧
      EmitsInVain host (w.stage.emitterOf t) TimelineEvent.started.name (.timeline t)
        { w with stage := w.stage.readied t } w' := by
  obtain ⟨timelines, journal, ready⟩ := w.stage.exists_readied_eq t
  have checked (b : Ref .behaviour) : ((w.stage.readied t).behaviours.get b).drive.Checked := by
    rw [ready]
    exact reachable.checked b
  obtain ⟨w', run, emits, follows⟩ := binds.run_emit_of_no_channel (w.stage.emitterOf t)
    TimelineEvent.started.name (.timeline t) (w := { w with stage := w.stage.readied t })
    ⟨atEase, checked⟩ (by rw [ready]; exact free) (by rw [ready]; exact outside)
  have left : (w.stage.readied t).Undisturbed t w'.stage := follows.leaves
  have clock : w'.stage.clock t =
      if (w.stage.clock t).isComplete then (w.stage.clock t).rewind else w.stage.clock t := by
    rw [left.clock, Stage.clock, timeline_readied]
  refine ⟨w', ?_, left.idle ((isPlaying_readied ..).trans idle), ?_,
    left.attached.trans (attachedCount_readied ..), clock, ?_, emits⟩
  · have announced : (announce host t .started (.timeline t)).run
        { w with stage := w.stage.readied t } = (.ok (), w') := by
      simpa [announce, Stage.emitterOf, Stage.timeline_readied] using run
    exact run_start_of_no_channel idle announced
      (left.outside (by rw [ready]; exact outside))
  · rw [left.attachments, timeline_readied]
  · rw [clock]
    cases complete : (w.stage.clock t).isComplete with
    | false => simp
    | true => simpa using Clock.frame_rewind_ne complete

/-- The handlers that are called are listed. -/
def listing : Host (List Callback) := { Host.silent (List Callback) with
  called := fun callback _ => do
    modify fun w => { w with user := w.user ++ [callback] }
    return 0 }

theorem Pact.binds_listing (t : Ref .timeline) :
    (Pact.undisturbed (fun _ => True) t).Binds listing where
  called _ _ w keeps := ⟨0, _, rfl, trivial, ⟨trivial, keeps.checked⟩, .refl t w.stage⟩
  driven _ _ _ := Pact.abides_done
  reacts _ _ _ := Pact.abides_done

/-- A new timeline, the number of which is known, stands on a frame, and its start is heard. -/
def Script.prepareNew (t : Ref .timeline) (m : Ref .emitter) (frame : Nat) :
    Script (List Callback) Unit := do
  let _ ← owning [] (produce (·.addTimeline 100))
  let _ ← owning [.timeline t] (advance t frame)
  let _ ← owning [] (registerHandler m "started" .frame 7)
  let _ ← owning [] (registerHandler m "started" .timeline 8)

theorem Script.course_prepareNew (t : Ref .timeline) (m : Ref .emitter) (frame : Nat) :
    Course (fun _ => []) (prepareNew t m frame) :=
  .bind (.offered (.addTimeline 100)) fun _ => .bind (.offered (.advance t frame)) fun _ =>
    .bind (.offered (.registerHandler m "started" .frame 7)) fun _ =>
      .bind (.offered (.registerHandler m "started" .timeline 8)) fun _ => .pure ()

/-- The first timeline is at the end of its run, the second one on the way. -/
def prepared : World (List Callback) :=
  ((prepareNew ⟨0⟩ ⟨0⟩ 6 >>= fun _ => prepareNew ⟨1⟩ ⟨1⟩ 2).run ⟨.empty false, []⟩).2

theorem reachable_prepared : prepared.stage.Reachable := by
  unfold prepared
  exact Arises.reachable (@Arises.course _ (fun _ => []) _ _ _ (.opening false rfl)
    (.bind (course_prepareNew ⟨0⟩ ⟨0⟩ 6) fun _ => course_prepareNew ⟨1⟩ ⟨1⟩ 2))

/-- The first timeline is found at the start of its run, and the second one where it was. -/
theorem start_fails_outside_runtime_prepared :
    (∃ w', (start listing ⟨0⟩).run prepared = (.ok (.error .outsideRuntime), w') ∧
      w'.stage.isPlaying ⟨0⟩ = false ∧ (w'.stage.clock ⟨0⟩).frame = 0) ∧
    ∃ w', (start listing ⟨1⟩).run prepared = (.ok (.error .outsideRuntime), w') ∧
      w'.stage.isPlaying ⟨1⟩ = false ∧ (w'.stage.clock ⟨1⟩).frame = 2 := by
  have fails (t : Ref .timeline) := reachable_prepared.start_fails_outside_runtime
    (Pact.binds_listing t) trivial
  constructor
  · obtain ⟨w', run, idle, -, -, clock, -⟩ := fails ⟨0⟩ (by decide +kernel) (by decide +kernel)
      (by decide +kernel)
    refine ⟨w', run, idle, ?_⟩
    rw [clock]
    decide +kernel
  · obtain ⟨w', run, idle, -, -, clock, -⟩ := fails ⟨1⟩ (by decide +kernel) (by decide +kernel)
      (by decide +kernel)
    refine ⟨w', run, idle, ?_⟩
    rw [clock]
    decide +kernel

/-- What a start that fails leaves behind: the first timeline is on another frame than before, and
handlers of both starts have been called. -/
theorem failed_start_leaves_traces :
    prepared.stage.Reachable ∧ prepared.stage.agenda.channel = none ∧
    prepared.stage.isPlaying ⟨0⟩ = false ∧ prepared.stage.isPlaying ⟨1⟩ = false ∧
    ((start listing ⟨0⟩).run prepared).1 = .ok (.error .outsideRuntime) ∧
    (prepared.stage.clock ⟨0⟩).frame = 6 ∧
    (((start listing ⟨0⟩).run prepared).2.stage.clock ⟨0⟩).frame = 0 ∧
    ((start listing ⟨1⟩).run prepared).1 = .ok (.error .outsideRuntime) ∧
    prepared.user = [] ∧ ((start listing ⟨0⟩).run prepared).2.user = [8] ∧
    ((start listing ⟨1⟩).run prepared).2.user = [8] := by
  refine ⟨reachable_prepared, ?_⟩
  decide +kernel

end Animation
