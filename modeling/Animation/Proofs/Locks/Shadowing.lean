/-
# What the library does under its locks

Each operation of the library, with its locks, waits for a lock that is held for somebody who is
being called back, or does what it does without its locks. There is a lemma for each of them, in the
order of the library. Operations that call nobody back are run, and the others are put together from
what has been shown before.
-/

import Animation.Proofs.Locks.Agreement
import Animation.Proofs.Locks.Library
import Animation.Proofs.Stage.Bindings
import Animation.Proofs.Timeline.Frames
import Animation.Proofs.Timeline.Turns

namespace Animation

variable {υ : Type}

namespace Locking

open Script

section Timelines

variable {s : Stage} {g : Guarded υ} {t : Ref .timeline}
  (free : ∀ l : Lock, l.isLent = false → l ∉ g.held)

include free

theorem run_clampFrame :
    (clampFrame t).run ⟨s, g⟩ =
      (.ok (), ⟨s.setClock t (s.clock t).clampFrame, g⟩) := by
  unfold clampFrame frames
  rw [run_reading_bind (free _ rfl), run_writing (free _ rfl)]
  rfl

theorem run_isComplete : (isComplete t).run ⟨s, g⟩ = (.ok (s.clock t).isComplete, ⟨s, g⟩) := by
  unfold isComplete direction frame frames
  rw [run_reading_bind (free _ rfl), run_reading_bind (free _ rfl), Clock.isComplete]
  cases (s.clock t).direction with
  | forward =>
      dsimp only
      rw [run_reading_bind (free _ rfl)]
      rfl
  | backward => rfl

theorem run_isOver : (isOver t).run ⟨s, g⟩ = (.ok (s.clock t).isOver, ⟨s, g⟩) := by
  unfold isOver
  rw [run_reading_bind (free _ rfl), Clock.isOver]
  cases (s.clock t).repeats with
  | true => rfl
  | false => exact run_isComplete free

theorem run_rewind : (rewind t).run ⟨s, g⟩ = (.ok (), ⟨s.rewind t, g⟩) := by
  unfold rewind direction standOn frames
  rw [run_reading_bind (free _ rfl), Stage.rewind, Clock.rewind]
  cases direction : (s.clock t).direction with
  | forward =>
      dsimp only
      rw [run_writing (free _ rfl), direction]
  | backward =>
      dsimp only
      rw [run_reading_bind (free _ rfl), run_writing (free _ rfl), direction]

/-- A frame is moved as the whole clock would be. -/
theorem run_moveFrame_of_ok {move : Clock → Except Violation Clock} {c : Clock}
    (moved : move (s.clock t) = .ok c) :
    (moveFrame t move).run ⟨s, g⟩ = (.ok c, ⟨s.setClock t c, g⟩) := by
  unfold moveFrame
  rw [run_reading_bind (free _ rfl)]
  refine run_locking (free _ rfl) ?_ (run_check_ok_bind moved _ _)
  nofun

theorem run_moveFrame_of_error {move : Clock → Except Violation Clock} {cause : Violation}
    (refused : move (s.clock t) = .error cause) :
    (moveFrame t move).run ⟨s, g⟩ = (.error (.violation cause), ⟨s, g⟩) := by
  unfold moveFrame
  rw [run_reading_bind (free _ rfl)]
  refine run_locking (free _ rfl) ?_ (run_check_error_bind refused _ _)
  nofun

theorem run_alphaValue (curves : Curves) (a : Ref .alpha) :
    (alphaValue curves a).run ⟨s, g⟩ = (.ok (s.alphaValue curves a), ⟨s, g⟩) := by
  unfold alphaValue frame frames
  rw [run_stage_bind]
  dsimp only
  rw [run_reading_bind (free _ rfl), run_reading_bind (free _ rfl), run_reading_bind (free _ rfl)]
  rfl

end Timelines

section Bindings

variable {s : Stage} {g : Guarded υ} (free : ∀ t, .attachments t ∉ g.held)

include free

theorem run_unbind (c : Ref .core) :
    (unbind c).run ⟨s, g⟩ = (.ok (), ⟨s.unbind c, g⟩) := by
  unfold unbind Stage.unbind detach
  rw [run_stage_bind]
  cases (s.cores.get c).binding with
  | none => rfl
  | some binding =>
      dsimp only
      rw [run_writing_bind (free _)]
      rfl

theorem run_rebind (b : Ref .behaviour) (alpha : Option (Ref .alpha)) :
    (rebind b alpha).run ⟨s, g⟩ = (.ok (), ⟨s.rebind b alpha, g⟩) := by
  unfold rebind Stage.rebind attach
  rw [run_stage_bind]
  cases alpha with
  | none => exact run_unbind free _
  | some a =>
      dsimp only
      rw [run_change_bind, run_bind_of_ok (run_unbind free _), run_stage_bind]
      dsimp only
      rw [run_accessing_bind (free _)]
      rfl

end Bindings

/-- A new binding is in place when its lock is given back. -/
theorem run_exchange {s : Stage} {g : Guarded υ}
    (free : ∀ l : Lock, l.isLent = false → l ∉ g.held) (b : Ref .behaviour)
    (alpha : Option (Ref .alpha)) :
    (exchange b alpha).run ⟨s, g⟩ =
      if s.boundAlpha? (s.coreOf b) = alpha then (.ok false, ⟨s, g⟩)
      else (.ok true, ⟨s.rebind b alpha, g⟩) := by
  unfold exchange
  rw [run_stage_bind]
  split
  · next same =>
      refine run_locking (free _ rfl) ?_ ?_
      · nofun
      · show (if s.boundAlpha? (s.coreOf b) = alpha then _ else _ : Script _ Bool).run _ = _
        rw [if_pos same]
        rfl
  · next other =>
      refine run_locking (free _ rfl) ?_ ?_
      · nofun
      · have still (t : Ref .timeline) : .attachments t ∉ (g.take (.binding (s.coreOf b))).held :=
          List.not_mem_cons_of_ne_of_not_mem nofun (free _ rfl)
        show (if s.boundAlpha? (s.coreOf b) = alpha then _ else _ : Script _ Bool).run _ = _
        rw [if_neg other]
        exact run_bind_of_ok (run_rebind still b alpha) _

end Locking

/-! ## Operations that call back -/

/-- Callbacks under locks, and what they do without. -/
structure Host.Shadows (host' : Host (Guarded υ)) (host : Host υ) : Prop where
  curves : host'.curves = host.curves
  notified : ∀ callback change,
    Animation.Shadows [] (host'.notified callback change) (host.notified callback change)
  called : ∀ callback payload,
    Animation.Shadows [] (host'.called callback payload) (host.called callback payload)
  driven : ∀ callback alpha,
    Animation.Shadows [] (host'.driven callback alpha) (host.driven callback alpha)
  reacts : ∀ a call, Animation.Shadows [] (host'.reacts a call) (host.reacts a call)

/-- Whoever holds nothing finds all locks free that are never held for a callee. -/
theorem World.IsSound.free_of_idle {s : Stage} {g : Guarded υ} {lent : List Lock}
    (sound : World.IsSound [] lent ⟨s, g⟩) (l : Lock) (kept : l.isLent = false) : l ∉ g.held :=
  sound.free List.not_mem_nil kept

namespace Shadows

open Script

section Timelines

variable (t : Ref .timeline)

theorem setDuration (duration : Nat) :
    Shadows [] (Locking.setDuration t duration : Script (Guarded υ) _)
      (Script.setDuration t duration) := by
  rintro lent ⟨s, g⟩ sound
  have free := sound.free_of_idle
  unfold Locking.setDuration Locking.changeSettings
  rw [run_writing_bind (free _ rfl), Locking.run_clampFrame free, Stage.clock_setClock,
    Stage.setClock_setClock]
  exact .changed sound (s.holdsAlike_setClock t _) ()

theorem setFps (fps : Nat) :
    Shadows [] (Locking.setFps t fps : Script (Guarded υ) _) (Script.setFps t fps) := by
  rintro lent ⟨s, g⟩ sound
  have free := sound.free_of_idle
  unfold Locking.setFps Locking.changeSettings Script.setFps tryClock Clock.setFps
  rw [run_stage_bind]
  split
  · exact .ok sound _
  · rw [run_writing_bind (free _ rfl), run_bind_of_ok (Locking.run_clampFrame free),
      Stage.clock_setClock, Stage.setClock_setClock]
    exact .changed sound (s.holdsAlike_setClock t _) _

theorem setRepeats (repeats : Bool) :
    Shadows [] (Locking.setRepeats t repeats : Script (Guarded υ) _)
      (Script.setRepeats t repeats) :=
  writing List.not_mem_nil rfl fun s => s.holdsAlike_setClock t _

theorem setDirection (direction : Direction) :
    Shadows [] (Locking.setDirection t direction : Script (Guarded υ) _)
      (Script.setDirection t direction) := by
  rintro lent ⟨s, g⟩ sound
  have free := sound.free_of_idle
  unfold Locking.setDirection Locking.changeSettings Locking.frame Locking.frames Locking.standOn
  rw [run_writing_bind (free _ rfl)]
  show Agrees _ _ (.ok (), ⟨s.setClock t ((s.clock t).setDirection direction), g.own⟩)
  rw [Clock.setDirection]
  by_cases backward : direction = .backward
  · rw [if_pos backward, run_reading_bind (free _ rfl), Stage.clock_setClock]
    by_cases first : (s.clock t).frame = 0
    · rw [if_pos first, if_pos ⟨backward, first⟩, run_reading_bind (free _ rfl),
        run_writing (free _ rfl), Stage.clock_setClock, Stage.setClock_setClock]
      exact .changed sound (s.holdsAlike_setClock t _) ()
    · rw [if_neg first, if_neg fun h => first h.2]
      exact .changed sound (s.holdsAlike_setClock t _) ()
  · rw [if_neg backward, if_neg fun h => backward h.1]
    exact .changed sound (s.holdsAlike_setClock t _) ()

theorem advance (number : Nat) :
    Shadows [] (Locking.advance t number : Script (Guarded υ) _) (Script.advance t number) := by
  rintro lent ⟨s, g⟩ sound
  have free := sound.free_of_idle
  unfold Locking.advance Locking.frames Locking.standOn Script.advance tryClock Clock.advance
  rw [run_reading_bind (free _ rfl), run_stage_bind]
  dsimp only [World.bare]
  split
  · exact .ok sound _
  · rw [run_writing_bind (free _ rfl)]
    exact .changed sound (s.holdsAlike_setClock t _) _

theorem skip (count : Nat) :
    Shadows [] (Locking.skip t count : Script (Guarded υ) _) (Script.skip t count) := by
  rintro lent ⟨s, g⟩ sound
  have free := sound.free_of_idle
  unfold Locking.skip Script.skip
  rw [World.bare_mk, run_stage_bind]
  cases moved : (s.clock t).skip count with
  | ok c =>
      rw [run_bind_of_ok (Locking.run_moveFrame_of_ok free moved), run_check_ok_bind rfl]
      exact .changed sound (s.holdsAlike_setClock t c) ()
  | error cause =>
      rw [run_bind, Locking.run_moveFrame_of_error free moved, run_check_error_bind rfl]
      exact .same nofun sound

theorem rewind :
    Shadows [] (Locking.rewind t : Script (Guarded υ) _) (Script.rewind t) := by
  rintro lent ⟨s, g⟩ sound
  rw [Locking.run_rewind sound.free_of_idle]
  exact .changed sound (s.holdsAlike_setClock t _) ()

end Timelines

theorem forEachActor {visit' : Ref .actor → Script (Guarded υ) Unit}
    {visit : Ref .actor → Script υ Unit} (h : ∀ a, Shadows [] (visit' a) (visit a))
    (c : Ref .core) :
    Shadows [] (Locking.forEachActor c visit') (Script.forEachActor c visit) := by
  rintro lent ⟨s, g⟩ sound
  unfold Locking.forEachActor
  rw [run_accessing_bind (sound.free_of_idle _ rfl)]
  have gathered : World.IsSound [] lent
      ⟨(s.pruneActors c).retainAll ((s.actorsOf c).map .actor), g⟩ :=
    sound.of_holdsAlike (Stage.holdsAlike_retainAll (s.pruneActors c) _)
  exact escort h (s.actorsOf c) lent _ gathered

theorem conclude (how : Ending) (k : Ref .task) :
    Shadows [] (conclude how k : Script (Guarded υ) _) (conclude how k) :=
  change fun s => s.holdsAlike_endTask how k

theorem rest (k : Ref .task) (wake : Nat) :
    Shadows [] (rest k wake : Script (Guarded υ) _) (rest k wake) := by
  refine stage_bind fun s => ?_
  split
  · exact change fun s => s.holdsAlike_endTask .aborted k
  · exact change fun _ _ => rfl

section Callbacks

variable {host' : Host (Guarded υ)} {host : Host υ} (hh : host'.Shadows host)

include hh

theorem notify (n : Ref .notifier) (change : Change) :
    Shadows [] (Locking.notify host' n change) (Script.notify host n change) := by
  rintro lent ⟨s, g⟩ sound
  unfold Locking.notify
  rw [run_reading_bind (sound.free_of_idle _ rfl)]
  exact bind (note _) (fun _ => forEach (fun callback =>
    entering .listener (hh.notified callback change)) _) lent _ sound

theorem flush (n : Ref .notifier) (batch : Batch) :
    Shadows [] (Locking.flush host' n batch) (Script.flush host n batch) :=
  forEach (notify hh n) _

omit hh in
/-- Whoever waits for an emitter takes its lock. -/
theorem locking_await {m : Ref .emitter} {α : Type} {x' : Script (Guarded υ) α}
    {f : Emitter → Script υ α}
    (h : ∀ {lent : List Lock} {s : Stage} {g : Guarded υ}, World.IsSound [] lent ⟨s, g⟩ →
      .handlers m ∉ g.held → Agrees (World.IsSound [] lent)
        ((Script.locking (.handlers m) x').run ⟨s, g⟩)
        ((f (s.emitters.get m)).run ⟨s, g.own⟩)) :
    Shadows [] (Script.locking (.handlers m) x') (await m >>= f) := by
  rintro lent ⟨s, g⟩ sound
  by_cases held : Lock.handlers m ∈ g.held
  · exact .locked sound List.not_mem_nil held _ _
  · have isFree : (s.emitters.get m).isHeld = false := sound.isHeld_of_free held
    rw [World.bare_mk, run_bind_of_ok (run_await_of_free isFree)]
    exact h sound held

omit hh in
theorem registerHandler (m : Ref .emitter) (event : String) (accepts : PayloadKind)
    (callback : Callback) :
    Shadows [] (Locking.registerHandler m event accepts callback : Script (Guarded υ) _)
      (Script.registerHandler m event accepts callback) := by
  refine locking_await fun {lent s g} sound free => ?_
  rw [← Script.accessing, run_accessing free]
  exact .changed sound (s.holdsAlike_modifyEmitter m
    (f := (·.register event accepts callback)) fun _ => rfl) _

omit hh in
theorem unregisterHandler (m : Ref .emitter) (id : Nat) :
    Shadows [] (Locking.unregisterHandler m id : Script (Guarded υ) _)
      (Script.unregisterHandler m id) := by
  refine locking_await fun {lent s g} sound free => ?_
  rw [← Script.accessing, run_accessing free]
  exact .changed sound (s.holdsAlike_modifyEmitter m (f := (·.unregister id)) fun _ => rfl) ()

theorem respond (m : Ref .emitter) (event : String) (payload : Payload) (h : Handler) :
    Shadows [.handlers m] (Locking.respond host' m event payload h)
      (Script.respond host m event payload h) := by
  unfold Locking.respond Script.respond
  split
  · exact bind (entering (.handler m) (hh.called _ _)) fun _ => pure _
  · exact bind (note _) fun _ => pure _

theorem offer (m : Ref .emitter) (event : String) (payload : Payload) (h : Handler) :
    Shadows [.handlers m] (Locking.offer host' m event payload h)
      (Script.offer host m event payload h) := by
  refine bind (respond hh m event payload h) fun job => ?_
  refine bind (produce fun s => s.holdsAlike_spawn job) fun k => ?_
  cases k with
  | some _ => exact pure ()
  | none => exact note _

theorem emit (m : Ref .emitter) (event : String) (payload : Payload) :
    Shadows [] (Locking.emit host' m event payload) (Script.emit host m event payload) := by
  refine locking_await fun {lent s g} sound held => ?_
  rw [run_locking_of_free held, run_note_bind]
  let leaves (v : World (Guarded υ)) : Prop :=
    World.IsSound [] lent { v with user := v.user.free (.handlers m) }
  refine .between (P := leaves) ?_ (fun _ => rfl) fun _ => id
  rw [run_stage_bind]
  dsimp only
  rw [run_note_bind]
  cases (s.emitters.get m).handling event with
  | nil =>
      refine .ok ?_ ()
      show World.IsSound [] lent ⟨_, (g.take (.handlers m)).free (.handlers m)⟩
      rw [Guarded.free_take]
      exact sound.of_holdsAlike fun _ => rfl
  | cons h rest =>
      have kept : World.IsSound [] lent
          ⟨(s.note (.emitted m event payload)).retainAll payload.handles, g⟩ :=
        sound.of_holdsAlike (Stage.holdsAlike_retainAll _ _)
      have offers := forEach (fun h => offer hh m event payload h) (h :: rest) lent _ (kept.hold m)
      have free : Lock.handlers m ∉ [] ++ lent := sound.held ▸ held
      have letGo := offers.thenTidy (Q := leaves) (hold false m) fun v left => left.letGo free
      exact letGo.thenTidy (·.releaseAll payload.handles) fun v left =>
        World.IsSound.of_holdsAlike left (v.stage.holdsAlike_releaseAll _)

theorem bindTo (b : Ref .behaviour) (alpha : Option (Ref .alpha)) :
    Shadows [] (Locking.bindTo host' b alpha) (Script.bindTo host b alpha) := by
  rintro lent ⟨s, g⟩ sound
  have free := sound.free_of_idle
  have exchanged := Locking.run_exchange (s := s) free b alpha
  by_cases same : s.boundAlpha? (s.coreOf b) = alpha
  · rw [if_pos same] at exchanged
    rw [run_bindTo_same host _ same]
    unfold Locking.bindTo
    rw [run_stage_bind]
    dsimp only
    rw [run_bind_of_ok exchanged]
    exact .ok sound ()
  · rw [if_neg same] at exchanged
    rw [Stage.coreOf] at same
    unfold Locking.bindTo Script.bindTo
    rw [World.bare_mk, run_stage_bind, run_stage_bind]
    dsimp only
    rw [run_bind_of_ok exchanged, if_neg same, run_change_bind, if_pos rfl,
      run_reading_bind (free _ rfl), ← Stage.coreOf, Stage.boundAlpha?_rebind]
    exact bind (note _) (fun _ => notify hh _ _) lent _
      (sound.of_holdsAlike (s.holdsAlike_rebind b alpha))

/-- A new behaviour is bound to nothing. -/
theorem make (drive : Drive) (alpha : Option (Ref .alpha)) :
    Shadows [] (Locking.make host' drive alpha) (do
      let b ← Script.produce (·.addBehaviour drive)
      Script.bindTo host b alpha
      return b) := by
  cases alpha with
  | some a =>
      exact bind (produce fun _ _ => rfl) fun b => bind (bindTo hh b (some a)) fun _ => pure b
  | none =>
      rintro lent ⟨s, g⟩ sound
      have unbound : (s.addBehaviour drive).1.boundAlpha?
          ((s.addBehaviour drive).1.coreOf (s.addBehaviour drive).2) = none := by
        simp [Stage.boundAlpha?, Stage.coreOf, Stage.addBehaviour, Stage.addCore]
      unfold Locking.make
      rw [World.bare_mk, run_produce_bind, run_produce_bind,
        run_bind_of_ok (run_bindTo_same host _ unbound)]
      have added : World.IsSound [] lent ⟨(s.addBehaviour drive).1, g⟩ :=
        sound.of_holdsAlike fun _ => rfl
      exact .ok added _

theorem makeScale (corners : Corners Fixed) (gravity : Gravity) (alpha : Option (Ref .alpha)) :
    Shadows [] (Locking.makeScale host' corners gravity alpha)
      (Script.makeScale host corners gravity alpha) :=
  bind (check _) fun _ => make hh _ alpha

theorem setScaleBounds (b : Ref .behaviour) (corners : Corners Fixed) :
    Shadows [] (Locking.setScaleBounds host' b corners)
      (Script.setScaleBounds host b corners) := by
  refine bind (check _) fun bounds => ?_
  rintro lent ⟨s, g⟩ sound
  unfold Locking.replaceScale
  rw [World.bare_mk, run_stage_bind, run_stage_bind,
    run_accessing_bind (sound.free_of_idle _ rfl)]
  dsimp only
  cases (s.behaviours.get b).drive with
  | scale old gravity =>
      exact flush hh (notifierOf b s) _ lent _ (sound.of_holdsAlike fun _ => rfl)
  | opacity _ | custom _ => exact .ok sound ()

theorem setOpacityBounds (b : Ref .behaviour) (bounds : Range UInt8) :
    Shadows [] (Locking.setOpacityBounds host' b bounds)
      (Script.setOpacityBounds host b bounds) := by
  rintro lent ⟨s, g⟩ sound
  unfold Locking.setOpacityBounds Locking.replaceOpacity Script.setOpacityBounds
  rw [World.bare_mk, run_stage_bind, run_stage_bind]
  dsimp only
  rw [run_accessing_bind (sound.free_of_idle _ rfl)]
  cases (s.behaviours.get b).drive with
  | opacity old => exact flush hh (notifierOf b s) _ lent _ (sound.of_holdsAlike fun _ => rfl)
  | scale _ _ | custom _ => exact .ok sound ()

theorem setGravity (b : Ref .behaviour) (gravity : Gravity) :
    Shadows [] (Locking.setGravity host' b gravity) (Script.setGravity host b gravity) := by
  rintro lent ⟨s, g⟩ sound
  unfold Locking.setGravity Locking.replaceGravity Script.setGravity
  rw [World.bare_mk, run_stage_bind, run_stage_bind]
  dsimp only
  rw [run_accessing_bind (sound.free_of_idle _ rfl)]
  cases (s.behaviours.get b).drive with
  | scale bounds old =>
      dsimp only
      by_cases same : old = gravity
      · simp only [if_pos same]
        exact .ok sound ()
      · simp only [if_neg same]
        exact notify hh (notifierOf b s) _ lent _ (sound.of_holdsAlike fun _ => rfl)
  | opacity _ | custom _ => exact .ok sound ()

theorem ask (a : Ref .actor) (call : ActorCall) :
    Shadows [.actor a] (Locking.ask host' a call) (Script.ask host a call) :=
  bind (change fun _ _ => rfl) fun _ => entering (.actor a) (hh.reacts a call)

theorem askScale (a : Ref .actor) (gravity : Gravity) (x y : Double) :
    Shadows [.actor a] (Locking.askScale host' a gravity x y)
      (Script.askScale host a gravity x y) := by
  unfold Locking.askScale Script.askScale
  split
  · exact bind (ask hh a _) fun _ => ask hh a _
  · exact ask hh a _

theorem drive (b : Ref .behaviour) (alpha : Nat) :
    Shadows [] (Locking.drive host' b alpha) (Script.drive host b alpha) := by
  refine stage_bind fun s => ?_
  dsimp only
  cases (s.behaviours.get b).drive with
  | scale bounds gravity =>
      refine bind (locking List.not_mem_nil (Lock.ne_handlers rfl) (check _)) fun (x, y) => ?_
      rintro lent ⟨s, g⟩ sound
      rw [run_reading_bind (sound.free_of_idle _ rfl)]
      exact forEachActor (fun a =>
        locking_actor (askScale hh a gravity x.toDouble y.toDouble)) _ lent _ sound
  | opacity bounds =>
      rintro lent ⟨s, g⟩ sound
      rw [run_reading_bind (sound.free_of_idle _ rfl)]
      exact bind (check _) (fun value => forEachActor (fun a =>
        locking_actor (ask hh a (.setOpacity value))) _) lent _ sound
  | custom callback => exact entering .behaviour (hh.driven callback alpha)

theorem tick (b : Ref .behaviour) :
    Shadows [] (Locking.tick host' b) (Script.tick host b) := by
  rintro lent ⟨s, g⟩ sound
  unfold Locking.tick Script.tick
  rw [World.bare_mk, run_stage_bind, run_stage_bind]
  dsimp only
  rw [run_reading_bind (sound.free_of_idle _ rfl)]
  cases s.boundAlpha? (s.behaviours.get b).core with
  | none => exact .ok sound ()
  | some a =>
      -- The handle that is taken meanwhile does not change what the alpha yields.
      have held := sound.of_holdsAlike (s.holdsAlike_retainAll [.alpha a])
      have value := Locking.run_alphaValue (s := s.retainAll [.alpha a]) held.free_of_idle
        host'.curves a
      rw [(s.rehandled_retainAll [.alpha a]).alphaValue, hh.curves] at value
      unfold Script.holding
      rw [run_change_bind, run_change_bind]
      refine .thenTidy (P := World.IsSound [] lent) ?_ _ fun v left =>
        left.of_holdsAlike (v.stage.holdsAlike_releaseAll _)
      rw [hh.curves, run_bind_of_ok value]
      exact bind (note _) (fun _ => drive hh b _) lent _ held

section Frames

variable (t : Ref .timeline)

theorem announce (event : TimelineEvent) (payload : Payload) :
    Shadows [] (Locking.announce host' t event payload) (Script.announce host t event payload) :=
  stage_bind fun _ => emit hh _ _ payload

theorem tickEach (entries : List Attachment) :
    Shadows [] (Locking.tickEach host' entries) (Script.tickEach host entries) := by
  induction entries with
  | nil => exact pure []
  | cons e rest ih =>
      refine stage_bind fun s => ?_
      split
      · exact bind (holding _ (tick hh e.behaviour)) fun _ => ih
      · exact bind ih fun _ => pure _

theorem tickAttached : Shadows [] (Locking.tickAttached host' t) (Script.tickAttached host t) := by
  rintro lent ⟨s, g⟩ sound
  unfold Locking.tickAttached
  rw [run_reading_bind (sound.free_of_idle _ rfl)]
  refine bind (tickEach hh _) (fun gone => ?_) lent _ sound
  cases gone with
  | nil => exact pure ()
  | cons id ids =>
      exact bind (note _) fun _ => writing List.not_mem_nil rfl fun _ _ => rfl

theorem concludeFrame (played : Clock) :
    Shadows [] (Locking.concludeFrame host' t played) (Script.concludeFrame host t played) := by
  refine bind (announce hh t .newFrame _) fun _ => ?_
  split
  · refine bind (announce hh t .completed _) fun _ => ?_
    split
    · exact bind (rewind t) fun _ => pure true
    · exact pure false
  · exact pure true

theorem nextFrame : Shadows [] (Locking.nextFrame host' t) (Script.nextFrame host t) := by
  rintro lent ⟨s, g⟩ sound
  have free := sound.free_of_idle
  unfold Locking.nextFrame Script.nextFrame
  rw [World.bare_mk, run_stage_bind, run_bind_of_ok (Locking.run_isOver free)]
  dsimp only
  split
  · exact .ok sound false
  · cases played : (s.clock t).step with
    | ok c =>
        rw [run_bind_of_ok (Locking.run_moveFrame_of_ok free played), run_check_ok_bind rfl,
          run_change_bind]
        exact bind (note _) (fun _ => bind (tickAttached hh t) fun _ => concludeFrame hh t c)
          lent _ (sound.of_holdsAlike (s.holdsAlike_setClock t c))
    | error cause =>
        rw [run_bind, Locking.run_moveFrame_of_error free played, run_check_error_bind rfl]
        exact .same nofun sound

theorem launch : Shadows [] (Locking.launch host' t) (Script.launch host t) := by
  rintro lent ⟨s, g⟩ sound
  have free := sound.free_of_idle
  unfold Locking.launch Locking.frames
  rw [run_reading_bind (free _ rfl), run_reading_bind (free _ rfl)]
  refine bind (note _) (fun _ => bind (announce hh t .started _) fun _ =>
    bind (produce fun s => s.holdsAlike_spawn _) fun k => ?_) lent _ sound
  cases k with
  | none => exact pure _
  | some k => exact bind (writing List.not_mem_nil rfl fun _ _ => rfl) fun _ => pure _

theorem start : Shadows [] (Locking.start host' t) (Script.start host t) := by
  rintro lent ⟨s, g⟩ sound
  have free := sound.free_of_idle
  unfold Locking.start Locking.isPlaying Script.start
  rw [run_reading_bind (free _ rfl), World.bare_mk, run_stage_bind]
  split
  · exact .ok sound _
  · rw [run_bind_of_ok (Locking.run_isComplete free), run_stage_bind]
    split
    · exact bind (rewind t) (fun _ => launch hh t) lent _ sound
    · exact launch hh t lent _ sound

theorem pause : Shadows [] (Locking.pause host' t) (Script.pause host t) := by
  rintro lent ⟨s, g⟩ sound
  have free := sound.free_of_idle
  unfold Locking.pause Locking.isPlaying Locking.frame Script.pause
  rw [run_reading_bind (free _ rfl), run_writing_bind (free _ rfl), World.bare_mk,
    run_stage_bind, run_change_bind]
  have left := sound.of_holdsAlike (s.holdsAlike_cancelPlayback t)
  split
  · rw [run_reading_bind (free _ rfl), run_stage_bind]
    exact bind (note _) (fun _ => announce hh t .paused _) lent _ left
  · exact .ok left ()

theorem stop : Shadows [] (Locking.stop host' t) (Script.stop host t) :=
  bind (pause hh t) fun _ => rewind t

end Frames

section Turns

variable (resume : ∀ code, Shadows [] (host'.resume code) (host.resume code))

include resume

theorem work (k : Ref .task) (row : Task) :
    Shadows [] (Locking.work host' k row) (Script.work host k row) := by
  obtain ⟨job, phase, isAborted⟩ := row
  unfold Locking.work Script.work
  cases job with
  | idle =>
      cases phase with
      | ended how => exact pure ()
      | ready | sleeping _ => exact conclude _ k
  | playback t period =>
      cases phase with
      | ended how => exact pure ()
      | ready => exact stage_bind fun _ => rest k _
      | sleeping wake =>
          refine bind (attempt (nextFrame hh t)) fun outcome => ?_
          split
          · exact rest k _
          · exact conclude _ k
          · exact conclude _ k
  | routine code kept =>
      cases phase with
      | ended how => exact pure ()
      | ready | sleeping _ =>
          refine bind (attempt (entering .routine (resume code))) fun outcome => ?_
          split
          · exact stage_bind fun _ => rest k _
          · exact conclude _ k
          · exact conclude _ k

theorem takeTurn (k : Ref .task) :
    Shadows [] (Locking.takeTurn host' k) (Script.takeTurn host k) := by
  refine stage_bind fun s => ?_
  dsimp only
  split
  · split
    · exact conclude _ k
    · exact work hh resume k _
  · exact pure ()

end Turns

end Callbacks

end Shadows

end Animation
