/-
# What can happen to a stage

All that a script does to a stage it does in single moves, and between two of them the
callbacks of others may run. Here the moves are listed, each with what is known when it is
made: a clock is only replaced by one that an operation makes of it, only a behaviour
that is there is bound or gets another handle, bounds have passed their check, a core is
not given an actor twice, and a timeline forgets behaviours only when they are gone. What
every move keeps is kept by all scripts, however their callbacks interleave.
-/

import Animation.Proofs.Stage.Handles
import Animation.Scale
import Animation.Stage.Binding
import Animation.Stage.Playback
import Mathlib.Logic.Relation

namespace Animation

/-- The clocks that a single operation makes of a clock. -/
inductive Clock.Turns (c : Clock) : Clock → Prop
  | setDuration (duration : Nat) : Turns c (c.setDuration duration)
  | setFps {fps : Nat} {c' : Clock} (h : c.setFps fps = .ok c') : Turns c c'
  | setRepeats (repeats : Bool) : Turns c (c.setRepeats repeats)
  | setDirection (direction : Direction) : Turns c (c.setDirection direction)
  | advance {frame : Nat} {c' : Clock} (h : c.advance frame = .ok c') : Turns c c'
  | rewind : Turns c c.rewind
  | skip {count : Nat} {c' : Clock} (h : c.skip count = .ok c') : Turns c c'
  | step {c' : Clock} (h : c.step = .ok c') : Turns c c'

/-- If a behaviour scales, it does so between bounds that have passed their check. -/
def Drive.Checked (drive : Drive) : Prop :=
  ∀ bounds gravity, drive = .scale bounds gravity → bounds.corners.toBounds = .ok bounds

namespace Drive

theorem checked_scale {corners : Corners Fixed} {bounds : ScaleBounds}
    (h : corners.toBounds = .ok bounds) (gravity : Gravity) : (scale bounds gravity).Checked := by
  intro _ _ e
  cases e
  obtain ⟨_, _, e⟩ := Word.exists_of_bind_eq_ok h
  cases e
  exact h

theorem checked_opacity (bounds : Range UInt8) : (opacity bounds).Checked :=
  fun _ _ e => nomatch e

theorem checked_custom (callback : Callback) : (custom callback).Checked :=
  fun _ _ e => nomatch e

end Drive

namespace Stage

/-- The entries that a timeline keeps of behaviours. -/
def attachments (s : Stage) (t : Ref .timeline) : List Attachment :=
  (s.timelines.get t).attachments

/-- The stages that a single move leads to. -/
inductive Move (s : Stage) : Stage → Prop
  | note (what : Occurrence) : Move s (s.note what)
  | turn {t : Ref .timeline} {c : Clock} (h : (s.clock t).Turns c) : Move s (s.setClock t c)
  | setPlayback (t : Ref .timeline) (playback : Option (Ref .task)) :
      Move s (s.setPlayback t playback)
  | addTimeline (duration : Nat) : Move s (s.addTimeline duration).1
  | addAlpha (t : Ref .timeline) (easing : Easing) : Move s (s.addAlpha t easing).1
  | addCore : Move s s.addCore.1
  | addBehaviour {drive : Drive} (h : drive.Checked) : Move s (s.addBehaviour drive).1
  | addActor (actor : Actor) : Move s (s.addActor actor).1
  | addNotifier : Move s s.addNotifier.1
  | addEmitter : Move s s.addEmitter.1
  | retain {handle : Handle}
      (h : ∀ b, handle = .behaviour b → s.isAlive (.behaviour b)) : Move s (s.retain handle)
  | release (handle : Handle) : Move s (s.release handle)
  | ask (a : Ref .actor) (call : ActorCall) : Move s (s.modifyActor a (·.receive call))
  | setEasing (a : Ref .alpha) (easing : Easing) :
      Move s (s.modifyAlpha a fun row => { row with easing })
  | setDrive {b : Ref .behaviour} {drive : Drive}
      (h : (s.behaviours.get b).drive.Checked → drive.Checked) : Move s (s.setDrive b drive)
  | setActors {c : Ref .core} {actors : List (Ref .actor)}
      (h : (s.cores.get c).actors.Nodup → actors.Nodup) : Move s (s.setActors c actors)
  | rebind {b : Ref .behaviour} {alpha : Option (Ref .alpha)}
      (hb : s.isAlive (.behaviour b)) (ha : ∀ a, alpha = some a → s.isAlive (.alpha a)) :
      Move s (s.rebind b alpha)
  | prune {t : Ref .timeline} {ids : List Nat}
      (h : ∀ e ∈ s.attachments t, e.id ∈ ids → ¬ s.isAlive (.behaviour e.behaviour)) :
      Move s (s.detach t ids)
  | modifyNotifier (n : Ref .notifier) (f : Notifier → Notifier) :
      Move s (s.modifyNotifier n f)
  | modifyEmitter (m : Ref .emitter) (f : Emitter → Emitter) : Move s (s.modifyEmitter m f)
  | schedule (tasks : Table .task Task) (agenda : Agenda) :
      Move s { s with tasks, agenda }

/-- The stages that moves lead to, one after another. -/
abbrev Moves : Stage → Stage → Prop := Relation.ReflTransGen Move

/-- What every move keeps is kept by any number of moves. -/
theorem Moves.keeps {P : Stage → Prop} (keep : ∀ {s s'}, Move s s' → P s → P s')
    {s s' : Stage} (h : s.Moves s') (hs : P s) : P s' := by
  induction h with
  | refl => exact hs
  | tail _ last ih => exact keep last ih

theorem isAlive_retainAll {s : Stage} {handle : Handle} {handles : List Handle}
    (h : s.isAlive handle) : (s.retainAll handles).isAlive handle := by
  induction handles generalizing s with
  | nil => exact h
  | cons first rest ih =>
      apply ih
      rw [isAlive_iff] at h ⊢
      rw [holders_retain]
      omega

theorem moves_retainAll {s : Stage} {handles : List Handle}
    (h : ∀ b, .behaviour b ∈ handles → s.isAlive (.behaviour b)) :
    s.Moves (s.retainAll handles) := by
  induction handles generalizing s with
  | nil => exact .refl
  | cons handle rest ih =>
      have first : s.Move (s.retain handle) :=
        .retain fun b e => h b (e ▸ List.mem_cons_self ..)
      refine .head first (ih fun b hb => ?_)
      have alive := h b (List.mem_cons_of_mem _ hb)
      rw [isAlive_iff] at alive ⊢
      rw [holders_retain]
      omega

theorem moves_releaseAll (s : Stage) (handles : List Handle) :
    s.Moves (s.releaseAll handles) := by
  induction handles generalizing s with
  | nil => exact .refl
  | cons handle rest ih => exact .head (.release handle) (ih _)

theorem nodup_actorsOf {s : Stage} {c : Ref .core} (h : (s.cores.get c).actors.Nodup) :
    (s.actorsOf c).Nodup :=
  h.filter _

theorem move_pruneActors (s : Stage) (c : Ref .core) : s.Move (s.pruneActors c) :=
  .setActors nodup_actorsOf

theorem moves_applyActor (s : Stage) (c : Ref .core) (a : Ref .actor) :
    s.Moves (s.applyActor c a) := by
  unfold applyActor
  dsimp only
  split
  · exact .single (s.move_pruneActors c)
  · next absent =>
      refine .tail (.single (.setActors fun h => ?_)) (.note _)
      rw [List.contains_iff_mem] at absent
      simp only [List.nodup_append, List.mem_singleton]
      refine ⟨nodup_actorsOf h, by simp, ?_⟩
      rintro b hb _ rfl rfl
      exact absent hb

theorem moves_removeActor (s : Stage) (c : Ref .core) (a : Ref .actor) :
    s.Moves (s.removeActor c a) := by
  have first : s.Move (s.setActors c ((s.actorsOf c).filter (· != a))) :=
    .setActors fun h => (nodup_actorsOf h).filter _
  unfold removeActor
  dsimp only
  split
  · exact .tail (.single first) (.note _)
  · exact .single first

theorem move_clearActors (s : Stage) (c : Ref .core) : s.Move (s.clearActors c) :=
  .setActors fun _ => List.nodup_nil

end Stage

end Animation
