/-
# Backward is the mirror image of forward

The frames of a timeline, read from its last one to its first, are those of a timeline that
runs the other way. A timeline that runs forward and one that runs backward, with the same
settings and on mirrored frames, have the same to tell: whatever is done with both, as long
as frames are given to one of them mirrored, their answers are the same, the frames that they
announce are mirrored, and they come to the end of their runs at the same time.
-/

import Animation.Proofs.Playback.Heeding
import Animation.Proofs.Script.Pact
import Animation.Proofs.Timeline.Frames
import Animation.Proofs.Timeline.Run
import Animation.Proofs.Timeline.Turns
import Animation.Stage.Setting

namespace Animation

/-- What can be done with a timeline that moves it along its frames. -/
inductive Operation where
  | nextFrame
  | skip (count : Nat)
  | rewind
  | setRepeats (repeats : Bool)
  | stop
  | advance (frame : Nat)
  deriving DecidableEq

/-- What comes of an operation: its answer, the news, and where the timeline is then. -/
structure Outcome where
  answer : Bool
  news : List Bulletin
  frame : Nat
  isComplete : Bool
  deriving DecidableEq

def Bulletin.mirror (n : Nat) : Bulletin → Bulletin
  | frame number => frame (n - number)
  | completed => completed

def Operation.mirror (n : Nat) : Operation → Operation
  | advance frame => advance (n - frame)
  | operation => operation

def Outcome.mirror (n : Nat) (x : Outcome) : Outcome :=
  { x with news := x.news.map (·.mirror n), frame := n - x.frame }

/-- The numbers that can be given to an operation: a count is a word, and a frame is one of the
timeline. -/
def Operation.Fits (n : Nat) : Operation → Prop
  | skip count => count ≤ Word.max32
  | advance frame => frame ≤ n
  | _ => True

instance (n : Nat) : DecidablePred (Operation.Fits n)
  | .skip count => inferInstanceAs (Decidable (count ≤ Word.max32))
  | .advance frame => inferInstanceAs (Decidable (frame ≤ n))
  | .nextFrame | .rewind | .setRepeats _ | .stop => inferInstanceAs (Decidable True)

namespace Clock

/-- An operation takes a clock to another one, with an answer and with news. -/
inductive Performs (c : Clock) : Operation → Clock → Bool → List Bulletin → Prop
  | ended (h : c.isOver = true) : Performs c .nextFrame c false []
  | frame {played : Clock} (h : c.isOver = false) (step : c.step = .ok played)
      (incomplete : played.isComplete = false) :
      Performs c .nextFrame played true [.frame played.frame]
  | last {played : Clock} (h : c.isOver = false) (step : c.step = .ok played)
      (complete : played.isComplete = true) :
      Performs c .nextFrame (if played.repeats then played.rewind else played) played.repeats
        [.frame played.frame, .completed]
  | skip {count : Nat} {c' : Clock} (h : c.skip count = .ok c') :
      Performs c (.skip count) c' true []
  | rewind : Performs c .rewind c.rewind true []
  | setRepeats (repeats : Bool) : Performs c (.setRepeats repeats) (c.setRepeats repeats) true []
  | stop : Performs c .stop c.rewind true []
  | advance {frame : Nat} {c' : Clock} (h : c.advance frame = .ok c') :
      Performs c (.advance frame) c' true []

/-- A clock that runs the other way, with the same settings and on the mirrored frame. -/
def mirrored (c : Clock) : Clock := { c with direction := .backward, frame := c.frames - c.frame }

/-- The sum of a frame and a count, taken around the frames, is mirrored by the difference. -/
theorem mirror_mod {n f k : Nat} (le : f ≤ n) :
    (n - f + (n + 1) - k % (n + 1)) % (n + 1) = n - (f + k) % (n + 1) := by
  have lt : k % (n + 1) < n + 1 := Nat.mod_lt _ (Nat.succ_pos _)
  rw [← Nat.add_mod_mod f k]
  generalize k % (n + 1) = r at *
  by_cases within : f + r ≤ n
  · have round : n - f + (n + 1) - r = n - (f + r) + (n + 1) := by omega
    rw [Nat.mod_eq_of_lt (Nat.lt_succ_of_le within), round, Nat.add_mod_right]
    exact Nat.mod_eq_of_lt (by omega)
  · have beyond : (f + r) % (n + 1) = f + r - (n + 1) := by
      rw [Nat.mod_eq_sub_mod (by omega), Nat.mod_eq_of_lt (by omega)]
    rw [beyond, Nat.mod_eq_of_lt (by omega)]
    omega

/-- A clock runs forward, has `n` frames, which are fewer than can be counted, and stands on one of
them. -/
structure Mirrors (n : Nat) (c : Clock) : Prop where
  forward : c.direction = .forward
  frames : c.frames = n
  frame_le : c.frame ≤ n
  few : n < Word.max32

theorem repeats_mirrored (c : Clock) : c.mirrored.repeats = c.repeats := rfl

namespace Mirrors

variable {n : Nat} {c : Clock} (h : c.Mirrors n)

include h

theorem frame_mirrored : c.mirrored.frame = n - c.frame := congrArg (· - c.frame) h.frames

theorem atFrame {frame : Nat} (le : frame ≤ n) : Mirrors n { c with frame } :=
  ⟨h.forward, h.frames, le, h.few⟩

theorem mirrored_atFrame (frame : Nat) :
    mirrored { c with frame } = { c.mirrored with frame := n - frame } := by
  rw [← h.frames]
  rfl

theorem isComplete_mirrored : c.mirrored.isComplete = c.isComplete := by
  have le := h.frame_le
  have frames := h.frames
  rw [Bool.eq_iff_iff]
  simp only [isComplete, mirrored, h.forward, beq_iff_eq, decide_eq_true_iff]
  omega

theorem isOver_mirrored : c.mirrored.isOver = c.isOver := by
  rw [isOver, isOver, h.isComplete_mirrored, repeats_mirrored]

theorem rewind : c.rewind.Mirrors n ∧ c.mirrored.rewind = c.rewind.mirrored := by
  have start : c.rewind = { c with frame := 0 } := by simp only [Clock.rewind, h.forward]
  rw [start]
  exact ⟨h.atFrame (Nat.zero_le _), rfl⟩

theorem step : ∃ played, c.step = .ok played ∧ played.Mirrors n ∧
    c.mirrored.step = .ok played.mirrored := by
  have few := h.few
  have le := h.frame_le
  have next : Word.add32 c.frame 1 = .ok (c.frame + 1) := if_pos (by omega)
  refine ⟨{ c with frame := min (c.frame + 1) n }, ?_, h.atFrame (Nat.min_le_right ..), ?_⟩
  · simp only [Clock.step, h.forward, next, h.frames]
    rfl
  · have earlier : c.mirrored.frame - 1 = n - min (c.frame + 1) n := by
      rw [h.frame_mirrored]
      omega
    refine .trans ?_ (congrArg Except.ok (h.mirrored_atFrame _).symm)
    show Except.ok { c.mirrored with frame := c.mirrored.frame - 1 } = _
    rw [earlier]

/-- A clock is moved on to the mirrored frame, around the frames or not. -/
theorem frameAfter {count : Nat} (fits : count ≤ Word.max32) :
    ∃ frame, c.frameAfter count = .ok frame ∧ frame ≤ n ∧
      c.mirrored.frameAfter count = .ok (n - frame) := by
  have few := h.few
  have le := h.frame_le
  have words : Word.max32 + Word.max32 ≤ Word.max64 := by decide
  have target : Word.add64 c.frame count = .ok (c.frame + count) := if_pos (by omega)
  have span : Word.add64 n 1 = .ok (n + 1) := if_pos (by omega)
  have backward : c.mirrored.direction = .backward := rfl
  have frames : c.mirrored.frames = n := h.frames
  unfold Clock.frameAfter
  rw [backward, repeats_mirrored, frames, h.frame_mirrored, h.forward, h.frames]
  cases c.repeats with
  | false =>
      refine ⟨min (c.frame + count) n, ?_, Nat.min_le_right .., ?_⟩
      · simp only [target, bind, Except.bind, pure, Except.pure]
      · simp only [pure, Except.pure]
        congr 1
        omega
  | true =>
      have lt : count % (n + 1) < n + 1 := Nat.mod_lt _ (Nat.succ_pos _)
      have raised : Word.add64 (n - c.frame) (n + 1) = .ok (n - c.frame + (n + 1)) :=
        if_pos (by omega)
      have lowered : Word.sub (n - c.frame + (n + 1)) (count % (n + 1)) =
          .ok (n - c.frame + (n + 1) - count % (n + 1)) := if_pos (by omega)
      refine ⟨(c.frame + count) % (n + 1), ?_,
        Nat.le_of_lt_succ (Nat.mod_lt _ (Nat.succ_pos _)), ?_⟩
      · simp only [target, span, bind, Except.bind, pure, Except.pure]
      · simp only [span, raised, lowered, bind, Except.bind, pure, Except.pure, mirror_mod le]

theorem skip {count : Nat} (fits : count ≤ Word.max32) : ∃ c', c.skip count = .ok c' ∧
    c'.Mirrors n ∧ c.mirrored.skip count = .ok c'.mirrored := by
  obtain ⟨frame, forth, le, back⟩ := h.frameAfter fits
  have few := h.few
  refine ⟨{ c with frame }, ?_, h.atFrame le, ?_⟩
  · rw [Clock.skip, forth]
    show Except.ok { c with frame := Word.narrow32 frame } = _
    rw [Word.narrow32_of_le (by omega)]
  · refine .trans ?_ (congrArg Except.ok (h.mirrored_atFrame _).symm)
    rw [Clock.skip, back]
    show Except.ok { c.mirrored with frame := Word.narrow32 (n - frame) } = _
    rw [Word.narrow32_of_le (by omega)]

theorem advance {frame : Nat} (le : frame ≤ n) : ∃ c', c.advance frame = .ok c' ∧
    c'.Mirrors n ∧ c.mirrored.advance (n - frame) = .ok c'.mirrored := by
  have frames := h.frames
  have frames' : c.mirrored.frames = n := h.frames
  refine ⟨{ c with frame }, if_neg (by omega), h.atFrame le, ?_⟩
  exact .trans (if_neg (by omega)) (congrArg Except.ok (h.mirrored_atFrame _).symm)

/-- An operation can be performed on both, with the same answer and with mirrored news, and leaves
mirrored clocks. -/
theorem performs {op : Operation} (fits : op.Fits n) :
    ∃ c' answer news, c.Performs op c' answer news ∧ c'.Mirrors n ∧
      c.mirrored.Performs (op.mirror n) c'.mirrored answer (news.map (·.mirror n)) := by
  cases op with
  | nextFrame =>
      obtain ⟨played, forth, mirrors, back⟩ := h.step
      cases going : c.isOver with
      | true => exact ⟨c, false, [], .ended going, h, .ended (h.isOver_mirrored.trans going)⟩
      | false =>
          have going' := h.isOver_mirrored.trans going
          cases complete : played.isComplete with
          | false =>
              have complete' := mirrors.isComplete_mirrored.trans complete
              have frame := Performs.frame going' back complete'
              rw [mirrors.frame_mirrored] at frame
              exact ⟨played, true, _, .frame going forth complete, mirrors, frame⟩
          | true =>
              have complete' := mirrors.isComplete_mirrored.trans complete
              have last := Performs.last going' back complete'
              rw [mirrors.frame_mirrored, repeats_mirrored, mirrors.rewind.2] at last
              refine ⟨_, _, _, .last going forth complete, ?_, ?_⟩
              · split
                · exact mirrors.rewind.1
                · exact mirrors
              · rw [apply_ite mirrored]
                exact last
  | skip count =>
      obtain ⟨c', forth, mirrors, back⟩ := h.skip fits
      exact ⟨c', true, [], .skip forth, mirrors, .skip back⟩
  | rewind =>
      obtain ⟨mirrors, back⟩ := h.rewind
      exact ⟨c.rewind, true, [], .rewind, mirrors, back ▸ .rewind⟩
  | setRepeats repeats =>
      exact ⟨c.setRepeats repeats, true, [], .setRepeats repeats,
        ⟨h.forward, h.frames, h.frame_le, h.few⟩, .setRepeats repeats⟩
  | stop =>
      obtain ⟨mirrors, back⟩ := h.rewind
      exact ⟨c.rewind, true, [], .stop, mirrors, back ▸ .stop⟩
  | advance frame =>
      obtain ⟨c', forth, mirrors, back⟩ := h.advance fits
      exact ⟨c', true, [], .advance forth, mirrors, .advance back⟩

end Mirrors

end Clock

/-! ## Timelines that are left alone -/

/-- What an occurrence says of the frames of a timeline with a given emitter. -/
def Occurrence.bulletin? (t : Ref .timeline) (m : Ref .emitter) : Occurrence → Option Bulletin
  | .emitted m' event (.frame u number) =>
      if m' = m ∧ u = t ∧ event = TimelineEvent.newFrame.name then some (.frame number) else none
  | .emitted m' event (.timeline u) =>
      if m' = m ∧ u = t ∧ event = TimelineEvent.completed.name then some .completed else none
  | _ => none

namespace Stage

/-- What a timeline has announced of its frames, first to last. -/
def bulletins (s : Stage) (t : Ref .timeline) : List Bulletin :=
  (s.journal.filterMap fun entry => entry.what.bulletin? t (s.emitterOf t)).reverse

theorem bulletins_note (s : Stage) (t : Ref .timeline) (what : Occurrence) :
    (s.note what).bulletins t = s.bulletins t ++ (what.bulletin? t (s.emitterOf t)).toList := by
  show ((⟨s.agenda.now, what⟩ :: s.journal).filterMap
    fun entry => entry.what.bulletin? t (s.emitterOf t)).reverse = _
  rw [List.filterMap_cons]
  cases what.bulletin? t (s.emitterOf t) with
  | none => exact (List.append_nil _).symm
  | some b => exact List.reverse_cons ..

theorem emitterOf_setClock (s : Stage) (t : Ref .timeline) (clock : Clock) :
    (s.setClock t clock).emitterOf t = s.emitterOf t :=
  Table.proj_get_modify _ t t (g := Timeline.emitter) fun _ => rfl

theorem behaviours_cancelPlayback (s : Stage) (t : Ref .timeline) :
    (s.cancelPlayback t).behaviours = s.behaviours := by
  unfold cancelPlayback
  split
  · unfold abort
    dsimp only
    split
    · rfl
    · split
      · split <;> rfl
      · rfl
  · rfl

/-- A timeline is left alone: nothing moves its clock or holds its emitter, and nothing is
announced of its frames. -/
structure Untouched (t : Ref .timeline) (s s' : Stage) : Prop where
  clock : s'.clock t = s.clock t
  emitter : s'.emitterOf t = s.emitterOf t
  isHeld : (s'.emitters.get (s.emitterOf t)).isHeld = (s.emitters.get (s.emitterOf t)).isHeld
  bulletins : s'.bulletins t = s.bulletins t

namespace Untouched

variable {t : Ref .timeline} {s s' s'' : Stage}

theorem refl (t : Ref .timeline) (s : Stage) : s.Untouched t s := ⟨rfl, rfl, rfl, rfl⟩

theorem trans (h : s.Untouched t s') (h' : s'.Untouched t s'') : s.Untouched t s'' where
  clock := h'.clock.trans h.clock
  emitter := h'.emitter.trans h.emitter
  isHeld := by
    have held := h'.isHeld
    rw [h.emitter] at held
    exact held.trans h.isHeld
  bulletins := h'.bulletins.trans h.bulletins

theorem free (h : s.Untouched t s') (free : (s.emitters.get (s.emitterOf t)).isHeld = false) :
    (s'.emitters.get (s'.emitterOf t)).isHeld = false := by
  rw [h.emitter]
  exact h.isHeld.trans free

/-- Changes that leave the clock and the emitter, all emitters and the journal. -/
theorem of_eq (clock : s'.clock t = s.clock t) (emitter : s'.emitterOf t = s.emitterOf t)
    (emitters : s'.emitters = s.emitters) (journal : s'.journal = s.journal) :
    s.Untouched t s' where
  clock := clock
  emitter := emitter
  isHeld := by rw [emitters]
  bulletins := by rw [Stage.bulletins, emitter, journal, Stage.bulletins]

theorem of_rehandled (h : s.Rehandled s') : s.Untouched t s' := by
  obtain ⟨n, row⟩ := h.timeline t
  refine of_eq ?_ ?_ h.emitters h.journal
  · rw [Stage.clock, row, Stage.clock]
  · rw [emitterOf, row, emitterOf]

theorem modifyTimeline (s : Stage) (t u : Ref .timeline) {f : Timeline → Timeline}
    (clock : ∀ row, (f row).clock = row.clock) (emitter : ∀ row, (f row).emitter = row.emitter) :
    s.Untouched t (s.modifyTimeline u f) :=
  of_eq (Table.proj_get_modify _ u t clock) (Table.proj_get_modify _ u t emitter) rfl rfl

theorem note (s : Stage) {what : Occurrence} (silent : what.bulletin? t (s.emitterOf t) = none) :
    s.Untouched t (s.note what) where
  clock := rfl
  emitter := rfl
  isHeld := rfl
  bulletins := by rw [bulletins_note, silent]; exact List.append_nil _

theorem incidental (h : s.Incidental s') : s.Untouched t s' := by
  obtain ⟨n, row⟩ := h.timeline t
  have emitter : s'.emitterOf t = s.emitterOf t := by rw [emitterOf, row, emitterOf]
  refine ⟨by rw [Stage.clock, row, Stage.clock], emitter, by rw [h.emitters], ?_⟩
  obtain ⟨notes, journal, silent⟩ := h.journal
  have none : notes.filterMap (fun entry => entry.what.bulletin? t (s.emitterOf t)) = [] := by
    apply List.filterMap_eq_nil_iff.2
    intro entry mem
    have kind := silent entry mem
    cases what : entry.what <;> simp_all [Occurrence.isIncidental, Occurrence.bulletin?]
  rw [Stage.bulletins, emitter, journal, List.filterMap_append, none]
  rfl

/-- The task that plays a timeline is told to end. -/
theorem cancelPlayback (s : Stage) (t u : Ref .timeline) : s.Untouched t (s.cancelPlayback u) := by
  have aborted : ∀ (s : Stage) k, s.Untouched t (s.abort k) := fun s k => by
    unfold abort
    dsimp only
    split
    · exact refl t s
    · split
      · split <;> exact of_eq rfl rfl rfl rfl
      · exact of_eq rfl rfl rfl rfl
  unfold Stage.cancelPlayback
  split
  · have untaken : s.Untouched t (s.setPlayback u none) :=
      modifyTimeline s t u (fun _ => rfl) fun _ => rfl
    exact untaken.trans (aborted _ _)
  · exact refl t s

theorem held {m : Ref .emitter} (free : (s.emitters.get m).isHeld = false)
    (h : (Script.hold true m s).Untouched t s') : s.Untouched t (Script.hold false m s') where
  clock := h.clock
  emitter := h.emitter
  isHeld := Script.isHeld_hold_false free h.isHeld
  bulletins := h.bulletins

end Untouched

end Stage

namespace Pact

open Script

variable {υ : Type}

/-- The pact to leave a timeline alone. -/
def untouched (calm : υ → Prop) (t : Ref .timeline) : Pact υ where
  calm := calm
  leaves := Stage.Untouched t
  refl := .refl t
  trans := .trans
  incidental := .incidental
  held := .held

variable {calm : υ → Prop} {t : Ref .timeline} {host : Host υ} {w : World υ}

theorem guards_untouched : (untouched calm t).Guards t := fun h => ⟨h.clock, h.emitter, h.isHeld⟩

theorem escorts_untouched : (untouched calm t).Escorts := fun {s s'} _ _ h =>
  ((Stage.Untouched.of_rehandled (s.rehandled_retainAll _)).trans h).trans
    (.of_rehandled (s'.rehandled_releaseAll _))

namespace Binds

variable (hh : (untouched calm t).Binds host)

include hh

theorem tickAttached_untouched (u : Ref .timeline) :
    (untouched calm t).Allows (Script.tickAttached host u) := by
  intro w
  refine abides_stage_bind fun _ => abides_bind
    (hh.tickEach escorts_untouched (fun _ _ s _ => .note s rfl) w) fun gone w' _ => ?_
  split
  · exact abides_done
  · intro keeps
    refine ⟨(), _, rfl, trivial, keeps.follows (fun _ => rfl) ?_⟩
    exact .trans (.note _ rfl) (.modifyTimeline _ t u (fun _ => rfl) fun _ => rfl)

end Binds

end Pact

namespace Script

variable {υ : Type}

theorem run_skip {t : Ref .timeline} {count : Nat} {w : World υ} {c' : Clock}
    (skipped : (w.stage.clock t).skip count = .ok c') :
    (skip t count).run w = (.ok (), { w with stage := w.stage.setClock t c' }) :=
  run_check_ok_bind skipped (fun clock => change (·.setClock t clock)) w

/-- Do something with a timeline. The answer is true where there is none to give. -/
def operate (host : Host υ) (t : Ref .timeline) : Operation → Script υ Bool
  | .nextFrame => nextFrame host t
  | .skip count => do
      skip t count
      return true
  | .rewind => do
      rewind t
      return true
  | .setRepeats repeats => do
      setRepeats t repeats
      return true
  | .stop => do
      stop host t
      return true
  | .advance frame => return (← advance t frame).isOk

/-- Do something with a timeline, and tell what comes of it. -/
def observe (host : Host υ) (t : Ref .timeline) (op : Operation) : Script υ Outcome := do
  let before := (← stage).bulletins t
  let answer ← operate host t op
  let s ← stage
  return ⟨answer, (s.bulletins t).drop before.length, (s.clock t).frame, (s.clock t).isComplete⟩

/-- Do one thing after another with a timeline. Before each, something else happens. -/
def observeAll (host : Host υ) (t : Ref .timeline) :
    List ((World υ → World υ) × Operation) → Script υ (List Outcome)
  | [] => return []
  | (aside, op) :: rest => do
      modify aside
      let outcome ← observe host t op
      return outcome :: (← observeAll host t rest)

end Script

namespace Pact

open Script

variable {υ : Type} {calm : υ → Prop} {t : Ref .timeline} {host : Host υ} {w w' : World υ}

/-- A world in which a timeline is left alone and its emitter is free. -/
structure Attends (calm : υ → Prop) (t : Ref .timeline) (w : World υ) : Prop
    extends (untouched calm t).Keeps w where
  free : (w.stage.emitters.get (w.stage.emitterOf t)).isHeld = false

/-- The clock of a timeline has turned, and the timeline has announced something. -/
structure Turned (calm : υ → Prop) (t : Ref .timeline) (w w' : World υ) (clock : Clock)
    (news : List Bulletin) : Prop where
  attends : Attends calm t w'
  clock : w'.stage.clock t = clock
  bulletins : w'.stage.bulletins t = w.stage.bulletins t ++ news

theorem Attends.follow (h : Attends calm t w) (follows : (untouched calm t).Follows w w') :
    Turned calm t w w' (w.stage.clock t) [] where
  attends := ⟨follows.keeps, follows.leaves.free h.free⟩
  clock := follows.leaves.clock
  bulletins := by rw [follows.leaves.bulletins, List.append_nil]

theorem Turned.trans {w'' : World υ} {c c' : Clock} {news news' : List Bulletin}
    (h : Turned calm t w w' c news) (h' : Turned calm t w' w'' c' news') :
    Turned calm t w w'' c' (news ++ news') :=
  ⟨h'.attends, h'.clock, by rw [h'.bulletins, h.bulletins, List.append_assoc]⟩

/-- A new clock is set. -/
theorem Attends.setClock (h : Attends calm t w) (clock : Clock) :
    Turned calm t w { w with stage := w.stage.setClock t clock } clock [] := by
  have emitter := w.stage.emitterOf_setClock t clock
  refine ⟨⟨⟨h.calm, h.checked⟩, ?_⟩, w.stage.clock_setClock t clock, ?_⟩
  · rw [emitter]
    exact h.free
  · rw [Stage.bulletins, emitter, List.append_nil]
    rfl

/-- An event is announced. -/
theorem Announces.bulletins {event : TimelineEvent} {payload : Payload} {s s' : Stage}
    (h : (untouched calm t).Announces t event payload s s') :
    s'.bulletins t = s.bulletins t ++
      ((Occurrence.emitted (s.emitterOf t) event.name payload).bulletin? t
        (s.emitterOf t)).toList := by
  rw [Stage.Untouched.bulletins h, Stage.bulletins_note]

/-- The clock after a frame. -/
def clockAfter (played : Clock) : Clock :=
  if played.isComplete && played.repeats then played.rewind else played

theorem Concludes.turned {played : Clock} (attends : Attends calm t w)
    (clock : w.stage.clock t = played) (keeps : (untouched calm t).Keeps w')
    (h : (untouched calm t).Concludes t played w.stage w'.stage) :
    Turned calm t w w' (clockAfter played) (played.news) := by
  obtain ⟨s₁, frame, rest⟩ := h
  have told : s₁.bulletins t = w.stage.bulletins t ++ [.frame played.frame] := by
    rw [frame.bulletins]
    simp [Occurrence.bulletin?]
  have clock₁ := (frame.clock guards_untouched).trans clock
  have free₁ := frame.free guards_untouched.emitter attends.free
  rcases rest with ⟨incomplete, last⟩ | ⟨complete, s₂, finish, last⟩
  · refine ⟨⟨keeps, last ▸ free₁⟩, ?_, ?_⟩
    · rw [last, clock₁, clockAfter, incomplete]
      rfl
    · rw [last, told, Clock.news, incomplete]
      rfl
  · have told₂ : s₂.bulletins t = w.stage.bulletins t ++ played.news := by
      rw [finish.bulletins, told, Clock.news, complete]
      simp [Occurrence.bulletin?]
    have clock₂ := (finish.clock guards_untouched).trans clock₁
    have free₂ := finish.free guards_untouched.emitter free₁
    cases repeats : played.repeats with
    | false =>
        rw [repeats, if_neg Bool.false_ne_true] at last
        refine ⟨⟨keeps, last ▸ free₂⟩, ?_, last ▸ told₂⟩
        rw [last, clock₂, clockAfter, repeats, Bool.and_false]
        rfl
    | true =>
        rw [repeats, if_pos rfl] at last
        have emitter := s₂.emitterOf_setClock t (s₂.clock t).rewind
        refine ⟨⟨keeps, ?_⟩, ?_, ?_⟩
        · rw [last]
          show (s₂.emitters.get ((s₂.setClock t (s₂.clock t).rewind).emitterOf t)).isHeld = false
          rw [emitter]
          exact free₂
        · rw [last, clockAfter, complete, repeats, ← clock₂]
          exact s₂.clock_setClock t _
        · rw [last, ← told₂, Stage.bulletins, Stage.rewind, emitter, Stage.bulletins]
          rfl

namespace Binds

variable (hh : (untouched calm t).Binds host)

include hh

/-- The clock is set on a frame, and the attached behaviours are ticked. The timeline announces
nothing meanwhile. -/
theorem run_ticks (h : Attends calm t w) (played : Clock) :
    ∃ v, (tickAttached host t).run
        { w with stage := (w.stage.setClock t played).note (.moved t played.frame played.frames) } =
          (.ok (), v) ∧
      Turned calm t w v played [] := by
  let moved : World υ := { w with stage := w.stage.setClock t played }
  have first : Turned calm t w moved played [] := h.setClock played
  have noted : (untouched calm t).Follows moved
      { w with stage := moved.stage.note (.moved t played.frame played.frames) } :=
    first.attends.toKeeps.follows (fun _ => rfl) (.note _ rfl)
  obtain ⟨_, v, run, -, ticked⟩ := noted.abides (hh.tickAttached_untouched t _)
  have second := first.trans (first.attends.follow ticked)
  rw [first.clock] at second
  exact ⟨v, run, second⟩

/-- The news of a frame are announced. -/
theorem run_news (h : Attends calm t w) {played : Clock} (clock : w.stage.clock t = played) :
    ∃ w', (concludeFrame host t played).run w =
        (.ok (!played.isComplete || played.repeats), w') ∧
      Turned calm t w w' (clockAfter played) (played.news) := by
  obtain ⟨w', run, keeps, concludes⟩ :=
    hh.run_concludeFrame guards_untouched.emitter played h.toKeeps h.free
  exact ⟨w', run, concludes.turned h clock keeps⟩

theorem run_nextFrame {played : Clock} (h : Attends calm t w)
    (going : (w.stage.clock t).isOver = false) (step : (w.stage.clock t).step = .ok played) :
    ∃ w', (nextFrame host t).run w = (.ok (!played.isComplete || played.repeats), w') ∧
      Turned calm t w w' (clockAfter played) (played.news) := by
  obtain ⟨v, run, ticked⟩ := hh.run_ticks h played
  obtain ⟨w', run', news⟩ := hh.run_news ticked.attends ticked.clock
  rw [run_nextFrame_of_step going step]
  exact ⟨w', (run_bind_of_ok run _).trans run', ticked.trans news⟩

/-- The playing of a timeline is stopped, and the clock is left as it is. -/
theorem run_pause (h : Attends calm t w) :
    ∃ w', (pause host t).run w = (.ok (), w') ∧ (untouched calm t).Follows w w' := by
  have cancelled : (untouched calm t).Follows w { w with stage := w.stage.cancelPlayback t } :=
    h.toKeeps.follows (fun b => by rw [w.stage.behaviours_cancelPlayback t]) (.cancelPlayback _ t t)
  unfold pause
  rw [run_stage_bind, run_change_bind]
  cases w.stage.isPlaying t with
  | false => exact ⟨_, rfl, cancelled⟩
  | true =>
      let frame := ((w.stage.cancelPlayback t).clock t).frame
      have noted : (untouched calm t).Follows w
          { w with stage := (w.stage.cancelPlayback t).note (.paused t frame) } :=
        cancelled.trans (cancelled.keeps.follows (fun _ => rfl) (.note _ rfl))
      have attends := (h.follow noted).attends
      obtain ⟨w', run, keeps, announced⟩ :=
        hh.run_announce .paused (.timeline t) attends.toKeeps attends.free
      refine ⟨w', ?_, keeps, noted.leaves.trans (.trans (.note _ ?_) announced)⟩
      · simpa using run
      · simp [Occurrence.bulletin?, TimelineEvent.name]

/-- What an operation does to the clock of a timeline, it does on the stage. -/
theorem run_operate (h : Attends calm t w) {op : Operation} {c' : Clock} {answer : Bool}
    {news : List Bulletin} (performs : (w.stage.clock t).Performs op c' answer news) :
    ∃ w', (operate host t op).run w = (.ok answer, w') ∧ Turned calm t w w' c' news := by
  cases performs with
  | ended done => exact ⟨w, run_nextFrame_of_isOver done, h, rfl, (List.append_nil _).symm⟩
  | frame going step incomplete =>
      obtain ⟨w', run, turned⟩ := hh.run_nextFrame h going step
      simp only [incomplete, clockAfter, Clock.news] at run turned
      exact ⟨w', run, turned⟩
  | last going step complete =>
      obtain ⟨w', run, turned⟩ := hh.run_nextFrame h going step
      simp only [complete, clockAfter, Clock.news] at run turned
      exact ⟨w', run, turned⟩
  | @skip count _ skipped =>
      exact ⟨{ w with stage := w.stage.setClock t c' }, run_bind_of_ok (run_skip skipped) _,
        h.setClock c'⟩
  | rewind => exact ⟨_, rfl, h.setClock _⟩
  | setRepeats repeats => exact ⟨_, rfl, h.setClock _⟩
  | stop =>
      obtain ⟨w', run, follows⟩ := hh.run_pause h
      have first := h.follow follows
      have second := first.attends.setClock (w'.stage.clock t).rewind
      refine ⟨{ w' with stage := w'.stage.rewind t }, ?_, first.clock ▸ first.trans second⟩
      exact run_bind_of_ok (run_bind_of_ok run _) _
  | @advance frame _ advanced =>
      exact ⟨{ w with stage := w.stage.setClock t c' },
        run_bind_of_ok (run_tryClock_of_ok advanced) _, h.setClock c'⟩

/-- What is told of an operation. -/
theorem run_observe (h : Attends calm t w) {op : Operation} {c' : Clock} {answer : Bool}
    {news : List Bulletin} (performs : (w.stage.clock t).Performs op c' answer news) :
    ∃ w', (observe host t op).run w = (.ok ⟨answer, news, c'.frame, c'.isComplete⟩, w') ∧
      Attends calm t w' ∧ w'.stage.clock t = c' := by
  obtain ⟨w', run, turned⟩ := hh.run_operate h performs
  refine ⟨w', ?_, turned.attends, turned.clock⟩
  unfold observe
  rw [run_stage_bind, run_bind_of_ok run, run_stage_bind, turned.clock, turned.bulletins,
    List.drop_left]
  rfl

end Binds

/-- A timeline that runs forward is left alone in one world, and one that is its mirror image in
another. -/
structure Opposite {υ υ' : Type} (n : Nat) (calm : υ → Prop) (calm' : υ' → Prop)
    (t t' : Ref .timeline) (w : World υ) (w' : World υ') : Prop where
  forward : Attends calm t w
  backward : Attends calm' t' w'
  mirrors : (w.stage.clock t).Mirrors n
  mirrored : w'.stage.clock t' = (w.stage.clock t).mirrored

variable {υ' : Type} {calm' : υ' → Prop} {t' : Ref .timeline} {host' : Host υ'} {v v' : World υ'}
  {n : Nat}

/-- They stay mirror images while other things are done. -/
theorem Opposite.follow (h : Opposite n calm calm' t t' w v)
    (forth : (untouched calm t).Follows w w') (back : (untouched calm' t').Follows v v') :
    Opposite n calm calm' t t' w' v' where
  forward := (h.forward.follow forth).attends
  backward := (h.backward.follow back).attends
  mirrors := forth.leaves.clock ▸ h.mirrors
  mirrored := by
    rw [forth.leaves.clock]
    exact back.leaves.clock.trans h.mirrored

/-- And they stay mirror images under an operation, with mirrored outcomes. -/
theorem Opposite.observe (h : Opposite n calm calm' t t' w v) (hh : (untouched calm t).Binds host)
    (hh' : (untouched calm' t').Binds host') {op : Operation} (fits : op.Fits n) :
    ∃ outcome w' v', (Script.observe host t op).run w = (.ok outcome, w') ∧
      (Script.observe host' t' (op.mirror n)).run v = (.ok (outcome.mirror n), v') ∧
        Opposite n calm calm' t t' w' v' := by
  obtain ⟨c', answer, news, forth, mirrors, back⟩ := h.mirrors.performs fits
  rw [← h.mirrored] at back
  obtain ⟨w', run, forward, clock⟩ := hh.run_observe h.forward forth
  obtain ⟨v', run', backward, clock'⟩ := hh'.run_observe h.backward back
  refine ⟨_, w', v', run, ?_, forward, backward, clock ▸ mirrors, by rw [clock, clock']⟩
  rw [run', mirrors.frame_mirrored, mirrors.isComplete_mirrored]
  rfl

theorem Opposite.observeAll (h : Opposite n calm calm' t t' w v)
    (hh : (untouched calm t).Binds host) (hh' : (untouched calm' t').Binds host')
    (acts : List ((World υ → World υ) × (World υ' → World υ') × Operation))
    (asides : ∀ act ∈ acts, (untouched calm t).Grants act.1 ∧ (untouched calm' t').Grants act.2.1)
    (fits : ∀ act ∈ acts, act.2.2.Fits n) :
    ∃ outcomes w' v',
      (Script.observeAll host t (acts.map fun act => (act.1, act.2.2))).run w = (.ok outcomes, w') ∧
      (Script.observeAll host' t' (acts.map fun act => (act.2.1, act.2.2.mirror n))).run v =
        (.ok (outcomes.map (·.mirror n)), v') := by
  induction acts generalizing w v with
  | nil => exact ⟨[], w, v, rfl, rfl⟩
  | cons act rest ih =>
      obtain ⟨aside, aside'⟩ := asides act (List.mem_cons_self ..)
      obtain ⟨outcome, w₂, v₂, run, run', opposite⟩ :=
        (h.follow (aside w h.forward.toKeeps) (aside' v h.backward.toKeeps)).observe hh hh'
          (fits act (List.mem_cons_self ..))
      obtain ⟨outcomes, w₃, v₃, runRest, runRest'⟩ := ih opposite
        (fun act mem => asides act (List.mem_cons_of_mem _ mem))
        (fun act mem => fits act (List.mem_cons_of_mem _ mem))
      refine ⟨outcome :: outcomes, w₃, v₃, ?_, ?_⟩
      · exact (run_bind_of_ok run _).trans (run_bind_of_ok runRest _)
      · exact (run_bind_of_ok run' _).trans (run_bind_of_ok runRest' _)

end Pact

/-- A timeline that runs forward, and one with the same settings that runs backward and stands on
the mirrored frame, on one stage or on two: whatever is done with both in the same way, and
whatever else is done in between that leaves them alone, they give the same answers, announce
mirrored frames and the same ends of runs, and are on mirrored frames and complete at the same
times, after each step. -/
theorem Stage.Reachable.mirrored_in_reverse {υ υ' : Type} {w : World υ} {v : World υ'}
    (reachable : w.stage.Reachable) (reachable' : v.stage.Reachable) {t t' : Ref .timeline}
    {calm : υ → Prop} {calm' : υ' → Prop} {host : Host υ} {host' : Host υ'}
    (binds : (Pact.untouched calm t).Binds host) (binds' : (Pact.untouched calm' t').Binds host')
    (atEase : calm w.user) (atEase' : calm' v.user)
    (free : (w.stage.emitters.get (w.stage.emitterOf t)).isHeld = false)
    (free' : (v.stage.emitters.get (v.stage.emitterOf t')).isHeld = false)
    (forward : (w.stage.clock t).direction = .forward)
    (few : (w.stage.clock t).frames < 2 ^ 32 - 1)
    (mirrored : v.stage.clock t' = { w.stage.clock t with
      direction := .backward
      frame := (w.stage.clock t).frames - (w.stage.clock t).frame })
    (acts : List ((World υ → World υ) × (World υ' → World υ') × Operation))
    (asides : ∀ act ∈ acts,
      (Pact.untouched calm t).Grants act.1 ∧ (Pact.untouched calm' t').Grants act.2.1)
    (fits : ∀ act ∈ acts, act.2.2.Fits (w.stage.clock t).frames) :
    ∃ outcomes w' v',
      (Script.observeAll host t (acts.map fun act => (act.1, act.2.2))).run w = (.ok outcomes, w') ∧
      (Script.observeAll host' t'
          (acts.map fun act => (act.2.1, act.2.2.mirror (w.stage.clock t).frames))).run v =
        (.ok (outcomes.map (·.mirror (w.stage.clock t).frames)), v') := by
  have sound := reachable.sound t
  refine Pact.Opposite.observeAll ⟨⟨⟨atEase, reachable.checked⟩, free⟩,
    ⟨⟨atEase', reachable'.checked⟩, free'⟩, ⟨forward, rfl, sound.frame_le, few⟩, mirrored⟩
    binds binds' acts asides fits

/-- Two timelines of a tenth of a second are played, the second of which runs backward. -/
def crossing : Script Unit Unit := do
  let _ ← Script.owning [] (Script.produce (·.addTimeline 100))
  let _ ← Script.owning [] (Script.produce (·.addTimeline 100))
  let _ ← Script.owning [.timeline ⟨1⟩] (Script.setDirection ⟨1⟩ .backward)
  let _ ← Script.owning [.timeline ⟨0⟩] (Script.start (.silent Unit) ⟨0⟩)
  let _ ← Script.owning [.timeline ⟨1⟩] (Script.start (.silent Unit) ⟨1⟩)

def crossed : World Unit := (crossing.run ⟨.empty true, ()⟩).2

theorem reachable_crossed : crossed.stage.Reachable := by
  unfold crossed
  exact Arises.reachable (@Arises.course _ (fun _ => []) _ _ _ (.opening true rfl)
    (.bind (.offered (.addTimeline 100)) fun _ =>
      .bind (.offered (.addTimeline 100)) fun _ =>
        .bind (.offered (.setDirection ⟨1⟩ .backward)) fun _ =>
          .bind (.offered (.start ⟨0⟩)) fun _ => .bind (.offered (.start ⟨1⟩)) fun _ => .pure ()))

theorem Pact.binds_silent {υ : Type} (p : Pact υ) : p.Binds (.silent υ) where
  called _ _ _ := Pact.abides_pure trivial
  driven _ _ _ := Pact.abides_done
  reacts _ _ _ := Pact.abides_done

/-- Both are moved back and forth and are stopped once. They come to the end of a run, which they
repeat, and are then moved past the end of the next. -/
def stroll : List Operation :=
  [.nextFrame, .skip 3, .rewind, .nextFrame, .stop, .advance 5, .setRepeats true, .nextFrame,
    .nextFrame, .skip 8]

theorem mirrored_in_reverse_crossed :
    ∃ w' v', (Script.observeAll (.silent Unit) ⟨0⟩ (stroll.map ((id, ·)))).run crossed =
        (.ok [⟨true, [.frame 1], 1, false⟩, ⟨true, [], 4, false⟩, ⟨true, [], 0, false⟩,
          ⟨true, [.frame 1], 1, false⟩, ⟨true, [], 0, false⟩, ⟨true, [], 5, false⟩,
          ⟨true, [], 5, false⟩, ⟨true, [.frame 6, .completed], 0, false⟩,
          ⟨true, [.frame 1], 1, false⟩, ⟨true, [], 2, false⟩], w') ∧
      (Script.observeAll (.silent Unit) ⟨1⟩
          (stroll.map fun op => (id, op.mirror 6))).run crossed =
        (.ok [⟨true, [.frame 5], 5, false⟩, ⟨true, [], 2, false⟩, ⟨true, [], 6, false⟩,
          ⟨true, [.frame 5], 5, false⟩, ⟨true, [], 6, false⟩, ⟨true, [], 1, false⟩,
          ⟨true, [], 1, false⟩, ⟨true, [.frame 0, .completed], 6, false⟩,
          ⟨true, [.frame 5], 5, false⟩, ⟨true, [], 4, false⟩], v') ∧
      crossed.stage.isPlaying ⟨0⟩ = true ∧ w'.stage.isPlaying ⟨0⟩ = false := by
  have clock : crossed.stage.clock ⟨0⟩ = .ofDuration 100 := by decide +kernel
  have frames : (crossed.stage.clock ⟨0⟩).frames = 6 := by rw [clock]; decide
  have fit : ∀ op ∈ stroll, op.Fits 6 := by decide
  obtain ⟨outcomes, w', v', forth, back⟩ := reachable_crossed.mirrored_in_reverse reachable_crossed
    (Pact.untouched (fun _ : Unit => True) ⟨0⟩).binds_silent
    (Pact.untouched (fun _ : Unit => True) ⟨1⟩).binds_silent trivial trivial
    (by decide +kernel) (by decide +kernel) (by rw [clock]; rfl) (by rw [frames]; decide)
    (by decide +kernel) (stroll.map fun op => (id, id, op))
    (fun act mem => by
      obtain ⟨op, -, rfl⟩ := List.mem_map.1 mem
      exact ⟨fun _ => .refl, fun _ => .refl⟩)
    (fun act mem => by
      obtain ⟨op, hop, rfl⟩ := List.mem_map.1 mem
      rw [frames]
      exact fit op hop)
  have told : ((Script.observeAll (.silent Unit) ⟨0⟩ (stroll.map ((id, ·)))).run crossed).1 =
      .ok [⟨true, [.frame 1], 1, false⟩, ⟨true, [], 4, false⟩, ⟨true, [], 0, false⟩,
        ⟨true, [.frame 1], 1, false⟩, ⟨true, [], 0, false⟩, ⟨true, [], 5, false⟩,
        ⟨true, [], 5, false⟩, ⟨true, [.frame 6, .completed], 0, false⟩,
        ⟨true, [.frame 1], 1, false⟩, ⟨true, [], 2, false⟩] := by
    decide +kernel
  have stopped : ((Script.observeAll (.silent Unit) ⟨0⟩
      (stroll.map ((id, ·)))).run crossed).2.stage.isPlaying ⟨0⟩ = false := by
    decide +kernel
  have gone : (Script.observeAll (.silent Unit) ⟨0⟩ (stroll.map ((id, ·)))).run crossed =
      (.ok outcomes, w') := by
    rw [List.map_map] at forth
    exact forth
  rw [gone] at told stopped
  cases Except.ok.inj told
  rw [frames, List.map_map] at back
  exact ⟨w', v', gone, back, by decide +kernel, stopped⟩

end Animation
