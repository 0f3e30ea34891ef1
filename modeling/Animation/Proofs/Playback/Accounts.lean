/-
# Who plays a timeline

There is at most one task that can still play a timeline, and the timeline is being played just
if there is one. The announcements of its start and its pause tally with the tasks that have
played it. A timeline that was paused or stopped plays no frames, but those played by hand,
until its start is announced again.
-/

import Animation.Proofs.Playback.Performing

namespace Animation

namespace Stage

/-- A task plays a timeline, has not ended, and was not told to. -/
structure IsPlayedBy (t : Ref .timeline) (k : Ref .task) (s : Stage) : Prop where
  added : k.index < s.tasks.size
  plays : (s.tasks.get k).plays t = true
  unended : s.hasEnded k = false
  unaborted : (s.tasks.get k).isAborted = false

/-- A timeline is being played just if there is a task that can still play it, there are never
two, and each start that was announced has led to an announced pause, to a task that came to its
end without having been paused, or to the task that plays now. -/
structure Accounted (t : Ref .timeline) (s : Stage) : Prop where
  unique : ∀ k k', s.IsPlayedBy t k → s.IsPlayedBy t k' → k = k'
  isPlaying : s.isPlaying t = true ↔ ∃ k, s.IsPlayedBy t k
  tally : s.announced t .started =
    s.announced t .paused + (s.players t).countP (·.isPlayedOut) + (s.isPlaying t).toNat

/-- Whoever starts a timeline, or pauses or stops it, gets through, and plays no frame by that.
A start is announced if the timeline was not being played. -/
structure Obeys (t : Ref .timeline) (s : Stage) : Prop where
  start : ∀ {υ : Type} {host : Host (Diary υ)} (u : Diary υ),
    (∀ callback payload, (host.called callback payload).StaysOut t) →
      ∃ w, (Script.start host t).run ⟨s, u⟩ = (.ok (.ok ()), w) ∧ w.stage.isPlaying t = true ∧
        w.stage.announced t .started = s.announced t .started + (!s.isPlaying t).toNat ∧
        w.stage.framesPlayed t = s.framesPlayed t
  halt : ∀ {υ : Type} {host : Host (Diary υ)} (u : Diary υ),
    (∀ callback payload, (host.called callback payload).StaysOut t) →
      ∀ x ∈ [Script.pause host t, Script.stop host t],
        ∃ w, x.run ⟨s, u⟩ = (.ok (), w) ∧ w.stage.isPlaying t = false ∧
          w.stage.announced t .started = s.announced t .started ∧
          w.stage.framesPlayed t = s.framesPlayed t

namespace Ready

variable {t : Ref .timeline} {s : Stage} (h : s.Ready t)

include h

theorem accounted : s.Accounted t := by
  have player : ∀ k, s.IsPlayedBy t k ↔ ⟨k, false, false⟩ ∈ s.players t := fun k =>
    ⟨fun ⟨added, plays, unended, unaborted⟩ =>
        mem_players.2 ⟨added, plays, unended.symm, unaborted.symm⟩,
      fun mem => by
        obtain ⟨added, plays, unended, unaborted⟩ := mem_players.1 mem
        exact ⟨added, plays, unended.symm, unaborted.symm⟩⟩
  refine ⟨fun k k' plays plays' => ?_, ?_, ?_⟩
  · have same := h.sound.eq_of_isActive ((player k).1 plays) ((player k').1 plays') rfl rfl
    exact congrArg Player.task same
  · rw [isPlaying_eq h.sound, Score.isPlaying, List.any_eq_true]
    constructor
    · rintro ⟨⟨k, hasEnded, isAborted⟩, mem, active⟩
      simp only [Player.isActive, Bool.and_eq_true, Bool.not_eq_true'] at active
      obtain ⟨rfl, rfl⟩ := active
      exact ⟨k, (player k).2 mem⟩
    · rintro ⟨k, plays⟩
      exact ⟨_, (player k).1 plays, rfl⟩
  · rw [isPlaying_eq h.sound]
    exact h.sound.tally

theorem obeys : s.Obeys t where
  start {υ host} u called := by
    obtain ⟨w, run, ⟨playing, rfl⟩ | ⟨idle, k, launched⟩⟩ :=
      Script.run_start called (w := ⟨s, u⟩) h
    · refine ⟨_, run, playing, ?_, rfl⟩
      rw [show s.isPlaying t = true from playing]
      rfl
    · have score := launched.score
      have quiet : (s.score t).isPlaying = false := (isPlaying_eq h.sound).symm.trans idle
      have sound : (w.stage.score t).Sound := by
        rw [score]
        exact h.sound.launch quiet launched.new
      refine ⟨w, run, ?_, ?_, congrArg Score.frames score⟩
      · rw [isPlaying_eq sound, score]
        exact Score.isPlaying_launch _ k
      · rw [show s.isPlaying t = false from idle]
        exact congrArg Score.started score
  halt {υ host} u called x mem := by
    have halts : ∃ w, x.run ⟨s, u⟩ = (.ok (), w) ∧ World.Halted t ⟨s, u⟩ w := by
      simp only [List.mem_cons, List.not_mem_nil, or_false] at mem
      rcases mem with rfl | rfl
      · exact Script.run_pause called h
      · exact Script.run_stop called h
    obtain ⟨w, run, halted⟩ := halts
    have score := halted.score
    have sound : (w.stage.score t).Sound := by
      rw [score]
      exact h.sound.halt
    refine ⟨w, run, ?_, ?_, ?_⟩
    · rw [isPlaying_eq sound, score]
      exact h.sound.isPlaying_halt
    · exact (congrArg Score.started score).trans (Score.started_halt _)
    · exact (congrArg Score.frames score).trans (Score.frames_halt _)

end Ready

end Stage

/-- Whenever the stage is met, the tasks that play a timeline are accounted for and the timeline
can be started, paused and stopped. Since a moment when it is not being played, it is not being
played and has played no frame but by hand, unless its start was announced again. -/
theorem Performed.playback_accounted {υ : Type} {t : Ref .timeline} {w : World (Diary υ)}
    (h : Performed t w) :
    (∀ g ∈ w.glimpse :: w.user.seen, g.stage.Accounted t ∧ g.stage.Obeys t) ∧
    (w.glimpse :: w.user.seen).Pairwise fun later earlier => Follows t earlier later := by
  have kept := h.kept
  refine ⟨fun g mem => ?_, List.pairwise_cons.2 ⟨fun g mem => (kept.met g mem).2, kept.order⟩⟩
  have ready : g.stage.Ready t := by
    rcases List.mem_cons.1 mem with rfl | mem
    · exact kept.ready
    · exact (kept.met g mem).1
  exact ⟨ready.accounted, ready.obeys⟩

/-- A timeline of three frames, an alpha and a behaviour that calls back. -/
def Stage.interruptible : Stage :=
  ((((Stage.empty true).addTimeline 50).1.addAlpha ⟨0⟩ .rampInc).1.addBehaviour (.custom 0)).1

/-- Whenever the behaviour is driven it pauses the timeline and starts it again. -/
def Host.interrupting : Host (Diary Unit) :=
  { Host.silent (Diary Unit) with
    driven := fun _ _ => do
      Script.pause (Host.silent _) ⟨0⟩
      Script.look
      let _ ← Script.start (Host.silent _) ⟨0⟩
      Script.look }

/-- The behaviour is bound to the alpha, and the timeline is started. -/
def Script.startInterruptible : Script (Diary Unit) Unit := do
  bindTo Host.interrupting ⟨0⟩ (some ⟨0⟩)
  let _ ← start Host.interrupting ⟨0⟩
  look

namespace Performed

open Script

theorem conducting_interrupting : Host.interrupting.Conducting ⟨0⟩ where
  notified _ _ := .pure ()
  called _ _ w _ := ⟨0, w, rfl, .refl _ w⟩
  driven _ _ := .bind (.requested (.pause _)) fun _ => .bind .look fun _ =>
    .bind (.requested (.start _)) fun _ => .look
  reacts _ _ := .pure ()
  resume _ := .pure _

/-- The world at the given time after the start. -/
def interrupted (duration : Nat) : World (Diary Unit) :=
  ((Script.wait Host.interrupting 4 duration).run ((Script.wait Host.interrupting 4 0).run
    (startInterruptible.run ⟨.interruptible, ⟨(), 0, []⟩⟩).2).2).2

theorem performed_interrupted (duration : Nat) : Performed ⟨0⟩ (interrupted duration) := by
  have fresh : Stage.interruptible.Fresh ⟨0⟩ := by
    refine ⟨?_, ?_, ?_, ⟨nofun, fun u k taken => ?_⟩, ?_, ?_, ?_, ?_⟩
    case refine_4 => rcases u with ⟨_ | _⟩ <;> exact nomatch taken
    all_goals decide +kernel
  have h := conducting_interrupting
  have starts : Conducts ⟨0⟩ startInterruptible :=
    .bind (.request (.bindTo _ _) h.notified h.called h.driven h.reacts) fun _ =>
      .bind (.request (.start _) h.notified h.called h.driven h.reacts) fun _ => .look
  have opened : Performed ⟨0⟩ (startInterruptible.run ⟨.interruptible, ⟨(), 0, []⟩⟩).2 :=
    .course (.opening fresh rfl) starts
  exact (opened.wait h 4 0).wait h 4 duration

/-- In each of its two frames the task that plays is paused, and another one takes over. -/
theorem playback_accounted_interrupted :
    (interrupted 40).user.seen.map (fun g => (g.stage.isPlaying ⟨0⟩, g.stage.announced ⟨0⟩ .started,
        g.stage.announced ⟨0⟩ .paused, g.stage.framesPlayed ⟨0⟩)) =
      [(true, 3, 2, 2), (false, 2, 2, 2), (true, 2, 1, 1), (false, 1, 1, 1), (true, 1, 0, 0)] ∧
    (∀ g ∈ (interrupted 40).user.seen, g.stage.Accounted ⟨0⟩) ∧
    ∃ k, (interrupted 40).stage.IsPlayedBy ⟨0⟩ k := by
  have seen : (interrupted 40).user.seen.map (fun g => (g.stage.isPlaying ⟨0⟩,
      g.stage.announced ⟨0⟩ .started, g.stage.announced ⟨0⟩ .paused, g.stage.framesPlayed ⟨0⟩)) =
      [(true, 3, 2, 2), (false, 2, 2, 2), (true, 2, 1, 1), (false, 1, 1, 1), (true, 1, 0, 0)] := by
    decide +kernel
  have playing : (interrupted 40).stage.isPlaying ⟨0⟩ = true := by decide +kernel
  obtain ⟨accounted, -⟩ := playback_accounted (performed_interrupted 40)
  generalize interrupted 40 = w at seen playing accounted ⊢
  have now := (accounted w.glimpse (List.mem_cons_self ..)).1
  exact ⟨seen, fun g mem => (accounted g (List.mem_cons_of_mem _ mem)).1, now.isPlaying.1 playing⟩

end Performed

end Animation
