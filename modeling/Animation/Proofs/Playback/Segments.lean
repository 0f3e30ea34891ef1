/-
# A run that is played in segments

A run can be played at one go, or in segments, with pauses in between of any length. What is
noted of it is the same. Here this is shown of a reel, which is what there is to the playing of
a timeline: its clock, when its playing was started and how many frames have been played since,
and what has been noted. A start takes the clock back only from the end of a run, a pause takes
nothing back, and a frame that is played while nobody pauses is played when it is due.
-/

import Animation.Proofs.Timeline.Run
import Animation.Stage.Table

namespace Animation

/-- What is noted of a timeline that is played: that its playing starts, that it is on a frame, that
a behaviour that follows it is ticked, and what it announces. -/
inductive Cue where
  | started
  | frame (number : Nat)
  | ticked (b : Ref .behaviour) (alpha : Nat)
  | news (bulletin : Bulletin)
  deriving DecidableEq

def Cue.isFrame : Cue → Bool
  | frame _ => true
  | _ => false

/-- What is noted of the frame on which a clock stands, with the behaviours that follow it, each
under an easing. -/
def Clock.cues (c : Clock) (curves : Curves) (followers : List (Ref .behaviour × Easing)) :
    List Cue :=
  .frame c.frame :: (followers.map fun (b, easing) => .ticked b (c.alphaBy curves easing)) ++
    c.news.map .news

/-- What is noted of so many frames, one after another. -/
def Clock.cuesOf (c : Clock) (curves : Curves) (followers : List (Ref .behaviour × Easing))
    (j : Nat) : List Cue :=
  (List.range j).flatMap fun i => (c.further (i + 1)).cues curves followers

section Cues

variable {c : Clock} {curves : Curves} {followers : List (Ref .behaviour × Easing)}

theorem Clock.cuesOf_succ (c : Clock) (curves : Curves)
    (followers : List (Ref .behaviour × Easing)) (j : Nat) :
    c.cuesOf curves followers (j + 1) =
      c.cuesOf curves followers j ++ (c.further (j + 1)).cues curves followers := by
  rw [cuesOf, List.range_succ, List.flatMap_append, cuesOf]
  congr 1
  exact List.flatMap_singleton ..

/-- The first of the frames can be taken from the others. -/
theorem Clock.cuesOf_succ' (c : Clock) (curves : Curves)
    (followers : List (Ref .behaviour × Easing)) (j : Nat) :
    c.cuesOf curves followers (j + 1) =
      (c.further 1).cues curves followers ++ (c.further 1).cuesOf curves followers j := by
  rw [cuesOf, List.range_succ_eq_map, List.flatMap_cons, List.flatMap_map, cuesOf]
  congr 2
  funext i
  rw [further_further, Nat.add_comm 1]

/-- A frame is the last one just if the end of the run is noted. -/
theorem Clock.completed_mem_cues :
    .news .completed ∈ c.cues curves followers ↔ c.isComplete = true := by
  simp [cues, Clock.news]

/-- As long as frames are left, no end of a run is noted. -/
theorem Clock.completed_not_mem_cuesOf {j : Nat} (lt : j < c.remaining) :
    .news .completed ∉ c.cuesOf curves followers j := by
  intro mem
  obtain ⟨i, within, mem⟩ := List.mem_flatMap.1 mem
  rw [completed_mem_cues, isComplete_eq, decide_eq_true_iff, remaining_further] at mem
  have le := List.mem_range.1 within
  omega

/-- The end of a run is noted once, after all that is noted of its frames. -/
theorem Clock.cuesOf_remaining (left : 0 < c.remaining) :
    ∃ before, c.cuesOf curves followers c.remaining = before ++ [.news .completed] ∧
      .news .completed ∉ before := by
  obtain ⟨j, last⟩ := Nat.exists_eq_succ_of_ne_zero (Nat.ne_of_gt left)
  let played := c.further (j + 1)
  have complete : played.isComplete = true := by
    rw [isComplete_eq, decide_eq_true_iff, remaining_further, last, Nat.sub_self]
  have cues : played.cues curves followers = (.frame played.frame ::
      (followers.map fun (b, easing) => .ticked b (played.alphaBy curves easing)) ++
        [.news (.frame played.frame)]) ++ [.news .completed] := by
    simp [Clock.cues, Clock.news, complete]
  refine ⟨_, by rw [last, cuesOf_succ, cues, ← List.append_assoc], fun mem => ?_⟩
  rcases List.mem_append.1 mem with mem | mem
  · exact completed_not_mem_cuesOf (by omega) mem
  · simp at mem

end Cues

/-- Whether a timeline is being played, and if so since when, and how many frames have been played
since. -/
inductive Mode where
  | idle
  | playing (start played : Nat)
  deriving DecidableEq

/-- A clock, whether it is being played, and what has been noted and when, last first. -/
structure Reel where
  clock : Clock
  mode : Mode
  log : List (Nat × Cue)

/-- When the playing was last started, and how many frames have been played since. -/
def lastSegment : List (Nat × Cue) → Option (Nat × Nat)
  | [] => none
  | (time, .started) :: _ => some (time, 0)
  | (_, .frame _) :: earlier => (lastSegment earlier).map fun (start, played) => (start, played + 1)
  | _ :: earlier => lastSegment earlier

/-- Every frame has been played so many periods after the last start before it as frames have been
played since that start, itself included. -/
def Punctual (period : Nat) : List (Nat × Cue) → Prop
  | [] => True
  | (time, .frame _) :: earlier =>
      (∃ start played, lastSegment earlier = some (start, played) ∧
        time = start + (played + 1) * period) ∧ Punctual period earlier
  | _ :: earlier => Punctual period earlier

/-- What has been noted of frames, first to last. -/
def played (log : List (Nat × Cue)) : List Cue := (log.reverse.map (·.2)).filter (· ≠ .started)

/-- What has been noted of a frame at one time. -/
def notedAt (time : Nat) (cues : List Cue) : List (Nat × Cue) := (cues.map (time, ·)).reverse

section Log

variable {log quiet : List (Nat × Cue)} {time : Nat}

theorem played_append (later earlier : List (Nat × Cue)) :
    played (later ++ earlier) = played earlier ++ played later := by
  simp [played]

theorem played_started (time : Nat) (log : List (Nat × Cue)) :
    played ((time, .started) :: log) = played log := by
  simp [played]

theorem played_notedAt (time : Nat) (c : Clock) (curves : Curves)
    (followers : List (Ref .behaviour × Easing)) :
    played (notedAt time (c.cues curves followers)) = c.cues curves followers := by
  have times : (notedAt time (c.cues curves followers)).reverse.map (·.2) =
      c.cues curves followers := by
    simp [notedAt, Function.comp_def]
  rw [played, times, List.filter_eq_self]
  intro cue mem
  have other : Cue.started ∉ c.cues curves followers := by simp [Clock.cues]
  exact decide_eq_true fun same => other (same ▸ mem)

/-- What is noted besides starts and frames changes neither when frames are due nor whether they
were played in time. -/
theorem segment_of_quiet (h : ∀ e ∈ quiet, e.2 ≠ .started ∧ e.2.isFrame = false) (period : Nat) :
    lastSegment (quiet ++ log) = lastSegment log ∧
      (Punctual period (quiet ++ log) ↔ Punctual period log) := by
  induction quiet with
  | nil => exact ⟨rfl, .rfl⟩
  | cons e rest ih =>
      obtain ⟨time, cue⟩ := e
      have others := ih fun e mem => h e (List.mem_cons_of_mem _ mem)
      have here := h _ (List.mem_cons_self ..)
      cases cue with
      | started => exact absurd rfl here.1
      | frame number => exact nomatch here.2
      | ticked | news => exact others

/-- A frame is one more of the segment, and is played in time if it is played when it is due. -/
theorem segment_notedAt (c : Clock) (curves : Curves)
    (followers : List (Ref .behaviour × Easing)) {start n : Nat}
    (segment : lastSegment log = some (start, n)) (period : Nat) :
    lastSegment (notedAt time (c.cues curves followers) ++ log) = some (start, n + 1) ∧
      (time = start + (n + 1) * period → Punctual period log →
        Punctual period (notedAt time (c.cues curves followers) ++ log)) := by
  let rest : List Cue := (followers.map fun (b, easing) => .ticked b (c.alphaBy curves easing)) ++
    c.news.map .news
  have quiet : ∀ e ∈ notedAt time rest, e.2 ≠ .started ∧ e.2.isFrame = false := by
    intro e mem
    obtain ⟨cue, told, rfl⟩ := List.mem_map.1 (List.mem_reverse.1 mem)
    rcases List.mem_append.1 told with tick | news
    · obtain ⟨_, -, rfl⟩ := List.mem_map.1 tick
      exact ⟨nofun, rfl⟩
    · obtain ⟨_, -, rfl⟩ := List.mem_map.1 news
      exact ⟨nofun, rfl⟩
  have cues : notedAt time (c.cues curves followers) ++ log =
      notedAt time rest ++ (time, .frame c.frame) :: log := by
    simp [notedAt, Clock.cues, rest]
  obtain ⟨last, punctual⟩ := @segment_of_quiet ((time, .frame c.frame) :: log) _ quiet period
  rw [cues, last, punctual]
  exact ⟨by rw [lastSegment, segment]; rfl, fun due before => ⟨⟨start, n, segment, due⟩, before⟩⟩

end Log

namespace Reel

variable {curves : Curves} {followers : List (Ref .behaviour × Easing)} {now : Nat} {r r' : Reel}

/-- What can happen to a reel at a time. -/
inductive Step (curves : Curves) (followers : List (Ref .behaviour × Easing)) (now : Nat)
    (r : Reel) :
    Reel → Prop
  | start (idle : r.mode = .idle) :
      Step curves followers now r ⟨r.clock.setOut, .playing now 0, (now, .started) :: r.log⟩
  | pause : Step curves followers now r { r with mode := .idle }
  | frame {start n : Nat} (playing : r.mode = .playing start n)
      (due : now = start + (n + 1) * r.clock.period) :
      Step curves followers now r
        ⟨r.clock.further 1,
          if (r.clock.further 1).isComplete then .idle else .playing start (n + 1),
          notedAt now ((r.clock.further 1).cues curves followers) ++ r.log⟩

/-- What comes of a reel by the next frame, which is played when it is due. -/
def framed (curves : Curves) (followers : List (Ref .behaviour × Easing)) (r : Reel)
    (start n : Nat) : Reel :=
  ⟨r.clock.further 1,
    if (r.clock.further 1).isComplete then .idle else .playing start (n + 1),
    notedAt (start + (n + 1) * r.clock.period) ((r.clock.further 1).cues curves followers) ++ r.log⟩

/-- Reels on which frames can be played: none of them repeats, as long as one is being played frames
are left, and by the next frame it becomes another one of them. -/
structure Playable (curves : Curves) (followers : List (Ref .behaviour × Easing))
    (reels : Reel → Prop) : Prop where
  single : ∀ {r}, reels r → r.clock.repeats = false
  left : ∀ {r start n}, reels r → r.mode = .playing start n → 0 < r.clock.remaining
  framed : ∀ {r start n}, reels r → r.mode = .playing start n →
    reels (r.framed curves followers start n)

/-- What comes of a reel that begins with a given clock and is not being played. -/
inductive Runs (c : Clock) (curves : Curves) (followers : List (Ref .behaviour × Easing)) :
    Reel → Prop
  | opening : Runs c curves followers ⟨c, .idle, []⟩
  | step {now : Nat} {r r' : Reel} (h : Runs c curves followers r)
      (step : r.Step curves followers now r') :
      Runs c curves followers r'

/-- A reel that comes of one that began with a given clock: so far some frames of its run have been
played, or all of them and perhaps others after them. -/
structure Sound (c : Clock) (curves : Curves) (followers : List (Ref .behaviour × Easing))
    (r : Reel) : Prop where
  settings : c.SameSettings r.clock
  punctual : Punctual c.period r.log
  segment : ∀ start n, r.mode = .playing start n →
    lastSegment r.log = some (start, n) ∧ 0 < r.clock.remaining
  content : (∃ j < c.setOut.remaining,
      Animation.played r.log = c.setOut.cuesOf curves followers j ∧
      (r.clock = c.setOut.further j ∨ j = 0 ∧ r.clock = c ∧ r.mode = .idle)) ∨
    c.setOut.cuesOf curves followers c.setOut.remaining <+: Animation.played r.log

namespace Sound

variable {c : Clock}

theorem opening (c : Clock) (curves : Curves) (followers : List (Ref .behaviour × Easing)) :
    Sound c curves followers ⟨c, .idle, []⟩ where
  settings := rfl
  punctual := trivial
  segment _ _ playing := nomatch playing
  content := .inl ⟨0, c.remaining_setOut, rfl, .inr ⟨rfl, rfl, rfl⟩⟩

theorem start (h : Sound c curves followers r) (now : Nat) :
    Sound c curves followers ⟨r.clock.setOut, .playing now 0, (now, .started) :: r.log⟩ where
  settings := h.settings.trans r.clock.sameSettings_setOut
  punctual := h.punctual
  segment _ _ playing := by
    cases playing
    exact ⟨rfl, r.clock.remaining_setOut⟩
  content := by
    rw [played_started]
    refine h.content.imp_left fun ⟨j, lt, same, at_frame⟩ => ⟨j, lt, same, .inl ?_⟩
    rcases at_frame with further | ⟨rfl, unmoved, -⟩
    · have incomplete : (c.setOut.further j).isComplete = false := by
        rw [Clock.isComplete_eq, decide_eq_false_iff_not, Clock.remaining_further]
        omega
      show r.clock.setOut = _
      rw [further, Clock.setOut, incomplete, if_neg Bool.false_ne_true]
    · show r.clock.setOut = _
      rw [unmoved, Clock.further_zero]

theorem pause (h : Sound c curves followers r) :
    Sound c curves followers { r with mode := .idle } where
  settings := h.settings
  punctual := h.punctual
  segment _ _ playing := nomatch playing
  content := h.content.imp_left fun ⟨j, lt, same, at_frame⟩ =>
    ⟨j, lt, same, at_frame.imp_right fun ⟨first, unmoved, _⟩ => ⟨first, unmoved, rfl⟩⟩

theorem frame (h : Sound c curves followers r) {start n : Nat}
    (playing : r.mode = .playing start n)
    (due : now = start + (n + 1) * r.clock.period) :
    Sound c curves followers ⟨r.clock.further 1,
      if (r.clock.further 1).isComplete then .idle else .playing start (n + 1),
      notedAt now ((r.clock.further 1).cues curves followers) ++ r.log⟩ := by
  obtain ⟨segment, left⟩ := h.segment start n playing
  have next := @segment_notedAt _ now (r.clock.further 1) curves followers _ _ segment c.period
  have told : Animation.played (notedAt now ((r.clock.further 1).cues curves followers) ++ r.log) =
      Animation.played r.log ++ (r.clock.further 1).cues curves followers := by
    rw [played_append, played_notedAt]
  refine ⟨h.settings.trans (r.clock.sameSettings_further 1), ?_, fun start' n' going => ?_, ?_⟩
  · rw [h.settings.period] at due
    exact next.2 due h.punctual
  · dsimp only at going
    split at going
    · exact nomatch going
    · next incomplete =>
        cases going
        rw [Clock.isComplete_eq, decide_eq_true_iff] at incomplete
        exact ⟨next.1, Nat.pos_of_ne_zero incomplete⟩
  · rw [told]
    rcases h.content with ⟨j, lt, same, at_frame⟩ | all
    · rcases at_frame with further | ⟨-, -, idle⟩
      · -- One more frame of the run has been played, which may have been the last one.
        have cues : Animation.played r.log ++ (r.clock.further 1).cues curves followers =
            c.setOut.cuesOf curves followers (j + 1) := by
          rw [same, further, Clock.further_further, Clock.cuesOf_succ]
        rw [cues, further, Clock.further_further]
        rcases Nat.lt_or_ge (j + 1) c.setOut.remaining with within | last
        · exact .inl ⟨j + 1, within, rfl, .inl rfl⟩
        · rw [Nat.le_antisymm last lt]
          exact .inr (List.prefix_refl _)
      · rw [idle] at playing
        exact nomatch playing
    · exact .inr (all.trans (List.prefix_append ..))

/-- Whatever happens to a reel, it stays sound. -/
theorem step (h : Sound c curves followers r) (step : r.Step curves followers now r') :
    Sound c curves followers r' := by
  cases step with
  | start _ => exact h.start now
  | pause => exact h.pause
  | frame playing due => exact h.frame playing due

end Sound

theorem Runs.sound {c : Clock} (h : Runs c curves followers r) : Sound c curves followers r := by
  induction h with
  | opening => exact .opening c curves followers
  | step _ step ih => exact ih.step step

theorem Runs.playable {c : Clock} (single : c.repeats = false) :
    Playable curves followers (Runs c curves followers) where
  single runs := runs.sound.settings.repeats.trans single
  left runs playing := (runs.sound.segment _ _ playing).2
  framed runs playing := runs.step (.frame playing rfl)

end Reel

end Animation
