/-
# The score of a played timeline

Of all that is on a stage little matters for the question who plays a timeline: which task the
timeline takes for its player, the tasks that were ever spawned to play it, and how often its
start and its pause were announced and a frame of it was played. This is the score of the
timeline. It is sound if the timeline takes for its player the one task that can still play it,
if there is any, and if the announcements tally with the tasks: each start has led to a pause,
or to a task that came to its end by itself, or to the task that plays the timeline now.
-/

import Animation.Proofs.Stage.Handles
import Animation.Stage.Playback
import Animation.Timeline.Event
import Mathlib.Data.List.Nodup

namespace Animation

/-- A task that plays a timeline, and where it stands. -/
structure Player where
  task : Ref .task
  hasEnded : Bool
  isAborted : Bool
  deriving DecidableEq

namespace Player

/-- A player that is going to play a frame some time, unless it is aborted. -/
def isActive (p : Player) : Bool := !p.hasEnded && !p.isAborted

/-- A player that came to its end without having been aborted. -/
def isPlayedOut (p : Player) : Bool := p.hasEnded && !p.isAborted

/-- Tell a player to end, unless it has ended. -/
def abort (p : Player) : Player := { p with isAborted := p.isAborted || !p.hasEnded }

/-- End a player. -/
def finish (p : Player) : Player := { p with hasEnded := true }

/-- Change a player if it is the given task. -/
def modify (k : Ref .task) (f : Player → Player) (p : Player) : Player :=
  if p.task = k then f p else p

theorem modify_id (k : Ref .task) : modify k id = id := funext fun _ => ite_self _

end Player

/-- The players of a timeline, the one among them that the timeline takes for its player, and
how often its start and its pause were announced and a frame of it was played. -/
structure Score where
  players : List Player
  playback : Option (Ref .task)
  started : Nat
  paused : Nat
  frames : Nat

namespace Score

variable {σ : Score}

/-- Whether the timeline is played. -/
def isPlaying (σ : Score) : Bool := σ.players.any (·.isActive)

/-- How many players came to their end by themselves, without having been paused. -/
def playedOut (σ : Score) : Nat := σ.players.countP (·.isPlayedOut)

/-- Players are different tasks, the timeline takes the active one for its player and none that
was aborted, and every start that was announced has led to an announced pause or to a player
that was not aborted. -/
structure Sound (σ : Score) : Prop where
  nodup : (σ.players.map (·.task)).Nodup
  current : ∀ k, σ.playback = some k → ∃ p ∈ σ.players, p.task = k ∧ p.isAborted = false
  only : ∀ p ∈ σ.players, p.isActive = true → σ.playback = some p.task
  balance : σ.started = σ.paused + σ.players.countP (!·.isAborted)

/-- An event is announced. -/
def announce (σ : Score) : TimelineEvent → Score
  | .started => { σ with started := σ.started + 1 }
  | .paused => { σ with paused := σ.paused + 1 }
  | _ => σ

/-- A start is announced, and a task is spawned and taken for the player. -/
def launch (σ : Score) (k : Ref .task) : Score :=
  { σ with
    players := σ.players ++ [⟨k, false, false⟩]
    playback := some k
    started := σ.started + 1 }

/-- The player is told to end, which is announced if it could still play. -/
def pause (σ : Score) (k : Ref .task) : Score :=
  { σ with
    players := σ.players.map (Player.modify k .abort)
    playback := none
    paused := σ.paused + σ.isPlaying.toNat }

/-- The player is told to end, if there is one. -/
def halt (σ : Score) : Score :=
  match σ.playback with
  | some k => σ.pause k
  | none => σ

/-- A player ends. -/
def finish (σ : Score) (k : Ref .task) : Score :=
  { σ with players := σ.players.map (Player.modify k .finish) }

/-- A frame is played. -/
def advance (σ : Score) : Score := { σ with frames := σ.frames + 1 }

theorem map_task_modify {k : Ref .task} {f : Player → Player} (h : ∀ p, (f p).task = p.task)
    (players : List Player) :
    (players.map (Player.modify k f)).map (·.task) = players.map (·.task) := by
  rw [List.map_map]
  apply List.map_congr_left
  intro p _
  show (if p.task = k then f p else p).task = p.task
  split
  · exact h p
  · rfl

/-- If only one player is active then it is the only one that can be told to end. -/
theorem countP_abort {k : Ref .task} {players : List Player}
    (only : ∀ p ∈ players, p.isActive = true → p.task = k) :
    (players.map (Player.modify k .abort)).countP (!·.isAborted) + players.countP (·.isActive) =
      players.countP (!·.isAborted) := by
  induction players with
  | nil => rfl
  | cons p rest ih =>
      have others := ih fun q mem => only q (List.mem_cons_of_mem _ mem)
      have first : (if !(p.modify k .abort).isAborted then 1 else 0) +
          (if p.isActive then 1 else 0) = if !p.isAborted then 1 else 0 := by
        have first := only p (List.mem_cons_self ..)
        obtain ⟨task, ended, aborted⟩ := p
        by_cases own : task = k
        · cases ended <;> cases aborted <;> simp [Player.modify, own, Player.abort, Player.isActive]
        · cases ended <;> cases aborted <;> simp_all [Player.modify, Player.isActive]
      simp only [List.map_cons, List.countP_cons]
      omega

namespace Sound

variable (h : σ.Sound)

include h

theorem eq_of_task_eq {p q : Player} (hp : p ∈ σ.players) (hq : q ∈ σ.players)
    (same : p.task = q.task) : p = q :=
  List.inj_on_of_nodup_map h.nodup hp hq same

theorem eq_of_isActive {p q : Player} (hp : p ∈ σ.players) (hq : q ∈ σ.players)
    (active : p.isActive = true) (active' : q.isActive = true) : p = q :=
  h.eq_of_task_eq hp hq (Option.some.inj ((h.only p hp active).symm.trans (h.only q hq active')))

theorem countP_isActive : σ.players.countP (·.isActive) = σ.isPlaying.toNat := by
  cases playing : σ.isPlaying with
  | false =>
      rw [isPlaying, List.any_eq_false] at playing
      exact List.countP_eq_zero.2 playing
  | true =>
      obtain ⟨p, mem, active⟩ := List.any_eq_true.1 playing
      have unique : σ.players.countP (·.isActive) = σ.players.countP (· = p) := by
        apply List.countP_congr
        intro q mem'
        rw [decide_eq_true_iff]
        exact ⟨fun active' => h.eq_of_isActive mem' mem active' active, fun same => same ▸ active⟩
      have count : σ.players.countP (· = p) = σ.players.count p := by
        unfold List.count
        congr 1
      rw [unique, count, List.count_eq_one_of_mem (.of_map _ h.nodup) mem]
      rfl

/-- The announcements tally with the players. -/
theorem tally : σ.started = σ.paused + σ.playedOut + σ.isPlaying.toNat := by
  have split : σ.players.countP (!·.isAborted) =
      σ.players.countP (·.isPlayedOut) + σ.players.countP (·.isActive) := by
    induction σ.players with
    | nil => rfl
    | cons p rest ih =>
        cases ended : p.hasEnded <;> cases aborted : p.isAborted <;>
          simp [Player.isPlayedOut, Player.isActive, ended, aborted, ih] <;> omega
  rw [h.balance, split, h.countP_isActive, playedOut, Nat.add_assoc]

theorem launch {k : Ref .task} (idle : σ.isPlaying = false) (new : k ∉ σ.players.map (·.task)) :
    (σ.launch k).Sound where
  nodup := by
    simp only [Score.launch, List.map_append, List.map_cons, List.map_nil]
    exact h.nodup.append (List.nodup_singleton k) (List.disjoint_singleton.2 new)
  current _ taken := by
    cases taken
    exact ⟨⟨k, false, false⟩, by simp [Score.launch], rfl, rfl⟩
  only p mem active := by
    simp only [Score.launch, List.mem_append, List.mem_singleton] at mem
    rcases mem with mem | rfl
    · exact absurd active (List.any_eq_false.1 idle p mem)
    · rfl
  balance := by
    have balance := h.balance
    simp only [Score.launch, List.countP_append]
    show _ = _ + (_ + 1)
    omega

theorem pause {k : Ref .task} (taken : σ.playback = some k) : (σ.pause k).Sound where
  nodup := by
    rw [Score.pause, map_task_modify (f := .abort) fun _ => rfl]
    exact h.nodup
  current _ taken := nomatch taken
  only p mem active := by
    obtain ⟨q, hq, rfl⟩ := List.mem_map.1 mem
    by_cases own : q.task = k
    · rw [Player.modify, if_pos own] at active
      cases ended : q.hasEnded <;> simp [Player.isActive, Player.abort, ended] at active
    · rw [Player.modify, if_neg own] at active
      have same := h.only q hq active
      rw [taken, Option.some.injEq] at same
      exact absurd same.symm own
  balance := by
    have balance := h.balance
    have only : ∀ p ∈ σ.players, p.isActive = true → p.task = k := fun p mem active =>
      Option.some.inj ((h.only p mem active).symm.trans taken)
    have told := countP_abort only
    rw [h.countP_isActive] at told
    simp only [Score.pause]
    omega

theorem finish (k : Ref .task) : (σ.finish k).Sound where
  nodup := by
    rw [Score.finish, map_task_modify (f := .finish) fun _ => rfl]
    exact h.nodup
  current j taken := by
    obtain ⟨p, mem, same, unaborted⟩ := h.current j taken
    refine ⟨p.modify k .finish, List.mem_map_of_mem mem, ?_⟩
    unfold Player.modify
    split <;> exact ⟨same, unaborted⟩
  only p mem active := by
    obtain ⟨q, hq, rfl⟩ := List.mem_map.1 mem
    by_cases own : q.task = k
    · rw [Player.modify, if_pos own] at active
      simp [Player.isActive, Player.finish] at active
    · rw [Player.modify, if_neg own] at active ⊢
      exact h.only q hq active
  balance := by
    rw [Score.finish, List.countP_map]
    apply h.balance.trans
    congr 1
    apply List.countP_congr
    intro p _
    simp only [Function.comp_apply, Player.modify]
    split <;> rfl

theorem advance : σ.advance.Sound := ⟨h.nodup, h.current, h.only, h.balance⟩

end Sound

theorem halt_of_none (untaken : σ.playback = none) : σ.halt = σ := by
  unfold halt
  rw [untaken]

theorem halt_of_some {k : Ref .task} (taken : σ.playback = some k) : σ.halt = σ.pause k := by
  unfold halt
  rw [taken]

theorem started_halt (σ : Score) : σ.halt.started = σ.started := by
  unfold halt
  split <;> rfl

theorem frames_halt (σ : Score) : σ.halt.frames = σ.frames := by
  unfold halt
  split <;> rfl

namespace Sound

variable (h : σ.Sound)

include h

theorem isPlaying_eq_false (untaken : σ.playback = none) : σ.isPlaying = false := by
  apply List.any_eq_false.2
  intro p mem active
  exact nomatch untaken.symm.trans (h.only p mem active)

theorem halt : σ.halt.Sound := by
  cases taken : σ.playback with
  | none =>
      rw [halt_of_none taken]
      exact h
  | some k =>
      rw [halt_of_some taken]
      exact h.pause taken

theorem isPlaying_halt : σ.halt.isPlaying = false := by
  apply h.halt.isPlaying_eq_false
  cases taken : σ.playback with
  | none => rw [halt_of_none taken, taken]
  | some k =>
      rw [halt_of_some taken]
      rfl

end Sound

theorem isPlaying_launch (σ : Score) (k : Ref .task) : (σ.launch k).isPlaying = true := by
  apply List.any_eq_true.2
  exact ⟨⟨k, false, false⟩, List.mem_append_right _ (List.mem_singleton_self _), rfl⟩

theorem isPlaying_finish (idle : σ.isPlaying = false) (k : Ref .task) :
    (σ.finish k).isPlaying = false := by
  apply List.any_eq_false.2
  intro p mem
  obtain ⟨q, hq, rfl⟩ := List.mem_map.1 mem
  unfold Player.modify
  split
  · simp [Player.isActive, Player.finish]
  · exact List.any_eq_false.1 idle q hq

end Score

end Animation
