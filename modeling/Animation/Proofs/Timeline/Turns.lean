/-
# Whose turn it is during a frame

A frame goes through the entries that its timeline has when the ticks begin, and each entry
has its turn. What callbacks do meanwhile is seen by the turns that are still to come: a
behaviour that has lost its binding or is gone by then is left out, and the others are driven
to the alpha that they have at that moment.

As long as an entry is on record that alpha follows the timeline. It need not if the behaviour
was bound anew earlier in the frame, as the last case here shows: such a behaviour is driven
once more on behalf of the timeline that it has left.
-/

import Animation.Proofs.Stage.Reachable

namespace Animation

/-- The alpha to which a behaviour is driven when it is ticked: the one that it is bound to, if
it is there. -/
def Stage.tickedTo? (s : Stage) (b : Ref .behaviour) : Option (Ref .alpha) :=
  if s.isAlive (.behaviour b) then s.boundAlpha? (s.coreOf b) else none

namespace Stage.Rehandled

variable {s s' : Stage} (h : s.Rehandled s')

include h

theorem boundAlpha? (c : Ref .core) : s'.boundAlpha? c = s.boundAlpha? c := by
  rw [Stage.boundAlpha?, h.binding, Stage.boundAlpha?]

theorem alphaValue (curves : Curves) (a : Ref .alpha) :
    s'.alphaValue curves a = s.alphaValue curves a := by
  obtain ⟨n, alpha⟩ := h.alpha a
  obtain ⟨m, timeline⟩ := h.timeline (s.alphas.get a).timeline
  unfold Stage.alphaValue Stage.clockOf
  rw [alpha, timeline]

end Stage.Rehandled

namespace Script

variable {υ : Type} (host : Host υ)

/-- The turn of an entry. The answer is the number of the entry if its behaviour is gone. -/
def turn (entry : Attachment) : Script υ (Option Nat) := do
  if (← stage).isAlive (.behaviour entry.behaviour) then
    holding [.behaviour entry.behaviour] (tick host entry.behaviour)
    return none
  else return some entry.id

/-- A round of ticks is one turn after another. -/
theorem run_tickEach_cons (entry : Attachment) (rest : List Attachment) (w : World υ) :
    (tickEach host (entry :: rest)).run w =
      (turn host entry >>= fun gone => do return gone.toList ++ (← tickEach host rest)).run w := by
  unfold turn
  rw [tickEach, run_stage_bind, bind_assoc, run_stage_bind]
  by_cases alive : w.stage.isAlive (.behaviour entry.behaviour) = true
  · simp only [alive, if_true, bind_assoc, pure_bind]
    show _ = (holding [.behaviour entry.behaviour] (tick host entry.behaviour) >>= fun _ =>
      (tickEach host rest >>= fun others => pure ([] ++ others))).run w
    simp
  · simp only [alive]
    rfl

/-- Strike off the entries of the given numbers, if any. -/
def strike (t : Ref .timeline) : List Nat → Script υ Unit
  | [] => pure ()
  | gone => do
      note (.pruned t gone.length)
      change (·.detach t gone)

theorem tickAttached_eq (t : Ref .timeline) :
    tickAttached host t =
      (stage >>= fun s => tickEach host (s.attachments t) >>= strike t : Script υ Unit) := rfl

/-- Entries have their turns one after another, those that were found to be gone are struck off, and
the frame concludes. -/
def takeTurns (t : Ref .timeline) (played : Clock) (entries : List Attachment) :
    Script υ Bool := do
  let answers ← entries.mapM (turn host)
  strike t (answers.filterMap id)
  concludeFrame host t played

/-- A round of ticks is a round of turns, and answers which entries were found to be gone. -/
theorem tickEach_eq (entries : List Attachment) :
    tickEach host entries =
      entries.mapM (turn host) >>= fun answers => pure (answers.filterMap id) := by
  induction entries with
  | nil => rfl
  | cons entry rest ih =>
      have first : tickEach host (entry :: rest) =
          turn host entry >>= fun gone => do return gone.toList ++ (← tickEach host rest) :=
        funext (run_tickEach_cons host entry rest)
      rw [first, ih, List.mapM_cons, bind_assoc]
      congr 1
      funext gone
      cases gone <;> simp

/-- The entries of a round, each with the world in which its turn comes. -/
def turns : List Attachment → World υ → List (Attachment × World υ)
  | [], _ => []
  | entry :: rest, w =>
      (entry, w) ::
        match (turn host entry).run w with
        | (.ok _, w') => turns rest w'
        | (.error _, _) => []

/-- The turn of an entry comes where those of the entries before it have ended. -/
theorem mem_turns_iff {entries : List Attachment} {entry : Attachment} {w v : World υ} :
    (entry, v) ∈ turns host entries w ↔ ∃ before after answers,
      entries = before ++ entry :: after ∧
        (before.mapM (turn host)).run w = (.ok answers, v) := by
  induction entries generalizing w with
  | nil => simp [turns]
  | cons first rest ih =>
      rw [turns, List.mem_cons]
      constructor
      · rintro (here | later)
        · cases here
          exact ⟨[], rest, [], rfl, rfl⟩
        · split at later
          · next answer w' ran =>
              obtain ⟨before, after, answers, rfl, run⟩ := ih.1 later
              refine ⟨first :: before, after, answer :: answers, rfl, ?_⟩
              rw [List.mapM_cons, run_bind_of_ok ran, run_bind_of_ok run]
              rfl
          · exact nomatch later
      · rintro ⟨before, after, answers, parts, run⟩
        cases before with
        | nil =>
            cases parts
            cases run
            exact .inl rfl
        | cons _ before =>
            cases parts
            rw [List.mapM_cons] at run
            obtain ⟨answer, w', ran, run⟩ := exists_of_run_bind_eq_ok run
            obtain ⟨answers', w'', run, last⟩ := exists_of_run_bind_eq_ok run
            cases last
            rw [ran]
            exact .inr (ih.2 ⟨before, after, answers', rfl, run⟩)

end Script

/-- The world when a frame has been moved to and nobody knows yet. -/
def movedTo {υ : Type} (t : Ref .timeline) (played : Clock) (w : World υ) : World υ :=
  { w with stage := (w.stage.setClock t played).note (.moved t played.frame played.frames) }

theorem attachments_movedTo {υ : Type} (t : Ref .timeline) (played : Clock) (w : World υ) :
    (movedTo t played w).stage.attachments t = w.stage.attachments t :=
  Table.proj_get_modify _ t t (g := Timeline.attachments) fun _ => rfl

namespace Script

variable {υ : Type} {host : Host υ} {t : Ref .timeline} {w : World υ}

theorem run_nextFrame_of_isOver (last : (w.stage.clock t).isOver = true) :
    (nextFrame host t).run w = (.ok false, w) := by
  simp [nextFrame, last]

theorem run_nextFrame_of_step_error (going : (w.stage.clock t).isOver = false) {cause : Violation}
    (step : (w.stage.clock t).step = .error cause) :
    (nextFrame host t).run w = (.error (.violation cause), w) := by
  simp [nextFrame, going, run_check_error_bind step]

theorem run_nextFrame_of_step (going : (w.stage.clock t).isOver = false) {played : Clock}
    (step : (w.stage.clock t).step = .ok played) :
    (nextFrame host t).run w =
      (tickAttached host t >>= fun _ => concludeFrame host t played).run (movedTo t played w) := by
  simp [nextFrame, going, run_check_ok_bind step, movedTo]

variable (host t w)

/-- The turns of the next frame of a timeline, if there is one. -/
def turnsOfFrame : List (Attachment × World υ) :=
  let clock := w.stage.clock t
  if clock.isOver then []
  else
    match clock.step with
    | .ok played => turns host (w.stage.attachments t) (movedTo t played w)
    | .error _ => []

/-- The next frame of a timeline is its turns, and what follows them. -/
structure FrameInTurns : Prop where
  /-- If no frame is played then it is nobody's turn, and all is left as it was. -/
  idle : (∀ played, (w.stage.clock t).isOver = false → (w.stage.clock t).step ≠ .ok played) →
    turnsOfFrame host t w = [] ∧ ((nextFrame host t).run w).2 = w
  /-- The entries of the timeline have their turns, each in the world in which those before it have
  ended, and nothing else happens until all of them are over. -/
  played : ∀ played, (w.stage.clock t).isOver = false → (w.stage.clock t).step = .ok played →
    (nextFrame host t).run w =
        (takeTurns host t played (w.stage.attachments t)).run (movedTo t played w) ∧
      ∀ entry v, (entry, v) ∈ turnsOfFrame host t w ↔ ∃ before after answers,
        w.stage.attachments t = before ++ entry :: after ∧
          (before.mapM (turn host)).run (movedTo t played w) = (.ok answers, v)

theorem frameInTurns : FrameInTurns host t w where
  idle still := by
    cases going : (w.stage.clock t).isOver with
    | true => exact ⟨by simp [turnsOfFrame, going], by rw [run_nextFrame_of_isOver going]⟩
    | false =>
        cases step : (w.stage.clock t).step with
        | ok played => exact absurd step (still played going)
        | error cause =>
            exact ⟨by simp [turnsOfFrame, going, step], by
              rw [run_nextFrame_of_step_error going step]⟩
  played played going step := by
    constructor
    · simp [run_nextFrame_of_step going step, tickAttached_eq, attachments_movedTo, tickEach_eq,
        takeTurns]
    · intro entry v
      have these : turnsOfFrame host t w =
          turns host (w.stage.attachments t) (movedTo t played w) := by
        simp [turnsOfFrame, going, step]
      rw [these]
      exact mem_turns_iff host

/-- What a behaviour is driven to does not depend on who has handles on what. -/
theorem run_tick_of_bound {w : World υ} {b : Ref .behaviour} {s : Stage}
    (same : s.Rehandled w.stage) {a : Ref .alpha} (bound : s.boundAlpha? (s.coreOf b) = some a) :
    (tick host b).run w = (holding [.alpha a] do
      note (.ticked b (s.alphaValue host.curves a))
      drive host b (s.alphaValue host.curves a)).run w := by
  rw [← same.boundAlpha?, ← same.coreOf, Stage.coreOf] at bound
  rw [← same.alphaValue]
  simp [tick, bound]

theorem run_tick_of_unbound {w : World υ} {b : Ref .behaviour} {s : Stage}
    (same : s.Rehandled w.stage) (unbound : s.boundAlpha? (s.coreOf b) = none) :
    (tick host b).run w = (.ok (), w) := by
  rw [← same.boundAlpha?, ← same.coreOf, Stage.coreOf] at unbound
  simp [tick, unbound]

variable {host t w} {entry : Attachment}

theorem run_turn_of_gone (gone : ¬ w.stage.isAlive (.behaviour entry.behaviour)) :
    (turn host entry).run w = (.ok (some entry.id), w) := by
  simp [turn, gone]

theorem run_turn_of_alive (alive : w.stage.isAlive (.behaviour entry.behaviour)) :
    (turn host entry).run w =
      (holding [.behaviour entry.behaviour] (tick host entry.behaviour) >>= fun _ =>
        pure none).run w := by
  simp [turn, alive]

/-- In its turn a behaviour that is there and bound is driven to the value of its alpha. -/
theorem run_turn_of_tickedTo {a : Ref .alpha}
    (ticked : w.stage.tickedTo? entry.behaviour = some a) :
    (turn host entry).run w = (do
      holding [.behaviour entry.behaviour] do
        holding [.alpha a] do
          note (.ticked entry.behaviour (w.stage.alphaValue host.curves a))
          drive host entry.behaviour (w.stage.alphaValue host.curves a)
      return none).run w := by
  unfold Stage.tickedTo? at ticked
  split at ticked
  · next alive =>
      have tick := run_tick_of_bound host
        (w := { w with stage := w.stage.retainAll [.behaviour entry.behaviour] })
        (w.stage.rehandled_retainAll _) ticked
      rw [run_turn_of_alive alive, run_bind, run_bind, run_holding, run_holding, run_thenTidy,
        run_thenTidy, tick]
  · exact nomatch ticked

/-- In the turn of a behaviour that is gone or not bound nothing happens, except that a handle
on it is taken and given up if it is there. -/
theorem run_turn_of_not_ticked (unticked : w.stage.tickedTo? entry.behaviour = none) :
    ∃ s gone, w.stage.Rehandled s ∧
      (turn host entry).run w = (.ok gone, { w with stage := s }) := by
  by_cases alive : w.stage.isAlive (.behaviour entry.behaviour) = true
  · unfold Stage.tickedTo? at unticked
    rw [if_pos alive] at unticked
    have retained := w.stage.rehandled_retainAll [.behaviour entry.behaviour]
    have tick := run_tick_of_unbound host
      (w := { w with stage := w.stage.retainAll [.behaviour entry.behaviour] }) retained unticked
    refine ⟨_, none, retained.trans (Stage.rehandled_releaseAll _ [.behaviour entry.behaviour]), ?_⟩
    rw [run_turn_of_alive alive, run_bind, run_holding, run_thenTidy, tick]
    rfl
  · exact ⟨w.stage, some entry.id, .refl _, run_turn_of_gone alive⟩

/-! ## The turns of a frame -/

section Passing

variable {pages : υ → List Stage} (hh : host.Passing pages)

include hh

theorem passes_turn (entry : Attachment) (w : World υ) : (turn host entry).Passes pages w := by
  apply passes_stage_bind
  split
  · next alive => exact passes_bind (hh.holdingTick w alive) fun _ _ _ _ => passes_pure _
  · exact passes_pure _

/-- When a turn comes, what has happened since the round began was made of single steps. -/
theorem passages_of_mem_turns {entries : List Attachment} {v : World υ} (tied : w.stage.Tied)
    (mem : (entry, v) ∈ turns host entries w) : entry ∈ entries ∧ w.Passages pages v := by
  induction entries generalizing w with
  | nil => exact nomatch mem
  | cons first rest ih =>
      rw [turns] at mem
      rcases List.mem_cons.1 mem with here | later
      · cases here
        exact ⟨List.mem_cons_self .., .refl⟩
      · have passed := passes_turn hh first w tied
        rcases run : (turn host first).run w with ⟨_ | _, w'⟩
        · rw [run] at later
          exact nomatch later
        · rw [run] at later passed
          have others := ih (passed.keeps Stage.Move.tied tied) later
          exact ⟨List.mem_cons_of_mem _ others.1, passed.trans others.2⟩

end Passing

/-- If it is somebody's turn then a frame is played, and the turn comes where those before it have
ended. -/
theorem exists_of_mem_turnsOfFrame {entry : Attachment} {v : World υ}
    (turn : (entry, v) ∈ turnsOfFrame host t w) :
    ∃ played, (w.stage.clock t).step = .ok played ∧
      (entry, v) ∈ turns host (w.stage.attachments t) (movedTo t played w) := by
  unfold turnsOfFrame at turn
  dsimp only at turn
  split at turn
  · exact nomatch turn
  split at turn
  · next played step => exact ⟨played, step, turn⟩
  · exact nomatch turn

theorem moves_movedTo {played : Clock} (step : (w.stage.clock t).step = .ok played) :
    w.stage.Moves (movedTo t played w).stage :=
  .tail (.single (.turn (.step step))) (.note _)

end Script

/-- A frame is a turn of each entry, one after another, and what follows them. In each turn the
behaviour of the entry is driven just if it is there and bound at that moment, and then to the value
of the alpha that it has at that moment. This alpha follows the timeline unless the entry was struck
off earlier in the frame. -/
theorem Stage.Reachable.driven_in_turn {υ : Type} {pages : υ → List Stage} {w : World υ}
    (h : w.stage.Reachable) {host : Host υ}
    (notified : ∀ callback change, Script.Course pages (host.notified callback change))
    (called : ∀ callback payload, Script.Course pages (host.called callback payload))
    (driven : ∀ callback alpha, Script.Course pages (host.driven callback alpha))
    (reacts : ∀ a call, Script.Course pages (host.reacts a call))
    {t : Ref .timeline} {entry : Attachment} {v : World υ}
    (turn : (entry, v) ∈ Script.turnsOfFrame host t w) :
    Script.FrameInTurns host t w ∧ entry ∈ w.stage.attachments t ∧
      (∀ a, v.stage.tickedTo? entry.behaviour = some a →
        (Script.turn host entry).run v = (do
          Script.holding [.behaviour entry.behaviour] do
            Script.holding [.alpha a] do
              Script.note (.ticked entry.behaviour (v.stage.alphaValue host.curves a))
              Script.drive host entry.behaviour (v.stage.alphaValue host.curves a)
          return none).run v ∧
        (entry ∈ v.stage.attachments t → v.stage.timelineOf a = t)) ∧
      (v.stage.tickedTo? entry.behaviour = none →
        ∃ s gone, v.stage.Rehandled s ∧
          (Script.turn host entry).run v = (.ok gone, { v with stage := s })) := by
  have hh : Host.Passing pages host := ⟨fun callback change => (notified callback change).passes,
    fun callback payload => (called callback payload).passes,
    fun callback alpha => (driven callback alpha).passes, fun a call => (reacts a call).passes⟩
  obtain ⟨played, step, turn⟩ := Script.exists_of_mem_turnsOfFrame turn
  have tied := (Script.moves_movedTo step).keeps Stage.Move.tied h.tied
  obtain ⟨mem, passed⟩ := Script.passages_of_mem_turns hh tied turn
  refine ⟨Script.frameInTurns host t w, mem, fun a ticked =>
    ⟨Script.run_turn_of_tickedTo ticked, fun recorded => ?_⟩, Script.run_turn_of_not_ticked⟩
  have tied := passed.keeps Stage.Move.tied tied
  unfold Stage.tickedTo? at ticked
  split at ticked
  · next alive =>
      obtain ⟨a', bound, follows⟩ := tied.bound recorded alive
      obtain ⟨_, bound', rfl⟩ := Option.map_eq_some_iff.1 ticked
      unfold Stage.bindingOf at bound
      cases bound.symm.trans bound'
      exact follows
  · exact nomatch ticked

namespace Stage

/-- Two timelines, an alpha of each, and two behaviours that follow the first of them. -/
def rehearsing : Script Unit Unit := do
  let _ ← Script.owning [] (Script.produce (·.addTimeline 1000))
  let _ ← Script.owning [] (Script.produce (·.addTimeline 1000))
  let _ ← Script.owning [.timeline ⟨0⟩] (Script.produce (·.addAlpha ⟨0⟩ .rampInc))
  let _ ← Script.owning [.timeline ⟨1⟩] (Script.produce (·.addAlpha ⟨1⟩ .rampInc))
  let _ ← Script.owning [.alpha ⟨0⟩] (Script.makeCustom (.silent Unit) 0 (some ⟨0⟩))
  let _ ← Script.owning [.alpha ⟨0⟩] (Script.makeCustom (.silent Unit) 1 (some ⟨0⟩))

/-- What is left when the two behaviours follow the first timeline. -/
def rehearsed : World Unit := (rehearsing.run ⟨.empty true, ()⟩).2

theorem reachable_rehearsed : rehearsed.stage.Reachable := by
  unfold rehearsed
  exact Arises.reachable (@Arises.course _ (fun _ => []) _ _ _ (.opening true rfl)
    (.bind (.offered (.addTimeline 1000)) fun _ =>
      .bind (.offered (.addTimeline 1000)) fun _ =>
        .bind (.offered (.addAlpha ⟨0⟩ .rampInc)) fun _ =>
          .bind (.offered (.addAlpha ⟨1⟩ .rampInc)) fun _ =>
            .bind (.offered (.makeCustom 0 (some ⟨0⟩))) fun _ =>
              .bind (.offered (.makeCustom 1 (some ⟨0⟩))) fun _ => .pure ()))

/-- The first behaviour binds the second one to the alpha of the other timeline. -/
def luring : Host Unit :=
  { Host.silent Unit with
    driven := fun callback _ =>
      if callback = 0 then do
        let _ ← Script.owning [.behaviour ⟨1⟩, .alpha ⟨1⟩]
          (Script.bindTo (.silent Unit) ⟨1⟩ (some ⟨1⟩))
      else pure () }

theorem course_luring (callback : Callback) (alpha : Nat) :
    Script.Course (fun _ => []) (luring.driven callback alpha) := by
  by_cases first : callback = 0
  · simp only [luring, if_pos first]
    exact .bind (.offered (.bindTo ⟨1⟩ (some ⟨1⟩))) fun _ => .pure ()
  · simp only [luring, if_neg first]
    exact .pure ()

/-- What is seen in the turns of the next frame of the first timeline: whether the entry is on
record, to what alpha its behaviour is driven, and which timeline the second alpha follows. -/
def sightings : List (Bool × Option (Ref .alpha) × Ref .timeline) :=
  (Script.turnsOfFrame luring ⟨0⟩ rehearsed).map fun (entry, v) =>
    (decide (entry ∈ v.stage.attachments ⟨0⟩), v.stage.tickedTo? entry.behaviour,
      v.stage.timelineOf ⟨1⟩)

theorem sightings_eq : sightings = [(true, some ⟨0⟩, ⟨1⟩), (false, some ⟨1⟩, ⟨1⟩)] := by
  decide +kernel

/-- The next frame of the first timeline leads to frame 1. -/
theorem step_rehearsed : (rehearsed.stage.clock ⟨0⟩).isOver = false ∧
    (rehearsed.stage.clock ⟨0⟩).step = .ok { Clock.ofDuration 1000 with frame := 1 } := by
  have clock : rehearsed.stage.clock ⟨0⟩ = .ofDuration 1000 := by decide +kernel
  rw [clock]
  exact ⟨rfl, rfl⟩

/-- The first behaviour is on record when its turn comes, and its alpha follows the timeline. -/
theorem Reachable.driven_in_turn_luring :
    Script.FrameInTurns luring ⟨0⟩ rehearsed ∧
    ∃ entry v, (entry, v) ∈ Script.turnsOfFrame luring ⟨0⟩ rehearsed ∧
      entry ∈ v.stage.attachments ⟨0⟩ ∧ v.stage.tickedTo? entry.behaviour = some ⟨0⟩ ∧
      v.stage.timelineOf ⟨0⟩ = ⟨0⟩ := by
  have first : (true, some ⟨0⟩, ⟨1⟩) ∈ sightings := by simp [sightings_eq]
  obtain ⟨⟨entry, v⟩, mem, seen⟩ := List.mem_map.1 first
  obtain ⟨recorded, ticked, -⟩ : decide (entry ∈ v.stage.attachments ⟨0⟩) = true ∧
      v.stage.tickedTo? entry.behaviour = some ⟨0⟩ ∧ v.stage.timelineOf ⟨1⟩ = ⟨1⟩ := by
    simpa using seen
  rw [decide_eq_true_iff] at recorded
  obtain ⟨frame, -, driven, -⟩ := reachable_rehearsed.driven_in_turn (fun _ _ => .pure ())
    (fun _ _ => .pure 0) course_luring (fun _ _ => .pure ()) mem
  exact ⟨frame, entry, v, mem, recorded, ticked, (driven ⟨0⟩ ticked).2 recorded⟩

/-- The second behaviour is driven by a frame of the first timeline to an alpha of the second
one, to which it was bound earlier in the frame. -/
theorem driven_by_former_timeline :
    ∃ played before entry after answers v,
      (Script.nextFrame luring ⟨0⟩).run rehearsed =
        (Script.takeTurns luring ⟨0⟩ played (before ++ entry :: after)).run
          (movedTo ⟨0⟩ played rehearsed) ∧
      (before.mapM (Script.turn luring)).run (movedTo ⟨0⟩ played rehearsed) = (.ok answers, v) ∧
      (entry, v) ∈ Script.turnsOfFrame luring ⟨0⟩ rehearsed ∧
      entry ∉ v.stage.attachments ⟨0⟩ ∧ v.stage.tickedTo? entry.behaviour = some ⟨1⟩ ∧
      v.stage.timelineOf ⟨1⟩ ≠ ⟨0⟩ := by
  have second : (false, some ⟨1⟩, ⟨1⟩) ∈ sightings := by simp [sightings_eq]
  obtain ⟨⟨entry, v⟩, mem, seen⟩ := List.mem_map.1 second
  obtain ⟨struck, ticked, follows⟩ : decide (entry ∈ v.stage.attachments ⟨0⟩) = false ∧
      v.stage.tickedTo? entry.behaviour = some ⟨1⟩ ∧ v.stage.timelineOf ⟨1⟩ = ⟨1⟩ := by
    simpa using seen
  rw [decide_eq_false_iff_not] at struck
  obtain ⟨frame, comes⟩ :=
    (Script.frameInTurns luring ⟨0⟩ rehearsed).played _ step_rehearsed.1 step_rehearsed.2
  obtain ⟨before, after, answers, parts, run⟩ := (comes entry v).1 mem
  rw [parts] at frame
  refine ⟨_, before, entry, after, answers, v, frame, run, mem, struck, ticked, ?_⟩
  rw [follows]
  decide

end Stage

end Animation
