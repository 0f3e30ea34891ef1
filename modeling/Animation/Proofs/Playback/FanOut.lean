/-
# How a frame is handed on

A frame that is played is handed on to the behaviours that are attached to its timeline: each
that is still there is driven once, in the order of the entries, to the value that its alpha
yields at the new frame, and the entries of those that are gone are struck off. This holds as long
as no callback binds these behaviours anew, gives them up or moves the timeline, whether or not
callbacks come to their end, and whatever else they do.
-/

import Animation.Proofs.Behaviours.Bystanders
import Animation.Proofs.Playback.Loyalty

namespace Animation

namespace Script

variable {υ : Type} (host : Host υ)

/-- A follower of a timeline is driven to what its alpha yields at a frame. It is kept there until
that is over. -/
def present (t : Ref .timeline) (number : Nat) (follower : Ref .behaviour × Ref .alpha) :
    Script υ Unit := do
  let value := (← stage).alphaAt host.curves t number follower.2
  holding [.behaviour follower.1] do
    holding [.alpha follower.2] do
      note (.ticked follower.1 value)
      drive host follower.1 value

theorem run_strike (t : Ref .timeline) (gone : List Nat) (w : World υ) :
    (strike t gone).run w = (.ok (), { w with stage := w.stage.struck t gone }) := by
  cases gone <;> rfl

/-- A frame is handed on: the timeline has moved when the followers are driven, one after another,
and those that are gone are struck off before the news of the frame. -/
def fanOut (t : Ref .timeline) (played : Clock) (followers : List (Ref .behaviour × Ref .alpha))
    (gone : List Nat) : Script υ Bool := do
  change (·.setClock t played)
  note (.moved t played.frame played.frames)
  forEach (present host t played.frame) followers
  strike t gone
  concludeFrame host t played

end Script

namespace Conduct

open Script

variable {υ : Type} {calm : υ → Prop} {origin : Stage} {t : Ref .timeline} {host : Host υ}
  {w : World υ}

/-- In its turn a behaviour that is led by the timeline is presented with the frame. -/
theorem run_turn_of_led {e : Attachment} (alive : w.stage.isAlive (.behaviour e.behaviour) = true)
    {a : Ref .alpha} (led : w.stage.lead? e.behaviour = some (a, t)) {number : Nat}
    (frame : (w.stage.clock t).frame = number) :
    (turn host e).run w =
      (present host t number (e.behaviour, a) >>= fun _ => pure none).run w := by
  obtain ⟨binding, bound, same⟩ := Option.map_eq_some_iff.1 led
  obtain ⟨rfl, follows⟩ := Prod.mk.inj same
  have ticked : w.stage.tickedTo? e.behaviour = some binding.alpha := by
    rw [Stage.tickedTo?, if_pos alive]
    exact congrArg (Option.map (·.alpha)) bound
  unfold present
  rw [run_turn_of_tickedTo ticked, Stage.alphaValue_eq_alphaAt follows frame, bind_assoc,
    run_stage_bind]

section Rounds

variable (hh : (loyal calm origin t).Binds host)

include hh

/-- Whatever comes of presenting a follower with a frame, the rule is observed. -/
theorem observes_present (number : Nat) {b : Ref .behaviour}
    (alive : w.stage.isAlive (.behaviour b) = true) (a : Ref .alpha) :
    (loyal calm origin t).Observes (present host t number (b, a)) w := by
  refine observes_stage_bind fun _ => observes_escorting alive ?_
  exact observes_holding (by simp [Handle.isOnBehaviour])
    (observes_note_bind (follows_note _) (hh.drive _ fun _ a _ => mayAsk_loyal a))

/-- One after another, those that have entries and are there are presented with the frame. -/
theorem observes_forEach_present (number : Nat) {followers : List (Ref .behaviour × Ref .alpha)}
    (attached : ∀ f ∈ followers, w.stage.Attached t f.1) :
    (loyal calm origin t).Observes (forEach (present host t number) followers) w := by
  induction followers generalizing w with
  | nil => exact .refl
  | cons f rest ih =>
      have first := observes_present hh number (attached f (List.mem_cons_self ..)).1 f.2
      exact observes_bind first fun _ w' follows => ih fun f' mem =>
        follows.leaves.attached (attached f' (List.mem_cons_of_mem _ mem))

/-- A round of ticks presents the followers with the frame, and finds the others to be gone. -/
theorem run_tickEach_of_led {entries : List Attachment}
    (own : ∀ e ∈ entries, e ∈ w.stage.attachments t)
    (led : ∀ e ∈ entries, w.stage.isAlive (.behaviour e.behaviour) = true →
      ∃ a, w.stage.lead? e.behaviour = some (a, t))
    {number : Nat} (frame : (w.stage.clock t).frame = number)
    (keeps : (loyal calm origin t).keeps w) :
    (tickEach host entries).run w =
      (forEach (present host t number) (w.stage.ensemble entries) >>= fun _ =>
        pure (w.stage.goneOf entries)).run w := by
  induction entries generalizing w with
  | nil => rfl
  | cons e rest ih =>
      have others : ∀ e ∈ rest, e ∈ w.stage.attachments t :=
        fun e mem => own e (List.mem_cons_of_mem _ mem)
      cases alive : w.stage.isAlive (.behaviour e.behaviour) with
      | false =>
          obtain ⟨ensemble, goneOf⟩ := Stage.ensemble_cons_of_gone alive rest
          have run := ih others (fun e mem => led e (List.mem_cons_of_mem _ mem)) frame keeps
          rw [ensemble, goneOf, run_tickEach_cons,
            run_bind_of_ok (run_turn_of_gone (by simp [alive])), run_bind_congr run, bind_assoc]
          rfl
      | true =>
          obtain ⟨a, lead⟩ := led e (List.mem_cons_self ..) alive
          obtain ⟨ensemble, goneOf⟩ := Stage.ensemble_cons_of_led alive lead rest
          have first := observes_present hh number alive a keeps
          rw [ensemble, goneOf, run_tickEach_cons,
            run_bind_congr (run_turn_of_led alive lead frame)]
          show ((present host t number (e.behaviour, a) >>= fun _ => pure none) >>= _).run w =
            ((present host t number (e.behaviour, a) >>= fun _ => _) >>= _).run w
          rw [bind_assoc, bind_assoc, run_bind, run_bind (present _ _ _ _)]
          split
          · next outcome =>
              -- What has been found out about the others is still so after this turn.
              have loyal := first.leaves
              have run := ih (fun e mem => loyal.mem (others e mem)) (fun e mem alive' => ?_)
                (loyal.frame.trans frame) first.keeps
              · rw [loyal.ensemble others, loyal.goneOf others] at run
                simpa using run
              · have own := others e mem
                rw [loyal.isAlive own] at alive'
                rw [loyal.lead e own alive']
                exact led e (List.mem_cons_of_mem _ mem) alive'
          · rfl

/-- The followers of a timeline are presented with the frame, and the others are struck off. -/
theorem run_tickAttached_of_led
    (led : ∀ e ∈ w.stage.attachments t, w.stage.isAlive (.behaviour e.behaviour) = true →
      ∃ a, w.stage.lead? e.behaviour = some (a, t))
    {number : Nat} (frame : (w.stage.clock t).frame = number)
    (keeps : (loyal calm origin t).keeps w) :
    (tickAttached host t).run w =
      (forEach (present host t number) (w.stage.ensemble (w.stage.attachments t)) >>= fun _ =>
        strike t (w.stage.goneOf (w.stage.attachments t))).run w := by
  rw [tickAttached_eq, run_stage_bind,
    run_bind_congr (run_tickEach_of_led hh (fun _ => id) led frame keeps), bind_assoc]
  rfl

end Rounds

end Conduct

open Script

section Frames

variable {υ : Type} {calm : υ → Prop} {t : Ref .timeline} {host : Host υ} {w : World υ}
  {played : Clock}

theorem nextId_movedTo (t : Ref .timeline) (played : Clock) (w : World υ) :
    ((movedTo t played w).stage.timelines.get t).nextId = (w.stage.timelines.get t).nextId :=
  Table.proj_get_modify _ t t (g := Timeline.nextId) fun _ => rfl

theorem goneOf_movedTo (t : Ref .timeline) (played : Clock) (w : World υ) :
    (movedTo t played w).stage.goneOf ((movedTo t played w).stage.attachments t) =
      w.stage.goneOf (w.stage.attachments t) := by
  rw [attachments_movedTo]
  rfl

theorem attached_movedTo (t : Ref .timeline) (played : Clock) (w : World υ) :
    ∀ f ∈ w.stage.ensemble (w.stage.attachments t), (movedTo t played w).stage.Attached t f.1 := by
  intro f mem
  obtain ⟨e, mem, same, alive, -⟩ := Stage.exists_of_mem_ensemble mem
  exact ⟨alive, e, (attachments_movedTo t played w).symm ▸ mem, same⟩

theorem tied_movedTo (tied : w.stage.Tied) (step : (w.stage.clock t).step = .ok played) :
    (movedTo t played w).stage.Tied :=
  Stage.Move.tied (.note _) (Stage.Move.tied (.turn (.step step)) tied)

theorem keeps_movedTo (calms : calm w.user) (step : (w.stage.clock t).step = .ok played) :
    (Conduct.loyal calm w.stage t).keeps (movedTo t played w) :=
  ⟨calms, .tail (.single (.turn (.step step))) (.note _)⟩

theorem run_fanOut (host : Host υ) (t : Ref .timeline) (played : Clock)
    (followers : List (Ref .behaviour × Ref .alpha)) (gone : List Nat) (w : World υ) :
    (fanOut host t played followers gone).run w =
      (forEach (present host t played.frame) followers >>= fun _ => strike t gone >>= fun _ =>
        concludeFrame host t played).run (movedTo t played w) := rfl

/-- The next frame is handed on. -/
theorem run_nextFrame_of_led (tied : w.stage.Tied) (calms : calm w.user)
    (hh : (Conduct.loyal calm w.stage t).Binds host) (going : (w.stage.clock t).isOver = false)
    (step : (w.stage.clock t).step = .ok played) :
    (nextFrame host t).run w =
      (fanOut host t played (w.stage.ensemble (w.stage.attachments t))
        (w.stage.goneOf (w.stage.attachments t))).run w := by
  have frame : ((movedTo t played w).stage.clock t).frame = played.frame :=
    congrArg Clock.frame (w.stage.clock_setClock t played)
  have led : ∀ e ∈ (movedTo t played w).stage.attachments t,
      (movedTo t played w).stage.isAlive (.behaviour e.behaviour) = true →
      ∃ a, (movedTo t played w).stage.lead? e.behaviour = some (a, t) := by
    rw [attachments_movedTo]
    exact fun e mem alive => tied.exists_lead mem alive
  have ticked := Conduct.run_tickAttached_of_led hh led frame (keeps_movedTo calms step)
  rw [attachments_movedTo] at ticked
  rw [run_nextFrame_of_step going step, run_fanOut]
  refine (run_bind_congr ticked _).trans ?_
  rw [bind_assoc]
  rfl

/-- When the followers have been presented with a frame they have been left alone, and what is
struck off is gone. -/
theorem follows_presented (tied : w.stage.Tied) (calms : calm w.user)
    (hh : (Conduct.loyal calm w.stage t).Binds host) (step : (w.stage.clock t).step = .ok played)
    {r : Except Fault Unit} {v : World υ}
    (shown : (forEach (present host t played.frame) (w.stage.ensemble (w.stage.attachments t))).run
      (movedTo t played w) = (r, v)) :
    (Conduct.loyal calm w.stage t).Follows (movedTo t played w) v ∧
      v.stage.Moves (v.stage.struck t (w.stage.goneOf (w.stage.attachments t))) := by
  have presented := Conduct.observes_forEach_present hh played.frame (attached_movedTo t played w)
    (keeps_movedTo calms step)
  rw [shown] at presented
  have moves := presented.leaves.moves_struck (tied_movedTo tied step)
  rw [goneOf_movedTo] at moves
  exact ⟨presented, moves⟩

/-- Whatever comes of the news of a frame, the entries are those of a stage on which the timeline
and its followers have been left alone. -/
theorem exists_loyal_concludeFrame {origin : Stage} {v : World υ}
    (hh : (Conduct.loyal calm origin t).Binds host)
    (keeps : (Conduct.loyal calm origin t).keeps v) (played : Clock) :
    ∃ s, v.stage.Loyal t s ∧
      ((concludeFrame host t played).run v).2.stage.attachments t = s.attachments t := by
  have announces : ∀ event payload (v : World υ),
      (Conduct.loyal calm origin t).Observes (announce host t event payload) v :=
    fun event payload v => hh.announce (Conduct.follows_note _)
  have first := announces .newFrame (.frame t played.frame) v keeps
  unfold concludeFrame
  rw [run_bind]
  split
  · split
    · have second := announces .completed (.timeline t) _ first.keeps
      have both := first.trans second
      rw [run_bind]
      split
      · split
        · exact ⟨_, both.leaves, Table.proj_get_modify _ t t (g := Timeline.attachments)
            fun _ => rfl⟩
        · exact ⟨_, both.leaves, rfl⟩
      · exact ⟨_, both.leaves, rfl⟩
    · exact ⟨_, first.leaves, rfl⟩
  · exact ⟨_, first.leaves, rfl⟩

/-- After a frame the entries of those that were gone are gone, and the others are as they were. -/
theorem exists_attachments_nextFrame (tied : w.stage.Tied) (calms : calm w.user)
    (hh : (Conduct.loyal calm w.stage t).Binds host) (going : (w.stage.clock t).isOver = false)
    (step : (w.stage.clock t).step = .ok played) {answer : Bool} {w' : World υ}
    (run : (nextFrame host t).run w = (.ok answer, w')) :
    ∃ new, w'.stage.attachments t = (w.stage.attachments t).filter (fun e =>
        w.stage.isAlive (.behaviour e.behaviour)) ++ new ∧
      ∀ e ∈ new, (w.stage.timelines.get t).nextId ≤ e.id := by
  rw [run_nextFrame_of_led tied calms hh going step, run_fanOut] at run
  obtain ⟨_, w₂, shown, rest⟩ := exists_of_run_bind_eq_ok run
  obtain ⟨presented, moves⟩ := follows_presented tied calms hh step shown
  rw [run_bind_of_ok (run_strike t _ w₂)] at rest
  obtain ⟨s, loyal, after⟩ := exists_loyal_concludeFrame hh
    (v := { w₂ with stage := w₂.stage.struck t (w.stage.goneOf (w.stage.attachments t)) })
    ⟨presented.keeps.1, presented.keeps.2.trans moves⟩ played
  rw [rest] at after
  obtain ⟨new, kept, ids⟩ := presented.leaves.attachments_detach (tied_movedTo tied step)
  obtain ⟨newer, grown, ids'⟩ := loyal.attachments
  rw [goneOf_movedTo, attachments_movedTo] at kept
  rw [Stage.attachments_struck, kept, List.append_assoc] at grown
  refine ⟨new ++ newer, after.trans grown, fun e mem => ?_⟩
  have moved_le := presented.leaves.nextId
  rw [nextId_movedTo] at moved_le ids
  rcases List.mem_append.1 mem with mem | mem
  · exact ids e mem
  · have le := ids' e mem
    rw [Stage.nextId_struck] at le
    exact Nat.le_trans moved_le le

end Frames

namespace Stage

/-- A timeline has the emitter that it had, which is as free as it was. -/
structure HandsBack (t : Ref .timeline) (s s' : Stage) : Prop where
  emitter : s'.emitterOf t = s.emitterOf t
  isHeld : (s'.emitters.get (s.emitterOf t)).isHeld = (s.emitters.get (s.emitterOf t)).isHeld

namespace HandsBack

variable {t : Ref .timeline} {s s' s'' : Stage}

theorem trans (h : s.HandsBack t s') (h' : s'.HandsBack t s'') : s.HandsBack t s'' where
  emitter := h'.emitter.trans h.emitter
  isHeld := by
    have held := h'.isHeld
    rw [h.emitter] at held
    exact held.trans h.isHeld

theorem free (h : s.HandsBack t s') (free : (s.emitters.get (s.emitterOf t)).isHeld = false) :
    (s'.emitters.get (s'.emitterOf t)).isHeld = false := by
  rw [h.emitter]
  exact h.isHeld.trans free

theorem of_eq (emitter : s'.emitterOf t = s.emitterOf t) (emitters : s'.emitters = s.emitters) :
    s.HandsBack t s' :=
  ⟨emitter, by rw [emitters]⟩

theorem of_timeline (timeline : ∃ n, s'.timelines.get t = { s.timelines.get t with holders := n })
    (emitters : s'.emitters = s.emitters) : s.HandsBack t s' := by
  obtain ⟨n, row⟩ := timeline
  exact of_eq (by rw [emitterOf, row, emitterOf]) emitters

theorem escorted {handles : List Handle} (h : (s.retainAll handles).HandsBack t s') :
    s.HandsBack t (s'.releaseAll handles) := by
  have before := s.rehandled_retainAll handles
  have after := s'.rehandled_releaseAll handles
  have first := of_timeline (before.timeline t) before.emitters
  exact (first.trans h).trans (of_timeline (after.timeline t) after.emitters)

theorem struck (s : Stage) (t : Ref .timeline) (gone : List Nat) :
    s.HandsBack t (s.struck t gone) := by
  cases gone with
  | nil => exact ⟨rfl, rfl⟩
  | cons id rest =>
      exact of_eq (Table.proj_get_modify _ t t (g := Timeline.emitter) fun _ => rfl) rfl

end HandsBack

end Stage

/-- The pact to come to an end, with the emitter of a timeline as it was found. -/
def Pact.ending {υ : Type} (calm : υ → Prop) (t : Ref .timeline) : Pact υ where
  calm := calm
  leaves := Stage.HandsBack t
  refl _ := ⟨rfl, rfl⟩
  trans := .trans
  incidental h := .of_timeline (h.timeline t) h.emitters
  held free h := ⟨h.emitter, isHeld_hold_false free h.isHeld⟩

section Ends

variable {υ : Type} {calm : υ → Prop} {t : Ref .timeline} {host : Host υ} {w : World υ}
  {played : Clock}

/-- If callbacks come to their end then so does a frame. -/
theorem exists_run_nextFrame_eq_ok (ends : (Pact.ending calm t).Binds host)
    (keeps : (Pact.ending calm t).Keeps w) (going : (w.stage.clock t).isOver = false)
    (step : (w.stage.clock t).step = .ok played)
    (free : (w.stage.emitters.get (w.stage.emitterOf t)).isHeld = false) :
    ∃ w', (nextFrame host t).run w = (.ok (!played.isComplete || played.repeats), w') := by
  have moved : w.stage.HandsBack t (movedTo t played w).stage :=
    .of_eq (Table.proj_get_modify _ t t (g := Timeline.emitter) fun _ => rfl) rfl
  obtain ⟨gone, w₂, ticks, -, ticked⟩ := ends.tickEach (fun _ => .escorted)
    (fun e (_ : e ∈ (movedTo t played w).stage.attachments t) _ _ => .of_eq rfl rfl)
    (movedTo t played w) ⟨keeps.calm, keeps.checked⟩
  have handed := (moved.trans ticked.leaves).trans (.struck w₂.stage t gone)
  have checked : ∀ b, ((w₂.stage.struck t gone).behaviours.get b).drive.Checked := by
    cases gone <;> exact ticked.keeps.checked
  obtain ⟨w', run, -⟩ := ends.run_concludeFrame (t := t)
    (w := { w₂ with stage := w₂.stage.struck t gone }) (fun h => ⟨h.emitter, h.isHeld⟩) played
    ⟨ticked.keeps.calm, checked⟩ (handed.free free)
  refine ⟨w', ?_⟩
  rw [run_nextFrame_of_step going step, tickAttached_eq, bind_assoc, run_stage_bind, bind_assoc]
  refine (run_bind_of_ok ticks _).trans ?_
  rw [run_bind_of_ok (run_strike t gone w₂), run]

end Ends

section Bystanders

variable {υ : Type} {calm : υ → Prop} {t : Ref .timeline} {host : Host υ} {w : World υ}
  {origin : Stage} {x : Ref .actor} {members : List (Ref .behaviour)} {played : Clock}

theorem Stage.Spares.struck (s : Stage) (t : Ref .timeline) (gone : List Nat) :
    s.Spares x members (s.struck t gone) := by
  cases gone <;> exact .of_eq rfl rfl rfl

theorem spares_present (hx : (Conduct.sparing υ origin x members).Binds host) (number : Nat)
    {b : Ref .behaviour} (alive : w.stage.isAlive (.behaviour b) = true) (member : b ∈ members)
    (a : Ref .alpha) :
    (Conduct.sparing υ origin x members).Observes (present host t number (b, a)) w := by
  refine Conduct.observes_stage_bind fun _ => ?_
  refine Conduct.sparing_holding (fun b' mem => ?_) (Conduct.sparing_holding (fun b' mem => ?_)
    (Conduct.sparing_note_bind (hx.drive_member member _ _)))
  · cases List.mem_singleton.1 mem
    exact alive
  · exact nomatch List.mem_singleton.1 mem

/-- An actor that none of the followers has stands by while these are presented with a frame. -/
theorem spares_forEach_present (hh : (Conduct.loyal calm origin t).Binds host)
    (hx : (Conduct.sparing υ origin x members).Binds host) (number : Nat)
    {followers : List (Ref .behaviour × Ref .alpha)}
    (attached : ∀ f ∈ followers, w.stage.Attached t f.1)
    (among : ∀ f ∈ followers, f.1 ∈ members) (keeps : (Conduct.loyal calm origin t).keeps w) :
    (Conduct.sparing υ origin x members).Observes
      (forEach (present host t number) followers) w := by
  induction followers generalizing w with
  | nil => exact .refl
  | cons f rest ih =>
      have alive := (attached f (List.mem_cons_self ..)).1
      have loyal := Conduct.observes_present hh number alive f.2 keeps
      have spares := spares_present (t := t) hx number alive
        (among f (List.mem_cons_self ..)) f.2
      intro absent
      rw [run_forEach_cons, run_bind]
      split
      · have others := ih
          (fun f' mem => loyal.leaves.attached (attached f' (List.mem_cons_of_mem _ mem)))
          (fun f' mem => among f' (List.mem_cons_of_mem _ mem)) loyal.keeps
        exact (spares absent).trans (others (spares absent).keeps)
      · exact spares absent

/-- An actor that none of the followers has stands by while a frame is handed on. -/
theorem spares_nextFrame (tied : w.stage.Tied) (calms : calm w.user)
    (hh : (Conduct.loyal calm w.stage t).Binds host) {members : List (Ref .behaviour)}
    (hx : (Conduct.sparing υ w.stage x members).Binds host)
    (among : ∀ f ∈ w.stage.ensemble (w.stage.attachments t), f.1 ∈ members)
    (absent : w.stage.Absent x members) (going : (w.stage.clock t).isOver = false)
    (step : (w.stage.clock t).step = .ok played) :
    w.stage.Spares x members ((nextFrame host t).run w).2.stage := by
  have first : (Conduct.sparing υ w.stage x members).Follows w (movedTo t played w) :=
    Conduct.follows_sparing ⟨.refl, absent⟩ (.tail (.single (.turn (.step step))) (.note _))
      (.of_eq rfl rfl rfl)
  have presented := spares_forEach_present hh hx played.frame (attached_movedTo t played w) among
    (keeps_movedTo calms step) first.keeps
  rw [run_nextFrame_of_led tied calms hh going step, run_fanOut, run_bind]
  split
  · obtain ⟨-, moves⟩ := follows_presented tied calms hh step rfl
    rw [run_bind_of_ok (run_strike t _ _)]
    have struck := Conduct.follows_sparing presented.keeps moves (.struck _ t _)
    have last := hx.concludeFrame_sparing t played _ struck.keeps
    exact (((first.trans presented).trans struck).trans last).leaves
  · exact (first.trans presented).leaves

end Bystanders

/-! ## The whole frame -/

/-- If the records of all bindings agree then the ensemble of the entries of a timeline has all of
their behaviours that are there, each once, and alphas of the timeline lead them. -/
theorem Stage.Tied.ensemble {s : Stage} (h : s.Tied) (t : Ref .timeline) :
    (s.ensemble (s.attachments t)).map (·.1) = ((s.attachments t).filter fun e =>
        s.isAlive (.behaviour e.behaviour)).map (·.behaviour) ∧
      ((s.ensemble (s.attachments t)).map (·.1)).Nodup ∧
      ∀ f ∈ s.ensemble (s.attachments t), s.lead? f.1 = some (f.2, t) := by
  have behaviours : (s.ensemble (s.attachments t)).map (·.1) = ((s.attachments t).filter fun e =>
      s.isAlive (.behaviour e.behaviour)).map (·.behaviour) := by
    rw [Stage.ensemble, List.map_filterMap, ← List.filterMap_eq_map]
    refine List.filterMap_congr fun e mem => ?_
    obtain ⟨mem, alive⟩ := List.mem_filter.1 mem
    obtain ⟨a, led⟩ := h.exists_lead mem alive
    rw [led]
    rfl
  refine ⟨behaviours, behaviours ▸ h.nodup_behaviours t, fun f mem => ?_⟩
  obtain ⟨e, mem, same, alive, u, led⟩ := Stage.exists_of_mem_ensemble mem
  obtain ⟨a, led'⟩ := h.exists_lead mem (same ▸ alive)
  rw [same] at led'
  cases led.symm.trans led'
  exact led

/-- On every stage that is ever met, a frame that is played is handed on, if no callback binds
anew, gives up or moves what belongs to the timeline. The behaviours that have entries and are
there are driven once each, in the order of the entries, to what their alphas, which are alphas of
the timeline, yield at the new frame; and when the frame is over their entries are left, in order
and with their numbers, and those of others are gone. It comes to its end if callbacks do. An actor
that none of these behaviours has is left as it is, if callbacks leave it alone. A frame that is
not played changes nothing at all. -/
theorem Stage.Reachable.frame_fans_out {υ : Type} {host : Host υ} {calm : υ → Prop} {w : World υ}
    (h : w.stage.Reachable) (calms : calm w.user) {t : Ref .timeline}
    (hh : (Conduct.loyal calm w.stage t).Binds host) :
    let entries := w.stage.attachments t
    let live := entries.filter fun e => w.stage.isAlive (.behaviour e.behaviour)
    let followers := w.stage.ensemble entries
    let playing := (nextFrame host t).run w
    ((w.stage.clock t).isOver = true → playing = (.ok false, w)) ∧
    ((w.stage.clock t).isOver = false → ∀ cause, (w.stage.clock t).step = .error cause →
      playing = (.error (.violation cause), w)) ∧
    ((w.stage.clock t).isOver = false → ∀ played, (w.stage.clock t).step = .ok played →
      followers.map (·.1) = live.map (·.behaviour) ∧ (followers.map (·.1)).Nodup ∧
      (∀ f ∈ followers, w.stage.lead? f.1 = some (f.2, t)) ∧
      playing = (fanOut host t played followers (w.stage.goneOf entries)).run w ∧
      (∀ answer w', playing = (.ok answer, w') → ∃ new, w'.stage.attachments t = live ++ new ∧
        ∀ e ∈ new, (w.stage.timelines.get t).nextId ≤ e.id) ∧
      ((Pact.ending calm t).Binds host →
        (w.stage.emitters.get (w.stage.emitterOf t)).isHeld = false →
        ∃ w', playing = (.ok (!played.isComplete || played.repeats), w')) ∧
      ∀ x, w.stage.Absent x (followers.map (·.1)) →
        (Conduct.sparing υ w.stage x (followers.map (·.1))).Binds host →
        w.stage.Spares x (followers.map (·.1)) playing.2.stage) := by
  intro entries live followers playing
  refine ⟨run_nextFrame_of_isOver, fun going cause => run_nextFrame_of_step_error going,
    fun going played step => ?_⟩
  obtain ⟨behaviours, nodup, led⟩ := h.tied.ensemble t
  refine ⟨behaviours, nodup, led, run_nextFrame_of_led h.tied calms hh going step,
    fun answer w' => exists_attachments_nextFrame h.tied calms hh going step,
    fun ends => exists_run_nextFrame_eq_ok ends ⟨calms, h.checked⟩ going step,
    fun x absent hx => ?_⟩
  exact spares_nextFrame h.tied calms hh hx (fun f mem => List.mem_map_of_mem mem) absent going step

namespace Stage

/-- Three behaviours follow a timeline under two easings, of which the second one is given up, and
one with an actor follows another timeline. -/
def matinee : Script (List (Callback × Nat)) Unit := do
  let _ ← Script.owning [] (Script.produce (·.addTimeline 1000))
  let _ ← Script.owning [] (Script.produce (·.addTimeline 1000))
  let _ ← Script.owning [.timeline ⟨0⟩] (Script.produce (·.addAlpha ⟨0⟩ .rampInc))
  let _ ← Script.owning [.timeline ⟨0⟩] (Script.produce (·.addAlpha ⟨0⟩ .rampDec))
  let _ ← Script.owning [.timeline ⟨1⟩] (Script.produce (·.addAlpha ⟨1⟩ .rampInc))
  let _ ← Script.owning [.alpha ⟨0⟩] (Script.makeCustom (.silent _) 0 (some ⟨0⟩))
  let _ ← Script.owning [.alpha ⟨0⟩] (Script.makeCustom (.silent _) 1 (some ⟨0⟩))
  let _ ← Script.owning [.alpha ⟨1⟩] (Script.makeCustom (.silent _) 2 (some ⟨1⟩))
  let _ ← Script.owning [.alpha ⟨2⟩] (Script.makeOpacity (.silent _) ⟨0, 255⟩ (some ⟨2⟩))
  let _ ← Script.owning [] (Script.produce (·.addActor (.ofSize true (10, 20))))
  let _ ← Script.owning [.core ⟨3⟩, .actor ⟨0⟩] (Script.change (·.applyActor ⟨3⟩ ⟨0⟩))
  let _ ← Script.owning [.behaviour ⟨1⟩] (Script.change (·.release (.behaviour ⟨1⟩)))

/-- What is left when all of this has been done, before anything is written down. -/
def seated : World (List (Callback × Nat)) := (matinee.run ⟨.empty true, []⟩).2

theorem reachable_seated : seated.stage.Reachable := by
  unfold seated
  exact Arises.reachable (@Arises.course _ (fun _ => []) _ _ _ (.opening true rfl)
    (.bind (.offered (.addTimeline 1000)) fun _ =>
      .bind (.offered (.addTimeline 1000)) fun _ =>
        .bind (.offered (.addAlpha ⟨0⟩ .rampInc)) fun _ =>
          .bind (.offered (.addAlpha ⟨0⟩ .rampDec)) fun _ =>
            .bind (.offered (.addAlpha ⟨1⟩ .rampInc)) fun _ =>
              .bind (.offered (.makeCustom 0 (some ⟨0⟩))) fun _ =>
                .bind (.offered (.makeCustom 1 (some ⟨0⟩))) fun _ =>
                  .bind (.offered (.makeCustom 2 (some ⟨1⟩))) fun _ =>
                    .bind (.offered (.makeOpacity ⟨0, 255⟩ (some ⟨2⟩))) fun _ =>
                      .bind (.offered (.addActor (.ofSize true (10, 20)))) fun _ =>
                        .bind (.offered (.applyActor ⟨3⟩ ⟨0⟩)) fun _ =>
                          .bind (.offered (.release (.behaviour ⟨1⟩))) fun _ => .pure ()))

/-- Custom behaviours write down to what they are driven. -/
def scribe : Host (List (Callback × Nat)) :=
  { Host.silent _ with
    driven := fun callback alpha =>
      modify fun w => { w with user := w.user ++ [(callback, alpha)] } }

theorem loyal_scribe (origin : Stage) (t : Ref .timeline) :
    (Conduct.loyal (fun _ => True) origin t).Binds scribe where
  called _ _ _ := .refl
  driven _ _ w keeps := ⟨keeps, .refl t w.stage⟩
  reacts _ _ _ := .refl

theorem sparing_scribe (origin : Stage) (x : Ref .actor) (members : List (Ref .behaviour)) :
    (Conduct.sparing _ origin x members).Binds scribe where
  called _ _ _ := .refl
  driven _ _ w keeps := ⟨keeps, .refl w.stage⟩
  reacts _ _ _ := .refl

theorem ending_scribe (t : Ref .timeline) : (Pact.ending (fun _ => True) t).Binds scribe where
  called _ _ _ := Pact.abides_pure trivial
  driven _ _ _ keeps := ⟨(), _, rfl, trivial, ⟨trivial, keeps.checked⟩, ⟨rfl, rfl⟩⟩
  reacts _ _ _ := Pact.abides_done

/-- The first and the third behaviour write down the first values under their easings, the entry
of the second one is gone, and the actor has not been touched. -/
theorem Reachable.frame_fans_out_matinee :
    ∃ w', (nextFrame scribe ⟨0⟩).run seated = (.ok true, w') ∧
      w'.user = [(0, 1092), (2, 64443)] ∧
      (∃ new, w'.stage.attachments ⟨0⟩ = [⟨0, ⟨0⟩⟩, ⟨2, ⟨2⟩⟩] ++ new ∧ ∀ e ∈ new, 3 ≤ e.id) ∧
      ∃ n, w'.stage.actors.get ⟨0⟩ = { seated.stage.actors.get ⟨0⟩ with holders := n } := by
  have live : (seated.stage.attachments ⟨0⟩).filter
      (fun e => seated.stage.isAlive (.behaviour e.behaviour)) = [⟨0, ⟨0⟩⟩, ⟨2, ⟨2⟩⟩] := by
    decide +kernel
  have followers : seated.stage.ensemble (seated.stage.attachments ⟨0⟩) =
      [(⟨0⟩, ⟨0⟩), (⟨2⟩, ⟨1⟩)] := by
    decide +kernel
  have absent : seated.stage.Absent ⟨0⟩ [⟨0⟩, ⟨2⟩] := by unfold Absent; decide +kernel
  have nextId : (seated.stage.timelines.get ⟨0⟩).nextId = 3 := by decide +kernel
  have going : (seated.stage.clock ⟨0⟩).isOver = false := by decide +kernel
  have step : (seated.stage.clock ⟨0⟩).step = .ok { Clock.ofDuration 1000 with frame := 1 } := by
    decide +kernel
  obtain ⟨-, -, plays⟩ := reachable_seated.frame_fans_out trivial (loyal_scribe _ ⟨0⟩)
  obtain ⟨-, -, -, run, kept, ends, bystander⟩ := plays going _ step
  obtain ⟨w', ended⟩ := ends (ending_scribe ⟨0⟩) (by decide +kernel)
  have spared := (bystander ⟨0⟩ (followers ▸ absent) (sparing_scribe _ _ _)).actor
  have written : ((fanOut scribe ⟨0⟩ { Clock.ofDuration 1000 with frame := 1 }
      (seated.stage.ensemble (seated.stage.attachments ⟨0⟩))
      (seated.stage.goneOf (seated.stage.attachments ⟨0⟩))).run seated).2.user =
        [(0, 1092), (2, 64443)] := by
    decide +kernel
  rw [← run, ended] at written
  rw [ended] at spared
  obtain ⟨new, entries, ids⟩ := kept _ _ ended
  exact ⟨w', ended, written, ⟨new, live ▸ entries, nextId ▸ ids⟩, spared⟩

end Stage

end Animation
