/-
# What a frame does to a scene

While a frame is played, behaviours are driven, actors are visited, handlers are called, and
handles are taken and given up. `Leads` says that a script, run at one moment of a scene, comes
to its end at another. It is carried from the parts of a script to the whole, up to a frame:
provided that the callbacks leave the scene alone, a frame moves the clock of the scene, scales
each of its actors once, and does nothing else to it.
-/

import Animation.Proofs.Behaviours.Scene
import Animation.Proofs.Script.Running
import Animation.Proofs.Timeline.Ramp
import Animation.Stage.Frames

namespace Animation

open Script

namespace Scene

variable {υ : Type} {α β : Type} {k : Scene υ} {m m₁ m' : Moment} {Q : α → Prop} {R : β → Prop}
  {w : World υ}

/-- Run at one moment of a scene, a script comes to its end at another, and with an answer such
that `Q`. -/
def Leads (k : Scene υ) (m m' : Moment) (Q : α → Prop) (x : Script υ α) (w : World υ) : Prop :=
  k.Standing m w → ∃ a w', x.run w = (.ok a, w') ∧ Q a ∧ k.Standing m' w'

/-- A script that comes to its end leaves a scene as it was. -/
def Spares (k : Scene υ) (x : Script υ α) : Prop := ∀ m w, k.Leads m m (fun _ => True) x w

/-- The callbacks that may run while a scene is played leave it as it is. -/
structure Undisturbed (k : Scene υ) (host : Host υ) : Prop where
  reacts : ∀ a call, k.Spares (host.reacts a call)
  called : ∀ callback payload, k.callbacks callback → k.Spares (host.called callback payload)
  driven : ∀ callback alpha, k.callbacks callback → k.Spares (host.driven callback alpha)

theorem leads_pure {a : α} (h : Q a) : k.Leads m m Q (pure a) w :=
  fun stands => ⟨a, w, rfl, h, stands⟩

theorem leads_done : k.Leads m m (fun _ => True) (pure () : Script υ Unit) w :=
  leads_pure trivial

theorem Leads.weaken {Q' : α → Prop} {x : Script υ α} (h : k.Leads m m' Q x w)
    (weaker : ∀ a, Q a → Q' a) : k.Leads m m' Q' x w := by
  intro stands
  obtain ⟨a, w', run, hq, stands'⟩ := h stands
  exact ⟨a, w', run, weaker a hq, stands'⟩

theorem Leads.congr {m'' : Moment} {x : Script υ α} (h : k.Leads m m' Q x w)
    (same : ∀ w', k.Standing m' w' → k.Standing m'' w') : k.Leads m m'' Q x w := by
  intro stands
  obtain ⟨a, w', run, hq, stands'⟩ := h stands
  exact ⟨a, w', run, hq, same w' stands'⟩

theorem leads_bind {x : Script υ α} {f : α → Script υ β} (hx : k.Leads m m₁ Q x w)
    (hf : ∀ a w', Q a → k.Leads m₁ m' R (f a) w') : k.Leads m m' R (x >>= f) w := by
  intro stands
  obtain ⟨a, w₁, run, hq, stands₁⟩ := hx stands
  obtain ⟨b, w', run', hr, stands'⟩ := hf a w₁ hq stands₁
  exact ⟨b, w', (run_bind_of_ok run f).trans run', hr, stands'⟩

theorem leads_stage_bind {f : Stage → Script υ β}
    (hf : k.Standing m w → k.Leads m m' R (f w.stage) w) : k.Leads m m' R (stage >>= f) w :=
  fun stands => hf stands stands

theorem leads_change {g : Stage → Stage}
    (h : k.Standing m w → k.Standing m' { w with stage := g w.stage }) :
    k.Leads m m' (fun _ => True) (change g : Script υ Unit) w :=
  fun stands => ⟨(), _, rfl, trivial, h stands⟩

theorem leads_change_bind {g : Stage → Stage} {f : Unit → Script υ β}
    (h : k.Standing m w → k.Standing m₁ { w with stage := g w.stage })
    (hf : k.Leads m₁ m' R (f ()) { w with stage := g w.stage }) :
    k.Leads m m' R (change g >>= f) w :=
  fun stands => hf (h stands)

theorem leads_produce_bind {g : Stage → Stage × α} {f : α → Script υ β}
    (h : k.Standing m w → k.Standing m₁ { w with stage := (g w.stage).1 })
    (hf : k.Leads m₁ m' R (f (g w.stage).2) { w with stage := (g w.stage).1 }) :
    k.Leads m m' R (produce g >>= f) w :=
  fun stands => hf (h stands)

theorem leads_note (what : Occurrence) :
    k.Leads m m (fun _ => True) (note what : Script υ Unit) w :=
  leads_change fun stands => stands.note what

theorem leads_note_bind {what : Occurrence} {f : Unit → Script υ β}
    (hf : k.Leads m m' R (f ()) { w with stage := w.stage.note what }) :
    k.Leads m m' R (note what >>= f) w :=
  leads_change_bind (fun stands => stands.note what) hf

theorem leads_check_bind {r : Except Violation α} {a : α} {f : α → Script υ β} (h : r = .ok a)
    (hf : k.Leads m m' R (f a) w) : k.Leads m m' R (check r >>= f) w := by
  intro stands
  rw [run_check_ok_bind h]
  exact hf stands

theorem leads_thenTidy {x : Script υ α} {tidy : Stage → Stage} (hx : k.Leads m m₁ Q x w)
    (h : ∀ w', k.Standing m₁ w' → k.Standing m' { w' with stage := tidy w'.stage }) :
    k.Leads m m' Q (x.thenTidy tidy) w := by
  intro stands
  obtain ⟨a, w₁, run, hq, stands₁⟩ := hx stands
  refine ⟨a, _, ?_, hq, h w₁ stands₁⟩
  simp [run]

theorem leads_attempt {x : Script υ α} (hx : k.Leads m m' Q x w) :
    k.Leads m m' (fun r => ∃ a, r = .ok a ∧ Q a) x.attempt w := by
  intro stands
  obtain ⟨a, w', run, hq, stands'⟩ := hx stands
  exact ⟨.ok a, w', run_attempt_of_ok run, ⟨a, rfl, hq⟩, stands'⟩

/-- While handles are held they are lent. -/
theorem leads_holding {handles : List Handle} {x : Script υ α}
    (behaviours : ∀ b, .behaviour b ∈ handles → w.stage.isAlive (.behaviour b))
    (actors : ∀ a, .actor a ∈ handles → w.stage.isAlive (.actor a))
    (hx : k.Leads (m.lending handles) (m'.lending handles) Q x
      { w with stage := w.stage.retainAll handles }) :
    k.Leads m m' Q (holding handles x) w :=
  leads_change_bind (fun stands => stands.lend behaviours actors)
    (leads_thenTidy hx fun _ stands => stands.giveBack)

theorem leads_forEach {visit : β → Script υ Unit} {list : List β}
    (h : ∀ b ∈ list, ∀ w, k.Leads m m (fun _ => True) (visit b) w) (w : World υ) :
    k.Leads m m (fun _ => True) (forEach visit list) w := by
  induction list generalizing w with
  | nil => exact leads_done
  | cons b rest ih =>
      exact leads_bind (h b (List.mem_cons_self ..) w) fun _ w' _ =>
        ih (fun b' hb' => h b' (List.mem_cons_of_mem _ hb')) w'

/-- An emitter that is free is not waited for. -/
theorem leads_await (free : m.isHeld = false) :
    k.Leads m m (fun row => ∀ h ∈ row.handlers, k.callbacks h.callback) (await k.emitter) w := by
  apply leads_stage_bind
  intro stands
  dsimp only
  rw [stands.isHeld, free]
  exact leads_pure stands.on.handlers

theorem lending_cons (m : Moment) (handle : Handle) (handles : List Handle) :
    m.lending (handle :: handles) = (m.lending handles).lending [handle] := by
  unfold Moment.lending
  congr 1
  funext h
  simp [List.count_cons, Nat.add_assoc]

/-- Each visit takes the scene a step on. -/
theorem leads_escort {visit : Ref .actor → Script υ Unit} (step : Moment → Ref .actor → Moment)
    {actors : List (Ref .actor)}
    (h : ∀ a ∈ actors, ∀ m handles w,
      k.Leads (m.lending handles) ((step m a).lending handles) (fun _ => True) (visit a) w)
    (m : Moment) (w : World υ) :
    k.Leads (m.lending (actors.map .actor)) (actors.foldl step m) (fun _ => True)
      (escort visit actors) w := by
  induction actors generalizing m w with
  | nil => exact Leads.congr leads_done fun _ stands => stands.forget
  | cons a rest ih =>
      have visited := h a (List.mem_cons_self ..) m (.actor a :: rest.map .actor) w
      have left : k.Leads (m.lending (.actor a :: rest.map .actor))
          ((step m a).lending (rest.map .actor)) (fun _ => True)
          ((visit a).thenTidy (·.release (.actor a))) w := by
        apply leads_thenTidy visited
        intro w' stands
        rw [lending_cons] at stands
        exact stands.giveBack
      apply leads_bind (leads_attempt left)
      intro outcome w' ended
      obtain ⟨_, rfl, _⟩ := ended
      exact ih (fun a' ha' => h a' (List.mem_cons_of_mem _ ha')) (step m a) w'

theorem leads_forEachActor {c : Ref .core} {visit : Ref .actor → Script υ Unit}
    (step : Moment → Ref .actor → Moment)
    (h : ∀ a ∈ w.stage.actorsOf c, ∀ m handles w,
      k.Leads (m.lending handles) ((step m a).lending handles) (fun _ => True) (visit a) w) :
    k.Leads m ((w.stage.actorsOf c).foldl step m) (fun _ => True) (forEachActor c visit) w := by
  refine leads_produce_bind (fun stands => stands.prune c) ?_
  refine leads_change_bind (fun stands => stands.lend ?_ ?_) (leads_escort step h m _)
  · intro b hb
    obtain ⟨a, _, e⟩ := List.mem_map.1 hb
    exact nomatch e
  · intro a ha
    obtain ⟨a', mem, e⟩ := List.mem_map.1 ha
    cases e
    exact (List.mem_filter.1 mem).2

/-- What the actors of a scene are scaled to at an alpha. -/
def scaleAt (k : Scene υ) (alpha : Nat) : Double × Double :=
  ((k.bounds.x.pointAt alpha).toDouble, (k.bounds.y.pointAt alpha).toDouble)

/-- The moment after the behaviour of a scene has been ticked. -/
def ticked (k : Scene υ) (m : Moment) : Moment := m.scaled (k.scaleAt m.clock.ramp)

/-- The moment after an entry has been gone through, which ticks its behaviour. -/
def passing (k : Scene υ) (m : Moment) (e : Attachment) : Moment :=
  if e.behaviour = k.behaviour then k.ticked m else m

/-- A call of which nothing comes for the scales of a scene. -/
def Idle (k : Scene υ) (a : Ref .actor) (call : ActorCall) : Prop :=
  a ∈ k.actors → ∀ x : Scaling, x.after call = x

theorem Standing.of_scaling {scaling : Ref .actor → Scaling} (h : k.Standing m w)
    (same : ∀ a ∈ k.actors, scaling a = m.scaling a) : k.Standing { m with scaling } w where
  __ := h
  scaling a ha := (h.scaling a ha).trans (same a ha).symm

theorem Standing.of_asking {a : Ref .actor} {call : ActorCall} (idle : k.Idle a call)
    (h : k.Standing (m.asking a call) w) : k.Standing m w := by
  apply h.of_scaling
  intro a' ha'
  unfold Moment.asking
  dsimp only
  split
  · next same =>
      subst same
      exact (idle ha' _).symm
  · rfl

/-- What comes of asking actors for the same, one after another. -/
theorem foldl_asking (call : ActorCall) (actors : List (Ref .actor)) (m : Moment) :
    actors.foldl (fun m a => m.asking a call) m =
      { m with
        scaling := fun a => (fun x : Scaling => x.after call)^[actors.count a] (m.scaling a) } := by
  induction actors generalizing m with
  | nil => rfl
  | cons first rest ih =>
      rw [List.foldl_cons, ih]
      unfold Moment.asking
      congr 1
      funext a
      rw [List.count_cons]
      by_cases same : first = a
      · subst same
        simp
      · simp [same]

namespace Undisturbed

variable {host : Host υ} (hh : k.Undisturbed host)

include hh

theorem ask (a : Ref .actor) (call : ActorCall) :
    k.Leads m (m.asking a call) (fun _ => True) (Script.ask host a call) w :=
  leads_change_bind (fun stands => stands.ask a call) (hh.reacts a call _ _)

theorem askIdle {a : Ref .actor} {call : ActorCall} (idle : k.Idle a call) :
    k.Leads m m (fun _ => True) (Script.ask host a call) w :=
  (hh.ask a call).congr fun _ stands => stands.of_asking idle

theorem askScale (a : Ref .actor) (gravity : Gravity) (x y : Double) :
    k.Leads m (m.asking a (.setScale x y)) (fun _ => True)
      (Script.askScale host a gravity x y) w := by
  unfold Script.askScale
  split
  · exact leads_bind (hh.askIdle fun _ _ => rfl) fun _ _ _ => hh.ask a _
  · exact hh.ask a _

/-- The actors of the scene are scaled once each. -/
theorem driveScene {alpha : Nat} (le : alpha ≤ alphaMax) :
    k.Leads m (m.scaled (k.scaleAt alpha)) (fun _ => True)
      (Script.drive host k.behaviour alpha) w := by
  apply leads_stage_bind
  intro stands
  dsimp only
  rw [stands.on.drive]
  have accepted := stands.accepted_of_scale stands.on.drive
  apply leads_check_bind (accepted.sample_eq le)
  have visited : k.Leads m _ (fun _ => True) (forEachActor (w.stage.coreOf k.behaviour) fun a =>
      Script.askScale host a k.gravity (k.bounds.x.pointAt alpha).toDouble
        (k.bounds.y.pointAt alpha).toDouble) w :=
    leads_forEachActor (fun m a => m.asking a (.setScale (k.bounds.x.pointAt alpha).toDouble
      (k.bounds.y.pointAt alpha).toDouble)) fun a _ m handles w => hh.askScale a _ _ _
  apply visited.congr
  intro w' stands'
  rw [stands.on.core, stands.on.actors, foldl_asking] at stands'
  apply stands'.of_scaling
  intro a ha
  dsimp only
  rw [List.count_eq_one_of_mem stands.nodup ha]
  rfl

/-- Whatever another behaviour does, it does not scale the actors of the scene. -/
theorem driveOther {b : Ref .behaviour} (other : k.others b)
    (alive : w.stage.isAlive (.behaviour b)) {alpha : Nat} (le : alpha ≤ alphaMax) :
    k.Leads m m (fun _ => True) (Script.drive host b alpha) w := by
  have visits : ∀ {c : Ref .core} {visit : Ref .actor → Script υ Unit},
      (∀ a ∈ w.stage.actorsOf c, ∀ m w, k.Leads m m (fun _ => True) (visit a) w) →
        k.Leads m m (fun _ => True) (forEachActor c visit) w := by
    intro c visit h
    have visited := leads_forEachActor (m := m) (fun m _ => m)
      fun a ha m handles w => h a ha (m.lending handles) w
    rw [List.foldl_fixed] at visited
    exact visited
  apply leads_stage_bind
  intro stands
  dsimp only
  split
  · next bounds gravity e =>
      have accepted := stands.accepted_of_scale e
      have apart := stands.on.apart b other alive _ _ e
      refine leads_check_bind (accepted.sample_eq le) (visits fun a ha m w => ?_)
      have absent := apart a (List.mem_filter.1 ha).1
      apply (hh.askScale a _ _ _).congr
      intro _ stands
      exact stands.of_asking fun mem => absurd mem absent
  · next bounds e =>
      obtain ⟨value, sampled⟩ := bounds.exists_sampleOpacity le
      exact leads_check_bind sampled (visits fun a _ m w => hh.askIdle fun _ _ => rfl)
  · next callback e => exact hh.driven _ _ (stands.on.callbacks b other alive _ e) m w

/-! ## Ticks -/

theorem tickScene :
    k.Leads m (k.ticked m) (fun _ => True) (Script.tick host k.behaviour) w := by
  apply leads_stage_bind
  intro stands
  have bound : w.stage.boundAlpha? (w.stage.behaviours.get k.behaviour).core = some k.alpha := by
    show ((w.stage.cores.get (w.stage.coreOf k.behaviour)).binding).map Binding.alpha = _
    rw [stands.on.core, stands.on.binding]
    rfl
  have value : w.stage.alphaValue host.curves k.alpha = m.clock.ramp := by
    show (w.stage.clock (w.stage.timelineOf k.alpha)).alphaBy host.curves
      (w.stage.alphas.get k.alpha).easing = _
    rw [stands.on.timeline, stands.on.easing, stands.clock, Clock.alphaBy_rampInc]
  rw [bound]
  dsimp only
  rw [value]
  refine leads_holding (by simp) (by simp) (leads_note_bind ?_)
  exact hh.driveScene (Easing.alphaOf_le _)

theorem tickOther {b : Ref .behaviour} (other : k.others b)
    (alive : w.stage.isAlive (.behaviour b)) :
    k.Leads m m (fun _ => True) (Script.tick host b) w := by
  apply leads_stage_bind
  intro stands
  dsimp only
  split
  · exact leads_done
  · refine leads_holding (by simp) (by simp) (leads_note_bind ?_)
    exact hh.driveOther other (Stage.isAlive_retainAll alive) (Easing.sample_le ..)

omit hh in
/-- A behaviour that is there is held while it is ticked. -/
theorem holdingTick {b : Ref .behaviour} {m' : Moment} (alive : w.stage.isAlive (.behaviour b))
    (h : ∀ {w}, w.stage.isAlive (.behaviour b) → k.Leads (m.lending [.behaviour b])
      (m'.lending [.behaviour b]) (fun _ => True) (Script.tick host b) w) :
    k.Leads m m' (fun _ => True) (holding [.behaviour b] (Script.tick host b)) w := by
  refine leads_holding (fun b' hb => ?_) (by simp) (h (Stage.isAlive_retainAll alive))
  cases List.mem_singleton.1 hb
  exact alive

/-- The behaviour of the scene is ticked for every entry it has. The numbers that are
collected are those of other entries. -/
theorem tickEach {entries : List Attachment}
    (others : ∀ e ∈ entries, e.behaviour ≠ k.behaviour → k.others e.behaviour)
    (m : Moment) (w : World υ) :
    k.Leads m (entries.foldl k.passing m)
      (fun ids => ∀ id ∈ ids, ∃ e ∈ entries, e.behaviour ≠ k.behaviour ∧ e.id = id)
      (Script.tickEach host entries) w := by
  induction entries generalizing m w with
  | nil => exact leads_pure fun _ mem => nomatch mem
  | cons e rest ih =>
      have more := ih (fun e he => others e (List.mem_cons_of_mem _ he))
      have wider : ∀ ids : List Nat,
          (∀ id ∈ ids, ∃ e ∈ rest, e.behaviour ≠ k.behaviour ∧ e.id = id) →
            ∀ id ∈ ids, ∃ e' ∈ e :: rest, e'.behaviour ≠ k.behaviour ∧ e'.id = id := by
        intro ids collected id mem
        obtain ⟨e', he', found⟩ := collected id mem
        exact ⟨e', List.mem_cons_of_mem _ he', found⟩
      apply leads_stage_bind
      intro stands
      split
      · next alive =>
          have ticks : k.Leads m (k.passing m e) (fun _ => True)
              (holding [.behaviour e.behaviour] (Script.tick host e.behaviour)) w := by
            unfold passing
            split
            · next same =>
                rw [same] at alive ⊢
                exact holdingTick alive fun _ => hh.tickScene
            · next other =>
                exact holdingTick alive
                  fun alive => hh.tickOther (others e (List.mem_cons_self ..) other) alive
          exact leads_bind ticks fun _ w' _ => (more _ w').weaken wider
      · next gone =>
          have other : e.behaviour ≠ k.behaviour := by
            intro same
            rw [same] at gone
            exact gone (stands.isAlive (List.mem_cons_self ..))
          rw [List.foldl_cons, passing, if_neg other]
          refine leads_bind (more m w) fun ids w' collected => leads_pure ?_
          intro id mem
          rcases List.mem_cons.1 mem with rfl | mem
          · exact ⟨e, List.mem_cons_self .., other, rfl⟩
          · exact wider ids collected id mem

/-- The behaviour of the scene has one entry with its timeline, and so is ticked once. -/
theorem tickAttached :
    k.Leads m (k.ticked m) (fun _ => True) (Script.tickAttached host k.timeline) w := by
  apply leads_stage_bind
  intro stands
  have once : (w.stage.attachments k.timeline).foldl k.passing m = k.ticked m := by
    have ticked : (w.stage.entriesOf k.timeline k.behaviour).foldl (fun m _ => k.ticked m) m =
        k.ticked m := by rw [stands.entries]; rfl
    rw [Stage.entriesOf, List.foldl_filter] at ticked
    rw [← ticked]
    congr 1
    funext m e
    simp [passing]
  have ticks := hh.tickEach stands.on.others m w
  rw [once] at ticks
  apply leads_bind ticks
  intro ids w' collected
  split
  · exact leads_done
  · refine leads_note_bind (leads_change fun stands' => stands'.detach fun mem => ?_)
    obtain ⟨e, he, other, same⟩ := collected _ mem
    exact other (stands.unique e he same)

theorem respond (event : String) (payload : Payload) {h : Handler}
    (known : k.callbacks h.callback) :
    k.Leads m m (fun _ => True) (Script.respond host k.emitter event payload h) w := by
  unfold Script.respond
  split
  · exact leads_bind (hh.called _ _ known m w) fun _ _ _ => leads_pure trivial
  · exact leads_note_bind (leads_pure trivial)

theorem offer (event : String) (payload : Payload) {h : Handler} (known : k.callbacks h.callback) :
    k.Leads m m (fun _ => True) (Script.offer host k.emitter event payload h) w := by
  apply leads_bind (hh.respond event payload known)
  intro job w' _
  refine leads_produce_bind (fun stands => stands.spawn job) ?_
  split
  · exact leads_done
  · exact leads_note _

/-- The emitter is held from the first handler to the last, and free again afterwards. -/
theorem emit (free : m.isHeld = false) (event : String) (payload : Payload) :
    k.Leads m m (fun _ => True) (Script.emit host k.emitter event payload) w := by
  refine leads_bind (leads_await free) fun row w' known => leads_note_bind ?_
  split
  · exact leads_done
  · refine leads_change_bind (fun stands => stands.lendTimelines payload.timeline?) ?_
    refine leads_thenTidy ?_ fun w' stands => stands.giveBack
    refine leads_change_bind (fun stands => stands.hold true) ?_
    refine leads_thenTidy (leads_forEach (fun h mem w => ?_) _) fun w' stands => stands.letGo free
    exact hh.offer event payload (known h (List.mem_filter.1 mem).1)

theorem announce (free : m.isHeld = false) (event : TimelineEvent) (payload : Payload) :
    k.Leads m m (fun _ => True) (Script.announce host k.timeline event payload) w := by
  apply leads_stage_bind
  intro stands
  rw [stands.on.emitter]
  exact hh.emit free _ _

theorem concludeFrame (free : m.isHeld = false) {played : Clock} (single : played.repeats = false) :
    k.Leads m m (fun again => again = !played.isComplete)
      (Script.concludeFrame host k.timeline played) w := by
  apply leads_bind (hh.announce free _ _)
  intro _ w' _
  split
  · next complete =>
      apply leads_bind (hh.announce free _ _)
      intro _ w' _
      rw [single]
      exact leads_pure (by rw [complete]; rfl)
  · next incomplete => exact leads_pure (by simp [incomplete])

/-- A frame moves the clock on and ticks the behaviour once. -/
theorem nextFrame (free : m.isHeld = false) {played : Clock}
    (going : m.clock.isOver = false) (step : m.clock.step = .ok played)
    (single : played.repeats = false) :
    k.Leads m (k.ticked { m with clock := played }) (fun again => again = !played.isComplete)
      (Script.nextFrame host k.timeline) w := by
  apply leads_stage_bind
  intro stands
  dsimp only
  rw [stands.clock, going]
  refine leads_check_bind step (leads_change_bind (fun stands => stands.turn played) ?_)
  refine leads_note_bind (leads_bind hh.tickAttached fun _ w' _ => ?_)
  have still : (k.ticked { m with clock := played }).isHeld = false := free
  exact hh.concludeFrame still single

end Undisturbed

end Scene

end Animation
