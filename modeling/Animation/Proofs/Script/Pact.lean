/-
# What callbacks leave alone

A pact says what the callbacks of others leave alone while they are called: it relates the
stage before a callback to the stage after it. The library itself touches little while it
drives actors and calls handlers, and what it touches is incidental: counts of handles other
than those on behaviours, the entries of dead actors, what actors record, new tasks that
play nothing, and notes of handlers that could not be called. If callbacks keep a pact that
allows for this then so do whole drives and emissions, and these come to their end.
-/

import Animation.Proofs.Behaviours.Path
import Animation.Proofs.Playback.Tasks
import Animation.Proofs.Script.Running
import Animation.Proofs.Stage.InOrder
import Animation.Proofs.Timeline.Ramp
import Animation.Proofs.Timeline.Turns

namespace Animation

/-- A note of a handler that was not called, or whose task could not be run. -/
def Occurrence.isIncidental : Occurrence → Bool
  | .mismatched .. => true
  | .unrun .. => true
  | _ => false

/-- Whether a handle is one on a behaviour. -/
def Handle.isOnBehaviour : Handle → Bool
  | .behaviour _ => true
  | _ => false

/-- The handle that comes with a payload or a job is one on a timeline. -/
theorem Handle.isOnBehaviour_of_timeline? {t? : Option (Ref .timeline)} :
    ∀ h ∈ (t?.map Handle.timeline).toList, h.isOnBehaviour = false := by
  intro h mem
  obtain ⟨t, -, rfl⟩ := Option.map_eq_some_iff.1 (Option.mem_toList.1 mem)
  rfl

namespace Stage

/-- The second stage comes of the first one by changes that the library makes while it drives
actors and calls handlers. -/
structure Incidental (s s' : Stage) : Prop where
  timeline : ∀ t, ∃ n, s'.timelines.get t = { s.timelines.get t with holders := n }
  alpha : ∀ a, ∃ n, s'.alphas.get a = { s.alphas.get a with holders := n }
  binding : ∀ c, (s'.cores.get c).binding = (s.cores.get c).binding
  behaviours : s'.behaviours = s.behaviours
  emitters : s'.emitters = s.emitters
  size : s.tasks.size ≤ s'.tasks.size
  task : ∀ k, k.index < s.tasks.size → s'.tasks.get k = s.tasks.get k
  stranger : ∀ k, s.tasks.size ≤ k.index → k.index < s'.tasks.size →
    ∀ t, (s'.tasks.get k).plays t = false
  now : s'.agenda.now = s.agenda.now
  channel : s'.agenda.channel.isSome = s.agenda.channel.isSome
  journal : ∃ notes, s'.journal = notes ++ s.journal ∧ ∀ e ∈ notes, e.what.isIncidental

namespace Incidental

variable {s s' : Stage}

/-- Changes of nothing but handles, actors and the actors of cores. -/
theorem of_eq (timeline : ∀ t, ∃ n, s'.timelines.get t = { s.timelines.get t with holders := n })
    (alpha : ∀ a, ∃ n, s'.alphas.get a = { s.alphas.get a with holders := n })
    (binding : ∀ c, (s'.cores.get c).binding = (s.cores.get c).binding)
    (behaviours : s'.behaviours = s.behaviours) (emitters : s'.emitters = s.emitters)
    (tasks : s'.tasks = s.tasks) (agenda : s'.agenda = s.agenda)
    (journal : s'.journal = s.journal) : s.Incidental s' where
  timeline := timeline
  alpha := alpha
  binding := binding
  behaviours := behaviours
  emitters := emitters
  size := Nat.le_of_eq (congrArg Table.size tasks.symm)
  task k _ := by rw [tasks]
  stranger k old new := by rw [tasks] at new; omega
  now := by rw [agenda]
  channel := by rw [agenda]
  journal := ⟨[], journal, fun _ mem => nomatch mem⟩

theorem of_rehandled (h : s.Rehandled s') (behaviours : s'.behaviours = s.behaviours) :
    s.Incidental s' :=
  of_eq h.timeline h.alpha h.binding behaviours h.emitters h.tasks h.agenda h.journal

/-- To take and give up handles on other things than behaviours. -/
theorem retainAll (s : Stage) {handles : List Handle}
    (others : ∀ h ∈ handles, h.isOnBehaviour = false) : s.Incidental (s.retainAll handles) := by
  refine of_rehandled (s.rehandled_retainAll handles) ?_
  induction handles generalizing s with
  | nil => rfl
  | cons h rest ih =>
      have first : (s.retain h).behaviours = s.behaviours := by
        have other := others h (List.mem_cons_self ..)
        cases h <;> first | rfl | exact nomatch other
      exact (ih (s.retain h) fun h mem => others h (List.mem_cons_of_mem _ mem)).trans first

theorem behaviours_release (s : Stage) {h : Handle} (other : h.isOnBehaviour = false) :
    (s.release h).behaviours = s.behaviours := by
  cases h with
  | behaviour b => exact nomatch other
  | alpha a => exact s.behaviours_releaseAlpha a
  | core c => exact s.behaviours_releaseCore c
  | timeline _ | actor _ => rfl

theorem release (s : Stage) {h : Handle} (other : h.isOnBehaviour = false) :
    s.Incidental (s.release h) :=
  of_rehandled (s.rehandled_release h) (behaviours_release s other)

theorem releaseAll (s : Stage) {handles : List Handle}
    (others : ∀ h ∈ handles, h.isOnBehaviour = false) : s.Incidental (s.releaseAll handles) := by
  refine of_rehandled (s.rehandled_releaseAll handles) ?_
  induction handles generalizing s with
  | nil => rfl
  | cons h rest ih =>
      exact (ih (s.release h) fun h mem => others h (List.mem_cons_of_mem _ mem)).trans
        (behaviours_release s (others h (List.mem_cons_self ..)))

theorem pruneActors (s : Stage) (c : Ref .core) : s.Incidental (s.pruneActors c) :=
  of_eq (fun _ => ⟨_, rfl⟩) (fun _ => ⟨_, rfl⟩)
    (fun c' => Table.proj_get_modify s.cores c c' (g := Core.binding) fun _ => rfl)
    rfl rfl rfl rfl rfl

theorem modifyActor (s : Stage) (a : Ref .actor) (f : Actor → Actor) :
    s.Incidental (s.modifyActor a f) :=
  of_eq (fun _ => ⟨_, rfl⟩) (fun _ => ⟨_, rfl⟩) (fun _ => rfl) rfl rfl rfl rfl rfl

theorem note (s : Stage) {what : Occurrence} (h : what.isIncidental) : s.Incidental (s.note what) :=
  have same : s.Incidental s :=
    of_eq (fun _ => ⟨_, rfl⟩) (fun _ => ⟨_, rfl⟩) (fun _ => rfl) rfl rfl rfl rfl rfl
  { same with
    journal := ⟨[⟨s.agenda.now, what⟩], rfl,
      fun e mem => by cases List.mem_singleton.1 mem; exact h⟩ }

/-- To spawn a task that plays no timeline. -/
theorem spawn (s : Stage) {job : Job} (idle : ∀ t, (Task.mk job .ready false).plays t = false) :
    s.Incidental (s.spawn job).1 := by
  cases channel : s.agenda.channel with
  | none =>
      rw [spawn_of_no_channel channel]
      exact of_eq (fun _ => ⟨_, rfl⟩) (fun _ => ⟨_, rfl⟩) (fun _ => rfl) rfl rfl rfl rfl rfl
  | some reported =>
      have first : s.Incidental (s.retainAll job.handles) :=
        retainAll s Handle.isOnBehaviour_of_timeline?
      have size : (s.spawn job).1.tasks.size = s.tasks.size + 1 := by
        rw [tasks_spawn job (by simp [channel]), Table.size_push]
      have row : (s.spawn job).1.tasks.get s.tasks.next = ⟨job, .ready, false⟩ := by
        rw [tasks_spawn job (by simp [channel]), Table.get_push_next]
      have spawned := spawn_of_channel channel job
      refine ⟨spawned ▸ first.timeline, spawned ▸ first.alpha, spawned ▸ first.binding,
        spawned ▸ first.behaviours, spawned ▸ first.emitters, by omega,
        fun k added => get_spawn job added, fun k old new t => ?_, by rw [spawned],
        by rw [spawned, channel]; rfl, spawned ▸ first.journal⟩
      have same : k = s.tasks.next := by
        cases k
        simp only [Table.next, Ref.mk.injEq]
        dsimp only at old new
        omega
      rw [same, row]
      exact idle t

end Incidental

end Stage

/-- What callbacks leave alone: which stages may follow on which, and in which states of their
own the callers see to that. -/
structure Pact (υ : Type) where
  calm : υ → Prop
  leaves : Stage → Stage → Prop
  refl : ∀ s, leaves s s
  trans : ∀ {s s' s''}, leaves s s' → leaves s' s'' → leaves s s''
  incidental : ∀ {s s'}, s.Incidental s' → leaves s s'
  /-- An emitter may be held meanwhile that was free. -/
  held : ∀ {s s' m}, (s.emitters.get m).isHeld = false → leaves (Script.hold true m s) s' →
    leaves s (Script.hold false m s')

namespace Pact

open Script

variable {υ α β : Type} (p : Pact υ)

/-- A world in which callers keep to a pact, and in which behaviours scale between bounds that
have passed their check. -/
structure Keeps (w : World υ) : Prop where
  calm : p.calm w.user
  checked : ∀ b, (w.stage.behaviours.get b).drive.Checked

/-- One world follows on another as a pact says. -/
structure Follows (w w' : World υ) : Prop where
  keeps : p.Keeps w'
  leaves : p.leaves w.stage w'.stage

/-- A script comes to its end in a world that follows as a pact says, and with an answer such
that `Q`. -/
def Abides (Q : α → Prop) (x : Script υ α) (w : World υ) : Prop :=
  p.Keeps w → ∃ a w', x.run w = (.ok a, w') ∧ Q a ∧ p.Follows w w'

/-- A script that abides by a pact wherever it is run. -/
def Allows (x : Script υ α) : Prop := ∀ w, p.Abides (fun _ => True) x w

/-- Whatever comes of a script, it has kept to a pact. -/
def Bears (x : Script υ α) (w : World υ) : Prop := p.Keeps w → p.Follows w (x.run w).2

/-- A change of the world that keeps to a pact. -/
def Grants (change : World υ → World υ) : Prop := ∀ w, p.Keeps w → p.Follows w (change w)

/-- A handle on a behaviour that is there may be taken meanwhile. -/
def Escorts : Prop :=
  ∀ {s s' : Stage} {b : Ref .behaviour}, s.isAlive (.behaviour b) = true →
    p.leaves (s.retainAll [.behaviour b]) s' → p.leaves s (s'.releaseAll [.behaviour b])

/-- The callbacks of a host that may run while frames are played keep to a pact. -/
structure Binds (host : Host υ) : Prop where
  called : ∀ callback payload, p.Allows (host.called callback payload)
  driven : ∀ callback alpha, p.Allows (host.driven callback alpha)
  reacts : ∀ a call, p.Allows (host.reacts a call)

variable {p} {Q : α → Prop} {R : β → Prop} {w w' w'' : World υ}

theorem Follows.refl (keeps : p.Keeps w) : p.Follows w w := ⟨keeps, p.refl _⟩

theorem Follows.trans (h : p.Follows w w') (h' : p.Follows w' w'') : p.Follows w w'' :=
  ⟨h'.keeps, p.trans h.leaves h'.leaves⟩

theorem Keeps.follows (keeps : p.Keeps w) {s : Stage}
    (drives : ∀ b, (s.behaviours.get b).drive = (w.stage.behaviours.get b).drive)
    (leaves : p.leaves w.stage s) : p.Follows w { w with stage := s } :=
  ⟨⟨keeps.calm, fun b => drives b ▸ keeps.checked b⟩, leaves⟩

theorem Keeps.incidental (keeps : p.Keeps w) {s : Stage} (h : w.stage.Incidental s) :
    p.Follows w { w with stage := s } :=
  keeps.follows (fun b => by rw [h.behaviours]) (p.incidental h)

theorem abides_pure {a : α} (h : Q a) : p.Abides Q (pure a) w :=
  fun keeps => ⟨a, w, rfl, h, .refl keeps⟩

theorem abides_done : p.Abides (fun _ => True) (pure () : Script υ Unit) w := abides_pure trivial

theorem abides_bind {x : Script υ α} {f : α → Script υ β} (hx : p.Abides Q x w)
    (hf : ∀ a w', Q a → p.Abides R (f a) w') : p.Abides R (x >>= f) w := by
  intro keeps
  obtain ⟨a, w₁, run, hq, first⟩ := hx keeps
  obtain ⟨b, w₂, run', hr, rest⟩ := hf a w₁ hq first.keeps
  exact ⟨b, w₂, (run_bind_of_ok run f).trans run', hr, first.trans rest⟩

theorem abides_stage_bind {f : Stage → Script υ β} (hf : p.Keeps w → p.Abides R (f w.stage) w) :
    p.Abides R (stage >>= f) w :=
  fun keeps => hf keeps keeps

/-- After a change of the stage the rest is run. -/
theorem Follows.abides {x : Script υ α} {s : Stage} (first : p.Follows w { w with stage := s })
    (hx : p.Abides Q x { w with stage := s }) :
    ∃ a w', x.run { w with stage := s } = (.ok a, w') ∧ Q a ∧ p.Follows w w' := by
  obtain ⟨a, w', run, hq, rest⟩ := hx first.keeps
  exact ⟨a, w', run, hq, first.trans rest⟩

theorem abides_change_bind {g : Stage → Stage} {f : Unit → Script υ β}
    (h : w.stage.Incidental (g w.stage)) (hf : p.Abides R (f ()) { w with stage := g w.stage }) :
    p.Abides R (change g >>= f) w :=
  fun keeps => (keeps.incidental h).abides hf

theorem abides_note_bind {what : Occurrence} {f : Unit → Script υ β}
    (leaves : p.leaves w.stage (w.stage.note what))
    (hf : p.Abides R (f ()) { w with stage := w.stage.note what }) :
    p.Abides R (note what >>= f) w :=
  fun keeps => (keeps.follows (s := w.stage.note what) (fun _ => rfl) leaves).abides hf

theorem abides_produce_bind {g : Stage → Stage × α} {f : α → Script υ β}
    (h : w.stage.Incidental (g w.stage).1)
    (hf : p.Abides R (f (g w.stage).2) { w with stage := (g w.stage).1 }) :
    p.Abides R (produce g >>= f) w :=
  fun keeps => (keeps.incidental h).abides hf

theorem abides_check_bind {r : Except Violation α} {a : α} {f : α → Script υ β} (h : r = .ok a)
    (hf : p.Abides R (f a) w) : p.Abides R (check r >>= f) w := by
  intro keeps
  rw [run_check_ok_bind h]
  exact hf keeps

theorem abides_thenTidy {x : Script υ α} {tidy : Stage → Stage} (hx : p.Abides Q x w)
    (h : ∀ s : Stage, s.Incidental (tidy s)) : p.Abides Q (x.thenTidy tidy) w := by
  intro keeps
  obtain ⟨a, w', run, hq, first⟩ := hx keeps
  refine ⟨a, _, ?_, hq, first.trans (first.keeps.incidental (h _))⟩
  simp [run]

theorem abides_holding {handles : List Handle} {x : Script υ α}
    (others : ∀ h ∈ handles, h.isOnBehaviour = false)
    (hx : p.Abides Q x { w with stage := w.stage.retainAll handles }) :
    p.Abides Q (holding handles x) w :=
  abides_change_bind (.retainAll _ others) (abides_thenTidy hx fun s => .releaseAll s others)

theorem abides_forEach {visit : β → Script υ Unit} {list : List β}
    (h : ∀ b ∈ list, p.Allows (visit b)) (w : World υ) :
    p.Abides (fun _ => True) (forEach visit list) w := by
  induction list generalizing w with
  | nil => exact abides_done
  | cons b rest ih =>
      exact abides_bind (h b (List.mem_cons_self ..) w) fun _ w' _ =>
        ih (fun b' mem => h b' (List.mem_cons_of_mem _ mem)) w'

/-- An emitter that is free is held while a script runs, and then free again. -/
theorem abides_whileHeld {m : Ref .emitter} {x : Script υ Unit}
    (free : (w.stage.emitters.get m).isHeld = false) (hx : p.Allows x) :
    p.Abides (fun _ => True) (change (hold true m) >>= fun _ => x.thenTidy (hold false m)) w := by
  intro keeps
  obtain ⟨_, w', run, -, first⟩ := hx { w with stage := hold true m w.stage }
    ⟨keeps.calm, keeps.checked⟩
  refine ⟨(), { w' with stage := hold false m w'.stage }, ?_, trivial,
    ⟨first.keeps.calm, first.keeps.checked⟩, p.held free first.leaves⟩
  simp [run]

theorem Abides.bears {x : Script υ α} (hx : p.Abides Q x w) : p.Bears x w := by
  intro keeps
  obtain ⟨a, w', run, -, follows⟩ := hx keeps
  rw [run]
  exact follows

theorem bears_bind {x : Script υ α} {f : α → Script υ β} (hx : p.Bears x w)
    (hf : ∀ a w', p.Follows w w' → p.Bears (f a) w') : p.Bears (x >>= f) w := by
  intro keeps
  have first := hx keeps
  rw [run_bind]
  split
  · exact first.trans (hf _ _ first first.keeps)
  · exact first

theorem abides_escort {visit : Ref .actor → Script υ Unit} (h : ∀ a, p.Allows (visit a))
    (actors : List (Ref .actor)) (w : World υ) :
    p.Abides (fun _ => True) (escort visit actors) w := by
  induction actors generalizing w with
  | nil => exact abides_done
  | cons a rest ih =>
      intro keeps
      obtain ⟨_, w₁, run, -, first⟩ :=
        abides_thenTidy (h a w) (fun s => .release s (h := .actor a) rfl) keeps
      obtain ⟨_, w₂, run', -, others⟩ := ih w₁ first.keeps
      exact ⟨(), w₂, (run_bind_of_ok (run_attempt_of_ok run) _).trans run', trivial,
        first.trans others⟩

theorem abides_forEachActor {visit : Ref .actor → Script υ Unit} (h : ∀ a, p.Allows (visit a))
    (c : Ref .core) : p.Abides (fun _ => True) (forEachActor c visit) w := by
  refine abides_produce_bind (.pruneActors _ c) (abides_change_bind (.retainAll _ ?_)
    (abides_escort h _ _))
  intro handle mem
  obtain ⟨a, -, rfl⟩ := List.mem_map.1 mem
  rfl

namespace Binds

variable {host : Host υ} (hh : p.Binds host)

include hh

theorem ask (a : Ref .actor) (call : ActorCall) : p.Allows (Script.ask host a call) :=
  fun _ => abides_change_bind (.modifyActor _ a _) (hh.reacts a call _)

theorem askScale (a : Ref .actor) (gravity : Gravity) (x y : Double) :
    p.Allows (Script.askScale host a gravity x y) := by
  intro w
  unfold Script.askScale
  split
  · exact abides_bind (hh.ask a _ w) fun _ w' _ => hh.ask a _ w'
  · exact hh.ask a _ w

/-- A behaviour is driven to an alpha, which is in range. -/
theorem drive (b : Ref .behaviour) {alpha : Nat} (le : alpha ≤ alphaMax) :
    p.Allows (Script.drive host b alpha) := by
  intro w
  refine abides_stage_bind fun keeps => ?_
  dsimp only
  split
  · next bounds gravity drive =>
      have accepted := ScaleBounds.accepted_of_toBounds (keeps.checked b bounds gravity drive)
      exact abides_check_bind (accepted.sample_eq le)
        (abides_forEachActor (fun a => hh.askScale a _ _ _) _)
  · next bounds _ =>
      obtain ⟨value, sampled⟩ := bounds.exists_sampleOpacity le
      exact abides_check_bind sampled (abides_forEachActor (fun a => hh.ask a _) _)
  · next callback _ => exact hh.driven callback alpha w

/-- A behaviour is ticked whose ticks may be noted. -/
theorem tick (b : Ref .behaviour)
    (quiet : ∀ (s : Stage) (alpha : Nat), p.leaves s (s.note (.ticked b alpha))) :
    p.Allows (Script.tick host b) := by
  intro w
  refine abides_stage_bind fun keeps => ?_
  dsimp only
  split
  · exact abides_done
  · refine abides_holding (by simp [Handle.isOnBehaviour]) (abides_note_bind (quiet _ _) ?_)
    exact hh.drive b (Easing.sample_le ..) _

/-- Behaviours are ticked, each of which is kept there meanwhile. -/
theorem tickEach (escorts : p.Escorts) {entries : List Attachment}
    (quiet : ∀ e ∈ entries, ∀ (s : Stage) (alpha : Nat),
      p.leaves s (s.note (.ticked e.behaviour alpha))) (w : World υ) :
    p.Abides (fun _ => True) (Script.tickEach host entries) w := by
  induction entries generalizing w with
  | nil => exact abides_pure trivial
  | cons e rest ih =>
      have others := ih fun e mem => quiet e (List.mem_cons_of_mem _ mem)
      refine abides_stage_bind fun keeps => ?_
      split
      · next alive =>
          refine abides_bind (Q := fun _ => True) ?_ fun _ w' _ => others w'
          intro keeps
          have retained := w.stage.rehandled_retainAll [.behaviour e.behaviour]
          obtain ⟨_, w', run, -, ticked⟩ := hh.tick e.behaviour (quiet e (List.mem_cons_self ..))
            { w with stage := w.stage.retainAll [.behaviour e.behaviour] }
            ⟨keeps.calm, fun b => retained.drive b ▸ keeps.checked b⟩
          have released := w'.stage.rehandled_releaseAll [.behaviour e.behaviour]
          refine ⟨(), { w' with stage := w'.stage.releaseAll [.behaviour e.behaviour] }, ?_,
            trivial, ⟨ticked.keeps.calm, fun b => released.drive b ▸ ticked.keeps.checked b⟩,
            escorts alive ticked.leaves⟩
          simp [run]
      · exact abides_bind (others w) fun _ _ _ => abides_pure trivial

/-! ## Events -/

theorem offer (m : Ref .emitter) (event : String) (payload : Payload) (h : Handler) :
    p.Allows (Script.offer host m event payload h) := by
  intro w
  have responds : p.Abides (fun job => ∀ t, (Task.mk job .ready false).plays t = false)
      (Script.respond host m event payload h) w := by
    unfold Script.respond
    split
    · exact abides_bind (hh.called _ _ w) fun _ _ _ => abides_pure fun _ => rfl
    · exact abides_change_bind (.note _ rfl) (abides_pure fun _ => rfl)
  refine abides_bind responds fun job w' idle => abides_produce_bind (.spawn _ idle) ?_
  split
  · exact abides_done
  · exact fun keeps => ⟨(), _, rfl, trivial, keeps.incidental (.note _ rfl)⟩

/-- An event is emitted if its emitter is free. It is noted, and what follows abides by the
pact. -/
theorem run_emit (m : Ref .emitter) (event : String) (payload : Payload) {w : World υ}
    (keeps : p.Keeps w) (free : (w.stage.emitters.get m).isHeld = false) :
    ∃ w', (emit host m event payload).run w = (.ok (), w') ∧
      p.Follows { w with stage := w.stage.note (.emitted m event payload) } w' := by
  let noted : World υ := { w with stage := w.stage.note (.emitted m event payload) }
  have keeps : p.Keeps noted := ⟨keeps.calm, keeps.checked⟩
  unfold emit
  rw [run_bind_of_ok (run_await_of_free free), run_note_bind]
  split
  · exact ⟨noted, rfl, .refl keeps⟩
  · have free' : ((noted.stage.retainAll payload.handles).emitters.get m).isHeld = false := by
      rw [(Stage.rehandled_retainAll _ _).emitters]
      exact free
    obtain ⟨_, w', run, -, follows⟩ := abides_holding Handle.isOnBehaviour_of_timeline?
      (abides_whileHeld free' (abides_forEach fun h _ => hh.offer m event payload h)) keeps
    exact ⟨w', run, follows⟩

/-- An event is emitted that may be noted, if its emitter is free. -/
theorem emit (m : Ref .emitter) (event : String) (payload : Payload)
    (quiet : p.leaves w.stage (w.stage.note (.emitted m event payload))) :
    p.Bears (Script.emit host m event payload) w := by
  intro keeps
  cases free : (w.stage.emitters.get m).isHeld with
  | false =>
      obtain ⟨w', run, follows⟩ := hh.run_emit m event payload keeps free
      rw [run]
      exact (keeps.follows (s := w.stage.note _) (fun _ => rfl) quiet).trans follows
  | true =>
      rw [run_emit_of_held free]
      exact .refl keeps

end Binds

/-- A pact by which the clock of a timeline and its emitter are left alone. -/
def Guards (p : Pact υ) (t : Ref .timeline) : Prop :=
  ∀ {s s'}, p.leaves s s' → s'.clock t = s.clock t ∧ s'.emitterOf t = s.emitterOf t ∧
    (s'.emitters.get (s.emitterOf t)).isHeld = (s.emitters.get (s.emitterOf t)).isHeld

/-- A pact by which at least the emitter of a timeline is left alone. -/
def GuardsEmitter (p : Pact υ) (t : Ref .timeline) : Prop :=
  ∀ {s s'}, p.leaves s s' → s'.emitterOf t = s.emitterOf t ∧
    (s'.emitters.get (s.emitterOf t)).isHeld = (s.emitters.get (s.emitterOf t)).isHeld

theorem Guards.emitter {t : Ref .timeline} (guards : p.Guards t) : p.GuardsEmitter t :=
  fun leaves => (guards leaves).2

/-- An event of a timeline is noted, and what follows abides by a pact. -/
def Announces (p : Pact υ) (t : Ref .timeline) (event : TimelineEvent) (payload : Payload)
    (s s' : Stage) : Prop :=
  p.leaves (s.note (.emitted (s.emitterOf t) event.name payload)) s'

namespace Announces

variable {t : Ref .timeline} {event : TimelineEvent} {payload : Payload} {s s' : Stage}
  (h : p.Announces t event payload s s')

include h

theorem clock (guards : p.Guards t) : s'.clock t = s.clock t := (guards h).1

theorem free (guards : p.GuardsEmitter t)
    (free : (s.emitters.get (s.emitterOf t)).isHeld = false) :
    (s'.emitters.get (s'.emitterOf t)).isHeld = false := by
  obtain ⟨emitter, isHeld⟩ := guards h
  rw [emitter]
  exact isHeld.trans free

end Announces

/-- The news of a frame are announced, and at the end of a run the news of that. Then a timeline
that repeats goes back to the start. -/
def Concludes (p : Pact υ) (t : Ref .timeline) (played : Clock) (s s' : Stage) : Prop :=
  ∃ s₁, p.Announces t .newFrame (.frame t played.frame) s s₁ ∧
    (played.isComplete = false ∧ s' = s₁ ∨
      played.isComplete = true ∧ ∃ s₂, p.Announces t .completed (.timeline t) s₁ s₂ ∧
        s' = if played.repeats then s₂.rewind t else s₂)

namespace Binds

variable {host : Host υ} (hh : p.Binds host) {t : Ref .timeline}

include hh

theorem run_announce (event : TimelineEvent) (payload : Payload) (keeps : p.Keeps w)
    (free : (w.stage.emitters.get (w.stage.emitterOf t)).isHeld = false) :
    ∃ w', (announce host t event payload).run w = (.ok (), w') ∧ p.Keeps w' ∧
      p.Announces t event payload w.stage w'.stage := by
  obtain ⟨w', run, follows⟩ := hh.run_emit (w.stage.emitterOf t) event.name payload keeps free
  refine ⟨w', ?_, follows.keeps, follows.leaves⟩
  simpa [announce, Stage.emitterOf] using run

theorem run_concludeFrame (guards : p.GuardsEmitter t) (played : Clock) (keeps : p.Keeps w)
    (free : (w.stage.emitters.get (w.stage.emitterOf t)).isHeld = false) :
    ∃ w', (concludeFrame host t played).run w =
        (.ok (!played.isComplete || played.repeats), w') ∧
      p.Keeps w' ∧ p.Concludes t played w.stage w'.stage := by
  obtain ⟨w₁, run, keeps₁, news⟩ := hh.run_announce .newFrame (.frame t played.frame) keeps free
  unfold concludeFrame
  rw [run_bind_of_ok run]
  cases complete : played.isComplete with
  | false => exact ⟨w₁, rfl, keeps₁, _, news, .inl ⟨complete, rfl⟩⟩
  | true =>
      obtain ⟨w₂, run', keeps₂, news'⟩ :=
        hh.run_announce .completed (.timeline t) keeps₁ (news.free guards free)
      rw [if_pos rfl, run_bind_of_ok run']
      cases repeats : played.repeats with
      | false =>
          refine ⟨w₂, rfl, keeps₂, _, news, .inr ⟨complete, _, news', ?_⟩⟩
          rw [repeats]
          rfl
      | true =>
          refine ⟨{ w₂ with stage := w₂.stage.rewind t }, rfl, ⟨keeps₂.calm, keeps₂.checked⟩,
            _, news, .inr ⟨complete, _, news', ?_⟩⟩
          rw [repeats]
          rfl

end Binds

end Pact

end Animation
