/-
# A behaviour that scales actors on a timeline

A scene is all that leads from the frames of a timeline to the scales of actors: an alpha
that rises with the frames, a behaviour that is bound to the alpha, and the actors to which
the behaviour was applied. Other behaviours may follow the same timeline, and handlers may
hear of its events.

What the library does to a stage while it plays frames leaves a scene standing, except for
what frames are played for. A moment of a scene says where its clock and its actors are. It
also says how many handles have been lent on the things that the scene cannot do without,
over and above those that others have on them: a thing is there as long as these are not all.
-/

import Animation.Proofs.Behaviours.Path
import Animation.Proofs.Stage.Bindings

namespace Animation

/-- The scale of an actor, and how often it has been set. -/
structure Scaling where
  scale : Double × Double
  calls : Nat

/-- What becomes of a scale when something is asked of its actor. -/
def Scaling.after (x : Scaling) : ActorCall → Scaling
  | .setScale sx sy => ⟨(sx, sy), x.calls + 1⟩
  | _ => x

namespace Actor

def scaling (a : Actor) : Scaling := ⟨a.scale, a.scaleCalls⟩

theorem scaling_record (a : Actor) (word : String) : (a.record word).scaling = a.scaling := by
  unfold record
  split <;> rfl

theorem holders_record (a : Actor) (word : String) : (a.record word).holders = a.holders := by
  unfold record
  split <;> rfl

theorem scaling_receive (a : Actor) (call : ActorCall) :
    (a.receive call).scaling = a.scaling.after call := by
  cases call with
  | setAnchor x y => exact a.scaling_record "anchor"
  | anchorBy gravity =>
      unfold receive
      dsimp only
      split
      · exact a.scaling_record "anchor"
      · rfl
  | setScale x y => rfl
  | setOpacity value =>
      show (a.setOpacity value).scaling = a.scaling
      unfold setOpacity
      split
      · exact a.scaling_record "opacity"
      · rfl

theorem holders_receive (a : Actor) (call : ActorCall) :
    (a.receive call).holders = a.holders := by
  cases call with
  | setAnchor x y => exact a.holders_record "anchor"
  | anchorBy gravity =>
      unfold receive
      dsimp only
      split
      · exact a.holders_record "anchor"
      · rfl
  | setScale x y => exact a.holders_record "scale"
  | setOpacity value =>
      show (a.setOpacity value).holders = a.holders
      unfold setOpacity
      split
      · exact a.holders_record "opacity"
      · rfl

end Actor

/-- A behaviour that scales actors, all that leads to it from a timeline, and those who may be
driven or called besides while the timeline is played. -/
structure Scene (υ : Type) where
  timeline : Ref .timeline
  emitter : Ref .emitter
  alpha : Ref .alpha
  behaviour : Ref .behaviour
  core : Ref .core
  entry : Nat
  bounds : ScaleBounds
  gravity : Gravity
  actors : List (Ref .actor)
  /-- The other behaviours that follow the timeline. -/
  others : Ref .behaviour → Prop
  /-- What handlers of the timeline and other behaviours call. -/
  callbacks : Callback → Prop
  /-- The states in which the callers leave the scene alone. -/
  calm : υ → Prop

/-- Where a scene is: its clock, whether its emitter is held, the scales of its actors, and how
many handles have been lent. -/
structure Moment where
  clock : Clock
  isHeld : Bool
  scaling : Ref .actor → Scaling
  lent : Handle → Nat

namespace Moment

/-- The moment after handles have been lent. -/
def lending (m : Moment) (handles : List Handle) : Moment :=
  { m with lent := fun h => m.lent h + handles.count h }

/-- The moment after something has been asked of an actor. -/
def asking (m : Moment) (a : Ref .actor) (call : ActorCall) : Moment :=
  { m with scaling := fun a' => if a = a' then (m.scaling a).after call else m.scaling a' }

/-- The moment after every actor has been scaled once. -/
def scaled (m : Moment) (scale : Double × Double) : Moment :=
  { m with scaling := fun a => ⟨scale, (m.scaling a).calls + 1⟩ }

end Moment

namespace Stage

variable {s : Stage} {c c' : Ref .core} {a : Ref .actor}

theorem actors_pruneActors (s : Stage) (c c' : Ref .core) :
    ((s.pruneActors c).cores.get c').actors =
      if c = c' then s.actorsOf c else (s.cores.get c').actors := by
  simp only [pruneActors, setActors, modifyCore, Table.get_modify]
  split <;> rfl

theorem mem_of_mem_pruneActors (h : a ∈ ((s.pruneActors c).cores.get c').actors) :
    a ∈ (s.cores.get c').actors := by
  rw [actors_pruneActors] at h
  split at h
  · next same => exact same ▸ (List.mem_filter.1 h).1
  · exact h

/-- The actors that are there stay the same when those that are not are dropped. -/
theorem actorsOf_pruneActors (s : Stage) (c c' : Ref .core) :
    (s.pruneActors c).actorsOf c' = s.actorsOf c' := by
  unfold actorsOf
  rw [actors_pruneActors]
  split
  · next same =>
      subst same
      show (s.actorsOf c).filter (fun a => s.isAlive (.actor a)) = s.actorsOf c
      unfold actorsOf present
      rw [List.filter_filter]
      simp
  · rfl

end Stage

namespace Scene

variable {υ : Type} (k : Scene υ)

/-- The things that a scene cannot do without. -/
def needs : List Handle := .behaviour k.behaviour :: k.actors.map .actor

/-- A scene is set on a stage, and nobody else who follows its timeline scales its actors. -/
structure On (s : Stage) : Prop where
  timeline : s.timelineOf k.alpha = k.timeline
  easing : (s.alphas.get k.alpha).easing = .rampInc
  emitter : (s.timelines.get k.timeline).emitter = k.emitter
  core : s.coreOf k.behaviour = k.core
  drive : (s.behaviours.get k.behaviour).drive = .scale k.bounds k.gravity
  binding : (s.cores.get k.core).binding = some ⟨k.alpha, k.entry⟩
  actors : s.actorsOf k.core = k.actors
  others : ∀ e ∈ s.attachments k.timeline, e.behaviour ≠ k.behaviour → k.others e.behaviour
  apart : ∀ b, k.others b → s.isAlive (.behaviour b) → ∀ bounds gravity,
    (s.behaviours.get b).drive = .scale bounds gravity →
      ∀ a ∈ (s.cores.get (s.coreOf b)).actors, a ∉ k.actors
  callbacks : ∀ b, k.others b → s.isAlive (.behaviour b) → ∀ callback,
    (s.behaviours.get b).drive = .custom callback → k.callbacks callback
  handlers : ∀ h ∈ (s.emitters.get k.emitter).handlers, k.callbacks h.callback

/-- A scene stands in a world as it does at a moment. -/
structure Standing (m : Moment) (w : World υ) : Prop where
  on : k.On w.stage
  entries : w.stage.entriesOf k.timeline k.behaviour = [⟨k.entry, k.behaviour⟩]
  unique : ∀ e ∈ w.stage.attachments k.timeline, e.id = k.entry → e.behaviour = k.behaviour
  nodup : k.actors.Nodup
  checked : ∀ b, (w.stage.behaviours.get b).drive.Checked
  clock : w.stage.clock k.timeline = m.clock
  isHeld : (w.stage.emitters.get k.emitter).isHeld = m.isHeld
  scaling : ∀ a ∈ k.actors, (w.stage.actors.get a).scaling = m.scaling a
  lent : ∀ h ∈ k.needs, m.lent h < w.stage.holders h
  calm : k.calm w.user

variable {k} {m : Moment} {w : World υ}

/-- A scene stays set when handles are taken or given up, as long as what it needs is there
and nothing comes back that was gone. -/
theorem On.rehandled {s s' : Stage} (on : k.On s) (r : s.Rehandled s')
    (there : ∀ h ∈ k.needs, s'.isAlive h)
    (behaviours : ∀ b, s'.isAlive (.behaviour b) → s.isAlive (.behaviour b))
    (actors : ∀ a, s'.isAlive (.actor a) → s.isAlive (.actor a)) : k.On s' where
  timeline := (r.timelineOf _).trans on.timeline
  easing := by
    obtain ⟨n, e⟩ := r.alpha k.alpha
    rw [e]
    exact on.easing
  emitter := by
    obtain ⟨n, e⟩ := r.timeline k.timeline
    rw [e]
    exact on.emitter
  core := (r.coreOf _).trans on.core
  drive := (r.drive _).trans on.drive
  binding := (r.binding _).trans on.binding
  actors := by
    rw [Stage.actorsOf, r.actors, ← on.actors]
    apply List.filter_congr
    intro a ha
    rw [Bool.eq_iff_iff]
    refine ⟨actors a, fun alive => there _ ?_⟩
    have mem : a ∈ s.actorsOf k.core := List.mem_filter.2 ⟨ha, alive⟩
    rw [on.actors] at mem
    exact List.mem_cons_of_mem _ (List.mem_map_of_mem mem)
  others := by
    rw [r.attachments]
    exact on.others
  apart b hb alive := by
    rw [r.drive, r.coreOf, r.actors]
    exact on.apart b hb (behaviours b alive)
  callbacks b hb alive := by
    rw [r.drive]
    exact on.callbacks b hb (behaviours b alive)
  handlers := by
    rw [r.emitters]
    exact on.handlers

namespace Standing

theorem isAlive (h : k.Standing m w) {handle : Handle} (mem : handle ∈ k.needs) :
    w.stage.isAlive handle := by
  rw [Stage.isAlive_iff]
  exact Nat.lt_of_le_of_lt (Nat.zero_le _) (h.lent handle mem)

theorem accepted_of_scale (h : k.Standing m w) {b : Ref .behaviour} {bounds : ScaleBounds}
    {gravity : Gravity} (e : (w.stage.behaviours.get b).drive = .scale bounds gravity) :
    bounds.Accepted :=
  ScaleBounds.accepted_of_toBounds (h.checked b bounds gravity e)

theorem rehandled (m' : Moment) {s' : Stage} (h : k.Standing m w) (r : w.stage.Rehandled s')
    (clock : m'.clock = m.clock) (isHeld : m'.isHeld = m.isHeld) (scaling : m'.scaling = m.scaling)
    (lent : ∀ handle ∈ k.needs, m'.lent handle < s'.holders handle)
    (behaviours : ∀ b, s'.isAlive (.behaviour b) → w.stage.isAlive (.behaviour b))
    (actors : ∀ a, s'.isAlive (.actor a) → w.stage.isAlive (.actor a)) :
    k.Standing m' { w with stage := s' } where
  on := h.on.rehandled r
    (fun handle mem =>
      (s'.isAlive_iff).2 (Nat.lt_of_le_of_lt (Nat.zero_le _) (lent handle mem)))
    behaviours actors
  entries := by
    rw [Stage.entriesOf, r.attachments]
    exact h.entries
  unique := by
    rw [r.attachments]
    exact h.unique
  nodup := h.nodup
  checked b := by
    rw [r.drive]
    exact h.checked b
  clock := by
    obtain ⟨n, e⟩ := r.timeline k.timeline
    rw [clock, ← h.clock, Stage.clock, e, Stage.clock]
  isHeld := by
    rw [isHeld, ← h.isHeld]
    exact congrArg (fun rows => (rows.get k.emitter).isHeld) r.emitters
  scaling a ha := by
    obtain ⟨n, e⟩ := r.actor a
    rw [scaling, ← h.scaling a ha, e]
    rfl
  lent := lent
  calm := h.calm

/-- Handles are lent on things that are there. -/
theorem lend (h : k.Standing m w) {handles : List Handle}
    (behaviours : ∀ b, .behaviour b ∈ handles → w.stage.isAlive (.behaviour b))
    (actors : ∀ a, .actor a ∈ handles → w.stage.isAlive (.actor a)) :
    k.Standing (m.lending handles) { w with stage := w.stage.retainAll handles } := by
  have was : ∀ handle, (handle ∈ handles → w.stage.isAlive handle) →
      (w.stage.retainAll handles).isAlive handle → w.stage.isAlive handle := by
    intro handle there alive
    by_cases mem : handle ∈ handles
    · exact there mem
    · rw [Stage.isAlive_iff, Stage.holders_retainAll, List.count_eq_zero.2 mem] at alive
      exact (Stage.isAlive_iff _).2 alive
  apply h.rehandled (m.lending handles) (w.stage.rehandled_retainAll handles) rfl rfl rfl
  · intro handle mem
    rw [Stage.holders_retainAll]
    exact Nat.add_lt_add_right (h.lent handle mem) _
  · exact fun b => was _ (behaviours b)
  · exact fun a => was _ (actors a)

/-- To give up a handle on something never brings anything back. -/
theorem isAlive_of_releaseAll {s : Stage} {handles : List Handle} {handle : Handle}
    (alive : (s.releaseAll handles).isAlive handle) : s.isAlive handle := by
  induction handles generalizing s with
  | nil => exact alive
  | cons first rest ih =>
      have before := ih alive
      rw [Stage.isAlive_iff] at before ⊢
      exact Nat.lt_of_lt_of_le before (s.holders_release_le first handle)

theorem holders_releaseAll {s : Stage} (handles : List Handle) {handle : Handle}
    (mem : handle ∈ k.needs) :
    (s.releaseAll handles).holders handle = s.holders handle - handles.count handle := by
  rcases List.mem_cons.1 mem with rfl | mem
  · exact s.holders_releaseAll_behaviour handles _
  · obtain ⟨a, _, rfl⟩ := List.mem_map.1 mem
    exact s.holders_releaseAll_actor handles a

/-- Handles that were lent are given back. -/
theorem giveBack {handles : List Handle} (h : k.Standing (m.lending handles) w) :
    k.Standing m { w with stage := w.stage.releaseAll handles } := by
  apply h.rehandled m (w.stage.rehandled_releaseAll handles) rfl rfl rfl
  · intro handle mem
    have lent := h.lent handle mem
    rw [holders_releaseAll handles mem]
    unfold Moment.lending at lent
    dsimp only at lent
    omega
  · exact fun b => isAlive_of_releaseAll
  · exact fun a => isAlive_of_releaseAll

/-- Nobody has to know that handles were lent. -/
theorem forget {handles : List Handle} (h : k.Standing (m.lending handles) w) :
    k.Standing m w where
  __ := h
  lent handle mem := Nat.lt_of_le_of_lt (Nat.le_add_right ..) (h.lent handle mem)

theorem lent_of_eq {s' : Stage} (h : k.Standing m w)
    (behaviours : s'.behaviours = w.stage.behaviours) (actors : s'.actors = w.stage.actors) :
    ∀ handle ∈ k.needs, m.lent handle < s'.holders handle := by
  intro handle mem
  have lent := h.lent handle mem
  rcases List.mem_cons.1 mem with rfl | mem
  · unfold Stage.holders at lent ⊢
    rw [behaviours]
    exact lent
  · obtain ⟨a, _, rfl⟩ := List.mem_map.1 mem
    unfold Stage.holders at lent ⊢
    rw [actors]
    exact lent

theorem note (h : k.Standing m w) (what : Occurrence) :
    k.Standing m { w with stage := w.stage.note what } where
  __ := h
  on := { h.on with }

theorem schedule (h : k.Standing m w) (tasks : Table .task Task) (agenda : Agenda) :
    k.Standing m { w with stage := { w.stage with tasks, agenda } } where
  __ := h
  on := { h.on with }

/-- Handles on timelines are lent, which a scene does without. -/
theorem lendTimelines (h : k.Standing m w) (t? : Option (Ref .timeline)) :
    k.Standing (m.lending (t?.map Handle.timeline).toList)
      { w with stage := w.stage.retainAll (t?.map Handle.timeline).toList } := by
  apply h.lend
  · intro b mem
    cases t? <;> simp at mem
  · intro a mem
    cases t? <;> simp at mem

theorem spawn (h : k.Standing m w) (job : Job) :
    k.Standing m { w with stage := (w.stage.spawn job).1 } := by
  unfold Stage.spawn
  split
  · exact h
  · exact (h.lendTimelines job.timeline?).forget.schedule _ _

/-- The emitter of a scene is held, or let go of. -/
theorem hold (h : k.Standing m w) (isHeld : Bool) :
    k.Standing { m with isHeld } { w with stage := Script.hold isHeld k.emitter w.stage } where
  __ := h
  on :=
    { h.on with
      handlers := by
        rw [Script.hold, Stage.modifyEmitter, Table.get_modify_same]
        exact h.on.handlers }
  isHeld := congrArg Emitter.isHeld (Table.get_modify_same ..)

theorem letGo (free : m.isHeld = false) (h : k.Standing { m with isHeld := true } w) :
    k.Standing m { w with stage := Script.hold false k.emitter w.stage } := by
  have stands := h.hold false
  exact { stands with isHeld := stands.isHeld.trans free.symm }

/-- The clock of a scene is replaced. -/
theorem turn (h : k.Standing m w) (clock : Clock) :
    k.Standing { m with clock } { w with stage := w.stage.setClock k.timeline clock } := by
  have attachments : (w.stage.setClock k.timeline clock).attachments k.timeline =
      w.stage.attachments k.timeline :=
    Table.proj_get_modify (g := Timeline.attachments) _ _ _ fun _ => rfl
  exact
    { h with
      on :=
        { h.on with
          emitter := by
            apply Eq.trans _ h.on.emitter
            exact Table.proj_get_modify (g := Timeline.emitter) _ _ _ fun _ => rfl
          others := by
            rw [attachments]
            exact h.on.others }
      entries := by
        rw [Stage.entriesOf, attachments]
        exact h.entries
      unique := by
        rw [attachments]
        exact h.unique
      clock := congrArg Timeline.clock (Table.get_modify_same ..)
      lent := h.lent_of_eq rfl rfl }

/-- Entries are removed, but not that of the behaviour. -/
theorem detach (h : k.Standing m w) {ids : List Nat} (kept : k.entry ∉ ids) :
    k.Standing m { w with stage := w.stage.detach k.timeline ids } := by
  have mem : ∀ {e}, e ∈ (w.stage.detach k.timeline ids).attachments k.timeline →
      e ∈ w.stage.attachments k.timeline := fun he =>
    ((w.stage.mem_attachments_detach k.timeline ids).1 he).1
  exact
    { h with
      on :=
        { h.on with
          emitter := by
            apply Eq.trans _ h.on.emitter
            exact Table.proj_get_modify (g := Timeline.emitter) _ _ _ fun _ => rfl
          others := fun e he => h.on.others e (mem he) }
      entries := by
        have entries := congrArg (List.filter fun e => !ids.contains e.id) h.entries
        rw [Stage.entriesOf, List.filter_filter] at entries
        rw [Stage.entriesOf, Stage.attachments_detach, if_pos rfl, List.filter_filter]
        simp only [Bool.and_comm] at entries ⊢
        rw [entries]
        simp [kept]
      unique := fun e he => h.unique e (mem he)
      clock := by
        rw [← h.clock]
        exact Table.proj_get_modify (g := Timeline.clock) _ _ _ fun _ => rfl
      lent := h.lent_of_eq rfl rfl }

/-- The actors of a core are gone through, and those that are no longer there are dropped. -/
theorem prune (h : k.Standing m w) (c : Ref .core) :
    k.Standing m { w with stage := w.stage.pruneActors c } where
  __ := h
  on :=
    { h.on with
      binding := by
        apply Eq.trans _ h.on.binding
        exact Table.proj_get_modify (g := Core.binding) _ _ _ fun _ => rfl
      actors := (w.stage.actorsOf_pruneActors c k.core).trans h.on.actors
      apart := fun b hb alive bounds gravity e a ha =>
        h.on.apart b hb alive bounds gravity e a (Stage.mem_of_mem_pruneActors ha) }
  lent := h.lent_of_eq rfl rfl

/-- Something is asked of an actor. -/
theorem ask (h : k.Standing m w) (a : Ref .actor) (call : ActorCall) :
    k.Standing (m.asking a call) { w with stage := w.stage.modifyActor a (·.receive call) } := by
  have holders : ∀ handle, (w.stage.modifyActor a (·.receive call)).holders handle =
      w.stage.holders handle := by
    intro handle
    cases handle with
    | actor a' =>
        exact Table.proj_get_modify (g := Actor.holders) _ a a' fun row =>
          Actor.holders_receive row call
    | timeline _ | alpha _ | core _ | behaviour _ => rfl
  exact
    { h with
      on :=
        { h.on with
          actors := by
            rw [← h.on.actors]
            apply List.filter_congr
            intro a' _
            rw [Stage.isAlive, holders, Stage.isAlive] }
      scaling := fun a' ha' => by
        simp only [Stage.modifyActor, Table.get_modify, Moment.asking]
        by_cases same : a = a'
        · subst same
          rw [if_pos rfl, if_pos rfl, Actor.scaling_receive, h.scaling a ha']
        · rw [if_neg same, if_neg same, h.scaling a' ha']
      lent := fun handle mem => by
        rw [holders]
        exact h.lent handle mem }

end Standing

end Scene

end Animation
