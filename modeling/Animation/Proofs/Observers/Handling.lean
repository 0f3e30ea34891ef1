/-
# What handlers do about an event

An emission goes through the handlers of its event in the order of their registration. Each of them
is served: it is called if it accepts the payload, and complained about if it does not, and either
way a task is spawned for it, or a complaint is made that it could not be. All that handlers do when
they are called lies between the marks of their calls. It may concern anybody but the emitter that
calls them, which is held until the last one has been served, so that nothing becomes of the
registrations with it.
-/

import Animation.Proofs.Observers.Dispatch
import Animation.Proofs.Playback.Tasks

namespace Animation

namespace Stage

variable {s s' s'' : Stage}

theorem newTasks_eq (s s' : Stage) :
    s.newTasks s' = (List.range' s.tasks.size (s'.tasks.size - s.tasks.size)).map Ref.mk := by
  rw [newTasks, Table.refs, ← List.map_drop, List.range_eq_range', List.drop_range', Nat.zero_add,
    Nat.mul_one]

theorem newTasks_of_tasks_eq (same : s'.tasks = s.tasks) : s.newTasks s' = [] := by
  rw [newTasks_eq, same, Nat.sub_self]
  rfl

theorem newTasks_congr {t t' : Stage} (before : t.tasks = s.tasks) (after : t'.tasks = s'.tasks) :
    t.newTasks t' = s.newTasks s' := by
  rw [newTasks, newTasks, before, after]

theorem Grows.newTasks_append (h : s.Grows s') (h' : s'.Grows s'') :
    s.newTasks s'' = s.newTasks s' ++ s'.newTasks s'' := by
  have size := h.tasks
  have size' := h'.tasks
  have parts : s''.tasks.size - s.tasks.size =
      (s'.tasks.size - s.tasks.size) + (s''.tasks.size - s'.tasks.size) := by omega
  have middle : s.tasks.size + 1 * (s'.tasks.size - s.tasks.size) = s'.tasks.size := by omega
  rw [newTasks_eq, newTasks_eq, newTasks_eq, parts, ← List.map_append, ← List.range'_append, middle]

end Stage

/-- Whether it is said of a handler of an emitter that it was not called, or that its task could not
be run. -/
def Occurrence.isAbout (m : Ref .emitter) : Occurrence → Bool
  | mismatched m' _ | unrun m' _ _ => m' == m
  | _ => false

theorem Occurrence.isIncidental_of_isAbout {m : Ref .emitter} {what : Occurrence}
    (h : what.isAbout m) : what.isIncidental := by
  cases what <;> first | rfl | exact nomatch h

namespace Stage

variable {s s' : Stage} {m : Ref .emitter}

/-- What has been said of the handlers of an emitter, in this order. -/
def complaints (s : Stage) (m : Ref .emitter) : List Occurrence :=
  (s.journal.reverse.map (·.what)).filter (·.isAbout m)

theorem complaints_of_journal_eq (same : s'.journal = s.journal) (m : Ref .emitter) :
    s'.complaints m = s.complaints m := by
  rw [complaints, same, complaints]

theorem complaints_note (s : Stage) (m : Ref .emitter) (what : Occurrence) :
    (s.note what).complaints m = s.complaints m ++ [what].filter (·.isAbout m) := by
  rw [complaints, note, List.reverse_cons, List.map_append, List.filter_append]
  rfl

theorem Aside.complaints (h : s.Aside s') (m : Ref .emitter) :
    s'.complaints m = s.complaints m := by
  obtain ⟨notes, journal, others⟩ := h.journal
  have none : (notes.reverse.map (·.what)).filter (·.isAbout m) = [] := by
    refine List.filter_eq_nil_iff.2 fun what mem about => ?_
    obtain ⟨e, noted, rfl⟩ := List.mem_map.1 mem
    have incidental := Occurrence.isIncidental_of_isAbout about
    rw [others e (List.mem_reverse.1 noted)] at incidental
    exact nomatch incidental
  rw [Stage.complaints, journal, List.reverse_append, List.map_append, List.filter_append, none,
    List.append_nil, Stage.complaints]

/-- The registrations with an emitter, and the complaints about its handlers, are left alone. -/
structure Withholds (m : Ref .emitter) (s s' : Stage) : Prop where
  emitter : s'.emitters.get m = s.emitters.get m
  complaints : s'.complaints m = s.complaints m

end Stage

namespace Regime

open Script

variable {υ : Type}

/-- Tasks come and keep their jobs. -/
def growing (υ : Type) : Regime υ where
  leads w w' := w.stage.Grows w'.stage
  refl w := .refl w.stage
  trans := .trans
  motion {w s} motion := by
    cases motion with
    | aside aside => exact aside.toGrows
    | addNotifier | register | unregister | addEmitter | registerHandler | unregisterHandler =>
        exact .of_eq rfl rfl

theorem lax_growing (m : Ref .emitter) : (growing υ).Lax m where
  hold _ _ := .of_eq rfl rfl
  mismatched _ _ := .of_eq rfl rfl
  unrun _ _ _ := .of_eq rfl rfl

/-- As long as an emitter is held nobody gets at it. -/
def withholding (υ : Type) (m : Ref .emitter) : Regime υ where
  leads w w' := (w.stage.emitters.get m).isHeld = true → w.stage.Withholds m w'.stage
  refl _ _ := ⟨rfl, rfl⟩
  trans h h' held :=
    have first := h held
    have second := h' (first.emitter ▸ held)
    ⟨second.emitter.trans first.emitter, second.complaints.trans first.complaints⟩
  motion {w s} motion held := by
    have other : ∀ {m'}, (w.stage.emitters.get m').isHeld = false → m' ≠ m := by
      rintro m' free rfl
      rw [held] at free
      contradiction
    cases motion with
    | aside aside => exact ⟨by rw [aside.emitters], aside.complaints m⟩
    | addNotifier | register | unregister => exact ⟨rfl, rfl⟩
    | addEmitter =>
        refine ⟨?_, rfl⟩
        show (w.stage.emitters.push .empty).get m = _
        rw [Table.get_push, if_neg]
        exact (other (by rw [Table.get_next]; rfl)).symm
    | registerHandler m' _ _ _ free | unregisterHandler m' _ free =>
        exact ⟨Table.get_modify_of_ne _ _ (other free), rfl⟩

theorem lax_withholding {m m' : Ref .emitter} (ne : m' ≠ m) : (withholding υ m).Lax m' where
  hold w _ _ := ⟨Table.get_modify_of_ne _ _ ne, rfl⟩
  mismatched w event _ := by
    refine ⟨rfl, ?_⟩
    rw [Stage.complaints_note, List.filter_cons_of_neg (by simpa [Occurrence.isAbout] using ne)]
    exact List.append_nil _
  unrun w event cause _ := by
    refine ⟨rfl, ?_⟩
    rw [Stage.complaints_note, List.filter_cons_of_neg (by simpa [Occurrence.isAbout] using ne)]
    exact List.append_nil _

theorem governs_withholding {host : Host υ} {m : Ref .emitter}
    (h : (withholding υ m).Allows host) : (withholding υ m).Governs host where
  notify := rules_notify h.notified
  emit m' event payload w held := by
    by_cases same : m' = m
    · subst same
      rw [run_emit_of_held held]
      exact ⟨rfl, rfl⟩
    · exact (lax_withholding same).emit h.called event payload w held
  driven := h.driven
  ask := rules_ask (fun _ _ _ _ => ⟨rfl, rfl⟩) h.reacts

end Regime

namespace Host.Traceable

variable {υ : Type} {host : Host (Traced υ)} (h : host.Traceable)

include h

theorem growing : (Regime.growing (Traced υ)).Allows host.traced :=
  have marked : ∀ w m, (Regime.growing (Traced υ)).leads w (w.mark m) := fun _ _ => .refl _
  Regime.Allows.traced
    (h.allowed (fun allows => (allows.traced marked).governs Regime.lax_growing
        fun _ _ _ => .of_eq rfl rfl)
      fun _ => .refl _) marked

theorem withholding (m : Ref .emitter) : (Regime.withholding (Traced υ) m).Allows host.traced :=
  have marked : ∀ w mark, (Regime.withholding (Traced υ) m).leads w (w.mark mark) :=
    fun _ _ _ => ⟨rfl, rfl⟩
  Regime.Allows.traced
    (h.allowed (fun allows => Regime.governs_withholding (allows.traced marked))
      fun _ _ => ⟨rfl, rfl⟩) marked

end Host.Traceable

/-! ## Service -/

/-- How a handler was served: what came of its call, if it was called, and the task that was spawned
for it, if one could be. -/
structure Service where
  handler : Handler
  outcome : Option Returned
  task : Option (Ref .task)
  deriving DecidableEq

namespace Service

/-- The job of the task. -/
def job (payload : Payload) (v : Service) : Job :=
  match v.outcome with
  | some outcome => .routine outcome.answer payload.timeline?
  | none => .idle

/-- The tasks that come of it: those that were spawned in the call, and the handler's own. -/
def tasks (v : Service) : List (Ref .task) :=
  ((v.outcome.map (·.spawned)).getD []) ++ v.task.toList

/-- The complaints that it gives rise to: a warning if it was not called, and an error if it has no
task. -/
def complaints (m : Ref .emitter) (event : String) (v : Service) : List Occurrence :=
  (if v.outcome.isNone then [.mismatched m event] else []) ++
    if v.task.isNone then [.unrun m event .outsideRuntime] else []

/-- A handler is called exactly if it accepts the payload, and has a task exactly if there is a
channel. -/
structure Fits (payload : Payload) (hasChannel : Bool) (s : Stage) (v : Service) : Prop where
  called : v.outcome.isSome = v.handler.matches payload
  spawned : v.task.isSome = hasChannel
  job : ∀ k, v.task = some k → k.index < s.tasks.size ∧ (s.tasks.get k).job = v.job payload

theorem Fits.grow {payload : Payload} {hasChannel : Bool} {s s' : Stage} {v : Service}
    (h : v.Fits payload hasChannel s) (grows : s.Grows s') : v.Fits payload hasChannel s' where
  called := h.called
  spawned := h.spawned
  job k own := by
    obtain ⟨added, job⟩ := h.job k own
    exact ⟨Nat.lt_of_lt_of_le added grows.tasks, (grows.job k added).trans job⟩

end Service

/-- An event is handled, from one stage to a later one: the handlers that accept the payload are
called one after the other, and all are served in their order, up to one that breaks off. -/
structure Serves (m : Ref .emitter) (event : String) (payload : Payload) (handlers : List Handler)
    (s s' : Stage) (l : List Mark) (services : List Service) (ended : Bool) : Prop where
  calls : Carries Balanced
    ((handlers.filter (·.matches payload)).map fun h => .called h.callback payload) l
    (services.filterMap (·.outcome)) ended
  handlers : ∃ rest, handlers = services.map (·.handler) ++ rest ∧ (rest = [] ↔ ended = true)
  fits : ∀ v ∈ services, v.Fits payload s.agenda.channel.isSome s'
  /-- The tasks that there are now and were not before, in the order of their numbers. -/
  tasks : ∃ inside, s.newTasks s' = services.flatMap (·.tasks) ++ inside ∧
    (ended = true → inside = [])
  complaints : s'.complaints m = s.complaints m ++ services.flatMap (·.complaints m event)
  emitter : s'.emitters.get m = s.emitters.get m
  grows : s.Grows s'

namespace Serves

variable {m : Ref .emitter} {event : String} {payload : Payload} {handlers handlers' : List Handler}
  {s s' s'' : Stage} {l l' : List Mark} {services services' : List Service} {ended : Bool}

theorem nil (s : Stage) : Serves m event payload [] s s [] [] true where
  calls := .done
  handlers := ⟨[], rfl, by simp⟩
  fits _ mem := nomatch mem
  tasks := ⟨[], Stage.newTasks_of_tasks_eq rfl, fun _ => rfl⟩
  complaints := (List.append_nil _).symm
  emitter := rfl
  grows := .refl s

theorem append (h : Serves m event payload handlers s s' l services true)
    (h' : Serves m event payload handlers' s' s'' l' services' ended) :
    Serves m event payload (handlers ++ handlers') s s'' (l ++ l') (services ++ services')
      ended where
  calls := by
    rw [List.filter_append, List.map_append, List.filterMap_append]
    exact h.calls.append rfl h'.calls
  handlers := by
    obtain ⟨none, all, done⟩ := h.handlers
    obtain ⟨rest, some, rest_iff⟩ := h'.handlers
    refine ⟨rest, ?_, rest_iff⟩
    rw [all, done.2 rfl, some, List.append_nil, List.map_append, List.append_assoc]
  fits v mem := by
    rcases List.mem_append.1 mem with mem | mem
    · exact (h.fits v mem).grow h'.grows
    · exact h.grows.channel ▸ h'.fits v mem
  tasks := by
    obtain ⟨none, first, done⟩ := h.tasks
    obtain ⟨inside, second, done'⟩ := h'.tasks
    refine ⟨inside, ?_, done'⟩
    rw [h.grows.newTasks_append h'.grows, first, done rfl, second, List.append_nil,
      List.flatMap_append, List.append_assoc]
  complaints := by
    rw [h'.complaints, h.complaints, List.flatMap_append, List.append_assoc]
  emitter := h'.emitter.trans h.emitter
  grows := h.grows.trans h'.grows

/-- After a handler that breaks off no other one is served. -/
theorem stop (h : Serves m event payload handlers s s' l services false)
    (handlers' : List Handler) :
    Serves m event payload (handlers ++ handlers') s s' l services false where
  __ := h
  calls := by
    rw [List.filter_append, List.map_append]
    exact h.calls.stop rfl
  handlers := by
    obtain ⟨rest, some, rest_iff⟩ := h.handlers
    refine ⟨rest ++ handlers', by rw [some, List.append_assoc], ?_⟩
    rw [List.append_eq_nil_iff, rest_iff]
    simp

/-- What is done before and after with neither tasks nor complaints does not count, if the emitter
is left as it was at first. -/
theorem enclose (h : Serves m event payload handlers s s' l services ended) {t t' : Stage}
    (before : s.tasks = t.tasks ∧ s.agenda = t.agenda ∧ s.complaints m = t.complaints m)
    (after : t'.tasks = s'.tasks ∧ t'.agenda = s'.agenda ∧ t'.journal = s'.journal)
    (emitter : t'.emitters.get m = t.emitters.get m) :
    Serves m event payload handlers t t' l services ended where
  calls := h.calls
  handlers := h.handlers
  fits v mem := by
    have fits := h.fits v mem
    rw [before.2.1] at fits
    exact fits.grow (.of_eq after.1 after.2.1)
  tasks := by
    rw [Stage.newTasks_congr before.1.symm after.1]
    exact h.tasks
  complaints := by
    rw [Stage.complaints_of_journal_eq after.2.2, h.complaints, before.2.2]
  emitter := emitter
  grows := (Stage.Grows.of_eq before.1 before.2.1).trans
    (h.grows.trans (.of_eq after.1 after.2.1))

end Serves

namespace Script

variable {υ : Type} {m : Ref .emitter} {event : String} {payload : Payload}

/-- A task that is spawned for a handler, or the complaint that it could not be. -/
structure Assigns (m : Ref .emitter) (event : String) (job : Job) (s s' : Stage)
    (task : Option (Ref .task)) : Prop where
  spawned : task.isSome = s.agenda.channel.isSome
  job : ∀ k, task = some k → k.index < s'.tasks.size ∧ (s'.tasks.get k).job = job
  tasks : s.newTasks s' = task.toList
  complaints : s'.complaints m = s.complaints m ++
    if task.isNone then [.unrun m event .outsideRuntime] else []
  emitter : s'.emitters.get m = s.emitters.get m
  grows : s.Grows s'

/-- Spawn a task for a handler. -/
def assign (m : Ref .emitter) (event : String) (job : Job) : Script υ Unit := do
  match ← produce (·.spawn job) with
  | some _ => pure ()
  | none => note (.unrun m event .outsideRuntime)

theorem offer_eq (host : Host υ) (h : Handler) :
    offer host m event payload h = respond host m event payload h >>= assign m event := rfl

theorem run_assign (m : Ref .emitter) (event : String) (job : Job) (w : World υ) : ∃ task s',
    (assign m event job).run w = (.ok (), { w with stage := s' }) ∧
      Assigns m event job w.stage s' task := by
  cases channel : w.stage.agenda.channel with
  | none =>
      have spawned := Stage.spawn_of_no_channel channel job
      refine ⟨none, w.stage.note (.unrun m event .outsideRuntime), ?_, ?_⟩
      · simp [assign, spawned]
      · refine ⟨by rw [channel]; rfl, nofun, Stage.newTasks_of_tasks_eq rfl, ?_, rfl,
          .of_eq rfl rfl⟩
        rw [Stage.complaints_note, List.filter_cons_of_pos (by simp [Occurrence.isAbout])]
        rfl
  | some reported =>
      have grows := (Stage.Aside.spawn w.stage job).toGrows
      have spawned := Stage.spawn_of_channel channel job
      have retained := w.stage.rehandled_retainAll job.handles
      refine ⟨some w.stage.tasks.next, (w.stage.spawn job).1, ?_, ?_⟩
      · simp [assign, spawned]
      · rw [spawned] at grows ⊢
        refine ⟨by rw [channel]; rfl, ?_, ?_, ?_, ?_, grows⟩
        · rintro k own
          cases own
          refine ⟨?_, ?_⟩
          · show _ < (w.stage.tasks.push _).size
            rw [Table.size_push]
            exact Nat.lt_succ_self _
          · exact congrArg Task.job (Table.get_push_next _ _)
        · rw [Stage.newTasks]
          show List.drop _ (w.stage.tasks.push _).refs = _
          rw [Table.refs_push]
          exact List.drop_left' (by simp [Table.refs])
        · exact (Stage.complaints_of_journal_eq retained.journal m).trans (List.append_nil _).symm
        · exact congrArg (Table.get · m) retained.emitters

/-- A handler has responded, and then its task is seen to. -/
theorem Assigns.serves {h : Handler} {outcome : Option Returned} {task : Option (Ref .task)}
    {s s₁ s₂ : Stage} {l : List Mark}
    (assigns : Assigns m event ((Service.mk h outcome task).job payload) s₁ s₂ task)
    (called : outcome.isSome = h.matches payload)
    (calls : Carries Balanced
      (([h].filter (·.matches payload)).map fun h => .called h.callback payload) l
      outcome.toList true)
    (tasks : s.newTasks s₁ = (outcome.map (·.spawned)).getD [])
    (complaints : s₁.complaints m = s.complaints m ++
      if outcome.isNone then [.mismatched m event] else [])
    (emitter : s₁.emitters.get m = s.emitters.get m) (grows : s.Grows s₁) :
    Serves m event payload [h] s s₂ l [⟨h, outcome, task⟩] true where
  calls := by
    cases outcome <;> exact calls
  handlers := ⟨[], rfl, by simp⟩
  fits v mem := by
    cases List.mem_singleton.1 mem
    exact ⟨called, grows.channel ▸ assigns.spawned, assigns.job⟩
  tasks := by
    refine ⟨[], ?_, fun _ => rfl⟩
    rw [grows.newTasks_append assigns.grows, tasks, assigns.tasks]
    simp [Service.tasks]
  complaints := by
    rw [assigns.complaints, complaints]
    simp [Service.complaints]
  emitter := assigns.emitter.trans emitter
  grows := grows.trans assigns.grows

/-- A handler that does not accept the payload is complained about. -/
theorem serves_refusing (host : Host (Traced υ)) {h : Handler} (refuses : h.matches payload = false)
    (w : World (Traced υ)) : ∃ s' services,
      (offer host m event payload h).run w = (.ok (), { w with stage := s' }) ∧
        Serves m event payload [h] w.stage s' [] services true := by
  have responds : (respond host m event payload h).run w =
      (.ok .idle, { w with stage := w.stage.note (.mismatched m event) }) := by
    unfold respond
    rw [refuses]
    rfl
  obtain ⟨task, s', run, assigns⟩ := run_assign m event .idle
    { w with stage := w.stage.note (.mismatched m event) }
  rw [offer_eq, run_bind_of_ok responds, run]
  refine ⟨s', [⟨h, none, task⟩], rfl, Assigns.serves assigns refuses.symm ?_
    (Stage.newTasks_of_tasks_eq rfl) ?_ rfl (.of_eq rfl rfl)⟩
  · rw [List.filter_cons_of_neg (by simp [refuses])]
    exact .done
  · rw [Stage.complaints_note, List.filter_cons_of_pos (by simp [Occurrence.isAbout])]
    rfl

section Traced

variable {host : Host (Traced υ)} (traceable : host.Traceable)

include traceable

/-- A handler that accepts the payload is called. -/
theorem serves_accepting {h : Handler} (accepts : h.matches payload = true) (w : World (Traced υ))
    (held : (w.stage.emitters.get m).isHeld = true) : ∃ r w' l services ended,
      (offer host.traced m event payload h).run w = (r, w') ∧
        w'.user.trace = w.user.trace ++ l ∧
          Serves m event payload [h] w.stage w'.stage l services ended ∧
            (r = .ok () ↔ ended = true) := by
  have todo : ([h].filter (·.matches payload)).map
      (fun h => Invocation.called h.callback payload) = [.called h.callback payload] := by
    simp [accepts]
  obtain ⟨r, w₁, l, run, goes, trace⟩ := Regime.dispatching_bracket
    (traceable.dispatching.called h.callback payload) (.called h.callback payload) id w
  have run : (host.traced.called h.callback payload).run w = (r, w₁) := run
  have grows := traceable.growing.called h.callback payload w
  have kept := (traceable.withholding m).called h.callback payload w held
  rw [run] at grows kept
  have responds : (respond host.traced m event payload h).run w =
      (r.map fun code => Job.routine code payload.timeline?, w₁) := by
    unfold respond
    rw [accepts, if_pos rfl, run_bind, run]
    cases r <;> rfl
  rw [offer_eq]
  cases r with
  | error fault =>
      refine ⟨.error fault, w₁, _, [], false, ?_, trace, ?_, by simp⟩
      · rw [run_bind, responds]
        rfl
      · exact {
          calls := todo ▸ .broken goes.balanced
          handlers := ⟨[h], rfl, by simp⟩
          fits := fun _ mem => nomatch mem
          tasks := ⟨_, rfl, nofun⟩
          complaints := kept.complaints.trans (List.append_nil _).symm
          emitter := kept.emitter
          grows }
  | ok code =>
      obtain ⟨task, s₂, run, assigns⟩ := run_assign m event
        (.routine code payload.timeline?) w₁
      rw [run_bind_of_ok responds, run]
      refine ⟨_, _, _, [⟨h, some ⟨code, w.stage.newTasks w₁.stage⟩, task⟩], true, rfl, trace,
        ?_, by simp⟩
      refine Assigns.serves assigns accepts.symm ?_ rfl
        (kept.complaints.trans (List.append_nil _).symm) kept.emitter grows
      rw [todo]
      exact .next goes.balanced .done

theorem serves_offer (h : Handler) (w : World (Traced υ))
    (held : (w.stage.emitters.get m).isHeld = true) : ∃ r w' l services ended,
      (offer host.traced m event payload h).run w = (r, w') ∧
        w'.user.trace = w.user.trace ++ l ∧
          Serves m event payload [h] w.stage w'.stage l services ended ∧
            (r = .ok () ↔ ended = true) := by
  cases accepts : h.matches payload with
  | false =>
      obtain ⟨s', services, run, serves⟩ := serves_refusing host.traced accepts w
      exact ⟨_, _, [], services, true, run, (List.append_nil _).symm, serves, by simp⟩
  | true => exact serves_accepting traceable accepts w held

/-- All handlers are served, up to one that breaks off. -/
theorem serves_forEach (handlers : List Handler) (w : World (Traced υ))
    (held : (w.stage.emitters.get m).isHeld = true) : ∃ r w' l services ended,
      (forEach (offer host.traced m event payload) handlers).run w = (r, w') ∧
        w'.user.trace = w.user.trace ++ l ∧
          Serves m event payload handlers w.stage w'.stage l services ended ∧
            (r = .ok () ↔ ended = true) := by
  induction handlers generalizing w with
  | nil => exact ⟨_, w, [], [], true, rfl, (List.append_nil _).symm, .nil _, by simp⟩
  | cons h rest ih =>
      obtain ⟨r, w₁, l, services, ended, run, trace, serves, outcome⟩ :=
        serves_offer traceable h w held
      rw [run_forEach_cons, run_bind, run]
      cases r with
      | error fault =>
          have broken : ended = false := by simpa using outcome
          subst broken
          exact ⟨_, w₁, l, services, false, rfl, trace, serves.stop rest, by simp⟩
      | ok _ =>
          have whole : ended = true := outcome.1 rfl
          subst whole
          obtain ⟨r, w₂, l', services', ended, run, trace', serves', outcome⟩ :=
            ih w₁ (serves.emitter ▸ held)
          exact ⟨r, w₂, l ++ l', services ++ services', ended, run,
            by rw [trace', trace, List.append_assoc], serves.append serves', outcome⟩

/-- An event is emitted by an emitter that is free. -/
theorem serves_emit (w : World (Traced υ)) (free : (w.stage.emitters.get m).isHeld = false) :
    ∃ r w' l services ended, (emit host.traced m event payload).run w = (r, w') ∧
      w'.user.trace = w.user.trace ++ l ∧
        Serves m event payload ((w.stage.emitters.get m).handling event) w.stage w'.stage l services
          ended ∧ (r = .ok () ↔ ended = true) := by
  let noted : Stage := w.stage.note (.emitted m event payload)
  have silent : noted.complaints m = w.stage.complaints m :=
    (Stage.complaints_note ..).trans (List.append_nil _)
  unfold emit
  rw [run_bind_of_ok (run_await_of_free free), run_note_bind]
  split
  · next none =>
      rw [none]
      exact ⟨_, ⟨noted, w.user⟩, [], [], true, rfl, (List.append_nil _).symm,
        (Serves.nil noted).enclose ⟨rfl, rfl, silent⟩ ⟨rfl, rfl, rfl⟩ rfl, by simp⟩
  · -- From here on the emitter is held, so that nobody gets at it until all have been served.
    have retained := noted.rehandled_retainAll payload.handles
    let begun : Stage := hold true m (noted.retainAll payload.handles)
    have row : begun.emitters.get m = { w.stage.emitters.get m with isHeld := true } := by
      show ((noted.retainAll payload.handles).emitters.modify m _).get m = _
      rw [Table.get_modify_same, retained.emitters]
      rfl
    have quiet : begun.complaints m = w.stage.complaints m :=
      (Stage.complaints_of_journal_eq retained.journal m).trans silent
    obtain ⟨r, w₁, l, services, ended, run, trace, serves, outcome⟩ :=
      serves_forEach traceable ((w.stage.emitters.get m).handling event) ⟨begun, w.user⟩
        (by rw [row])
    have released := (hold false m w₁.stage).rehandled_releaseAll payload.handles
    refine ⟨r, { w₁ with stage := (hold false m w₁.stage).releaseAll payload.handles }, l, services,
      ended, ?_, trace, ?_, outcome⟩
    · rw [run_holding, run_thenTidy, run_change_bind, run_thenTidy, run]
    · refine serves.enclose ⟨retained.tasks, retained.agenda, quiet⟩
        ⟨released.tasks, released.agenda, released.journal⟩ ?_
      rw [released.emitters]
      show (w₁.stage.emitters.modify m _).get m = _
      rw [Table.get_modify_same, serves.emitter, row, ← free]

end Traced

end Script

/-! ## Events -/

/-- The handlers of an event that stand registered after a history, in the order of their
registration. -/
def Emitter.audience (history : List (Enrolment (String × PayloadKind × Callback)))
    (event : String) : List Handler :=
  ((Enrolment.standing 0 history).map registry.member).filter (·.event == event)

theorem Emitter.handling_after (history : List (Enrolment (String × PayloadKind × Callback)))
    (event : String) : (registry.after history).handling event = audience history event := by
  have standing : (registry.after history).handlers = _ := registry.members_after history
  rw [handling, standing, audience]

/-- Nobody holds an emitter by registering with it. -/
theorem Emitter.isHeld_after (history : List (Enrolment (String × PayloadKind × Callback))) :
    (registry.after history).isHeld = false := by
  have kept : ∀ m : Emitter, (history.foldl registry.enter m).isHeld = m.isHeld := by
    induction history with
    | nil => exact fun _ => rfl
    | cons e rest ih =>
        intro m
        rw [List.foldl_cons, ih]
        cases e <;> rfl
  exact kept .empty

namespace Stage

open Script

/-- Registrations with an emitter have a history on every stage that can be met, and the emitter
deals with their numbers as it should, whatever the events are. An emission serves the handlers of
the event that stand registered, in the order of their registration, and leaves the registrations
with the emitter as they are. Without such handlers the emission is noted, and that is all. Nothing
comes of an emission but that all have been served, unless one of them breaks off. While an emission
is going on there is no other one by the same emitter: it would wait for good. -/
theorem Reachable.handles_events {s : Stage} (reachable : s.Reachable) (m : Ref .emitter) :
    (∃ history, s.emitters.get m =
      { Emitter.registry.after history with isHeld := (s.emitters.get m).isHeld }) ∧
    ((s.emitters.get m).isHeld = true → ∀ {υ : Type} (host : Host υ) event payload u,
      (emit host m event payload).run ⟨s, u⟩ = (.error .stuck, ⟨s, u⟩)) ∧
    ∀ history, s.emitters.get m = Emitter.registry.after history →
      Emitter.registry.Disciplined (s.emitters.get m) history ∧
      ∀ {υ : Type} {host : Host (Traced υ)}, host.Traceable → ∀ event payload u,
        (Emitter.audience history event = [] →
          (emit host.traced m event payload).run ⟨s, u⟩ =
            (.ok (), ⟨s.note (.emitted m event payload), u⟩)) ∧
        ∃ r w' l services ended, (emit host.traced m event payload).run ⟨s, u⟩ = (r, w') ∧
          w'.user.trace = u.trace ++ l ∧
            Serves m event payload (Emitter.audience history event) s w'.stage l services ended ∧
              (r = .ok () ↔ ended = true) := by
  refine ⟨reachable.enrolled.emitter m, fun held _ host event payload u =>
    run_emit_of_held held host event payload, fun history row => ⟨?_, ?_⟩⟩
  · rw [row]
    exact Emitter.registry.disciplined_after history
  · intro _ host traceable event payload u
    have free : (s.emitters.get m).isHeld = false := by
      rw [row, Emitter.isHeld_after]
    have standing : (s.emitters.get m).handling event = Emitter.audience history event := by
      rw [row, Emitter.handling_after]
    refine ⟨fun none => ?_, ?_⟩
    · unfold emit
      rw [run_bind_of_ok (run_await_of_free free), run_note_bind]
      dsimp only
      rw [standing, none]
      rfl
    · rw [← standing]
      exact serves_emit traceable ⟨s, u⟩ free

/-- Four handlers register with an emitter: three of one event, of which the second one accepts
another kind of payload, and one of another event. -/
def engaging : Script Unit Unit := do
  let _ ← owning [] (produce (·.addEmitter))
  let _ ← owning [] (registerHandler ⟨0⟩ "tick" .unit 20)
  let _ ← owning [] (registerHandler ⟨0⟩ "tick" .word32 21)
  let _ ← owning [] (registerHandler ⟨0⟩ "tock" .unit 22)
  let _ ← owning [] (registerHandler ⟨0⟩ "tick" .unit 23)

/-- What is left when all have registered, with a channel or without one. -/
def engaged (hasChannel : Bool) : Stage := (engaging.run ⟨.empty hasChannel, ()⟩).2.stage

theorem reachable_engaged (hasChannel : Bool) : (engaged hasChannel).Reachable := by
  unfold engaged
  exact Arises.reachable (@Arises.course _ (fun _ => []) _ _ _ (.opening hasChannel rfl)
    (.bind (.offered .addEmitter) fun _ =>
      .bind (.offered (.registerHandler ⟨0⟩ "tick" .unit 20)) fun _ =>
        .bind (.offered (.registerHandler ⟨0⟩ "tick" .word32 21)) fun _ =>
          .bind (.offered (.registerHandler ⟨0⟩ "tock" .unit 22)) fun _ =>
            .bind (.offered (.registerHandler ⟨0⟩ "tick" .unit 23)) fun _ => .pure ()))

/-- Handlers name a routine after themselves, and the first one has a task spawned. -/
def tasking : Host (Traced Unit) :=
  { Host.silent (Traced Unit) with
    called := fun callback _ => do
      if callback = 20 then
        let _ ← owning [] (produce (·.spawn .idle))
      return callback }

theorem traceable_tasking : tasking.Traceable where
  notified _ _ := .pure ()
  called callback _ := by
    show Practice Host.traced keepsTrace (if callback = 20 then _ else _)
    split
    · exact .bind (.offered (.spawn .idle)) fun _ => .pure callback
    · exact .pure callback
  driven _ _ := .pure ()
  reacts _ _ := .pure ()

/-- The event is emitted. -/
def ticked (hasChannel : Bool) : Except Fault Unit × World (Traced Unit) :=
  (emit tasking.traced ⟨0⟩ "tick" .unit).run ⟨engaged hasChannel, ⟨(), []⟩⟩

/-- With a channel each handler of the event has a task, that of the first one after the task that
was spawned in its call. Without a channel there are complaints instead. -/
theorem handles_events_tasking :
    (∃ services, (ticked true).1 = .ok () ∧
      Serves ⟨0⟩ "tick" .unit
        [⟨0, "tick", .unit, 20⟩, ⟨1, "tick", .word32, 21⟩, ⟨3, "tick", .unit, 23⟩]
        (engaged true) (ticked true).2.stage (ticked true).2.user.trace services true) ∧
    (ticked true).2.user.trace =
      [.enters (.called 20 .unit), .leaves (some ⟨20, [⟨0⟩]⟩),
        .enters (.called 23 .unit), .leaves (some ⟨23, []⟩)] ∧
    (ticked true).2.stage.tasks.rows.map (·.job) =
      [.idle, .routine 20 none, .idle, .routine 23 none] ∧
    (ticked true).2.stage.complaints ⟨0⟩ = [.mismatched ⟨0⟩ "tick"] ∧
    (ticked false).2.stage.tasks.rows.map (·.job) = [] ∧
    (ticked false).2.stage.complaints ⟨0⟩ =
      [.unrun ⟨0⟩ "tick" .outsideRuntime, .mismatched ⟨0⟩ "tick",
        .unrun ⟨0⟩ "tick" .outsideRuntime, .unrun ⟨0⟩ "tick" .outsideRuntime] := by
  obtain ⟨-, -, follows⟩ := (reachable_engaged true).handles_events ⟨0⟩
  obtain ⟨-, serves⟩ := follows [.joins ("tick", .unit, 20), .joins ("tick", .word32, 21),
    .joins ("tock", .unit, 22), .joins ("tick", .unit, 23)] rfl
  obtain ⟨-, r, w', l, services, ended, run, trace, serves, outcome⟩ :=
    serves traceable_tasking "tick" .unit ⟨(), []⟩
  have standing : Emitter.audience [.joins ("tick", .unit, 20), .joins ("tick", .word32, 21),
      .joins ("tock", .unit, 22), .joins ("tick", .unit, 23)] "tick" =
        [⟨0, "tick", .unit, 20⟩, ⟨1, "tick", .word32, 21⟩, ⟨3, "tick", .unit, 23⟩] := by
    decide +kernel
  have run : ticked true = (r, w') := run
  have finished : (ticked true).1 = .ok () := by decide +kernel
  have whole : ended = true := outcome.1 (by rw [← finished, run])
  have trace : l = (ticked true).2.user.trace := by
    rw [run]
    exact trace.symm
  rw [standing, whole, trace, show w' = (ticked true).2 by rw [run]] at serves
  exact ⟨⟨services, finished, serves⟩, by decide +kernel, by decide +kernel, by decide +kernel,
    by decide +kernel, by decide +kernel⟩

end Stage

end Animation
