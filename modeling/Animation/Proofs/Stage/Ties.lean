/-
# Ties between behaviours and timelines

A binding is recorded twice: the core of a behaviour knows the alpha and the number of its
entry, and the timeline of that alpha has the entry. `Tied` says that the two records
agree, for all behaviours that are there. Every move keeps it, so it holds on every stage
that scripts make out of an empty one.

Entries of behaviours that are gone may stay behind for a while. They do no harm: a
behaviour that is gone never comes back, and no number of an entry is given out twice.
-/

import Animation.Proofs.Stage.Moves
import Mathlib.Data.List.Nodup

namespace Animation.Stage

section Readings

variable (s : Stage)

/-- The core of a behaviour. -/
def coreOf (b : Ref .behaviour) : Ref .core := (s.behaviours.get b).core

/-- The binding of a behaviour. -/
def bindingOf (b : Ref .behaviour) : Option Binding := (s.cores.get (s.coreOf b)).binding

/-- The timeline that an alpha follows. -/
def timelineOf (a : Ref .alpha) : Ref .timeline := (s.alphas.get a).timeline

end Readings

namespace Rehandled

variable {s s' : Stage} (h : s.Rehandled s')

include h

theorem attachments (t : Ref .timeline) : s'.attachments t = s.attachments t := by
  obtain ⟨n, e⟩ := h.timeline t
  rw [Stage.attachments, e, Stage.attachments]

theorem coreOf (b : Ref .behaviour) : s'.coreOf b = s.coreOf b := by
  obtain ⟨n, e⟩ := h.behaviour b
  rw [Stage.coreOf, e, Stage.coreOf]

theorem binding (c : Ref .core) : (s'.cores.get c).binding = (s.cores.get c).binding := by
  obtain ⟨n, e⟩ := h.core c
  rw [e]

theorem actors (c : Ref .core) : (s'.cores.get c).actors = (s.cores.get c).actors := by
  obtain ⟨n, e⟩ := h.core c
  rw [e]

theorem notifier (c : Ref .core) : (s'.cores.get c).notifier = (s.cores.get c).notifier := by
  obtain ⟨n, e⟩ := h.core c
  rw [e]

theorem timelineOf (a : Ref .alpha) : s'.timelineOf a = s.timelineOf a := by
  obtain ⟨n, e⟩ := h.alpha a
  rw [Stage.timelineOf, e, Stage.timelineOf]

theorem drive (b : Ref .behaviour) : (s'.behaviours.get b).drive = (s.behaviours.get b).drive := by
  obtain ⟨n, e⟩ := h.behaviour b
  rw [e]

end Rehandled

/-- The two records that are kept of every binding agree. -/
structure Tied (s : Stage) : Prop where
  /-- The numbers of entries are numbers that have been given out. -/
  id_lt : ∀ {t e}, e ∈ s.attachments t → e.id < (s.timelines.get t).nextId
  /-- No two entries of a timeline have the same number. -/
  ids_nodup : ∀ t, ((s.attachments t).map (·.id)).Nodup
  /-- Entries are of behaviours that have been added. -/
  behaviour_lt : ∀ {t e}, e ∈ s.attachments t → e.behaviour.index < s.behaviours.size
  core_lt : ∀ {b}, s.isAlive (.behaviour b) → (s.coreOf b).index < s.cores.size
  /-- No two behaviours share a core. -/
  core_injective : ∀ {b b'}, s.isAlive (.behaviour b) → s.isAlive (.behaviour b') →
    s.coreOf b = s.coreOf b' → b = b'
  alpha_lt : ∀ {b binding}, s.isAlive (.behaviour b) → s.bindingOf b = some binding →
    binding.alpha.index < s.alphas.size
  /-- A bound behaviour has its entry with the timeline of its alpha. -/
  attached : ∀ {b binding}, s.isAlive (.behaviour b) → s.bindingOf b = some binding →
    ⟨binding.entry, b⟩ ∈ s.attachments (s.timelineOf binding.alpha)
  /-- Any entry of a behaviour is the one that its binding says. -/
  bound : ∀ {t e}, e ∈ s.attachments t → s.isAlive (.behaviour e.behaviour) →
    ∃ a, s.bindingOf e.behaviour = some ⟨a, e.id⟩ ∧ s.timelineOf a = t

/-- What has been taken on record by a timeline and can only be struck off: no other entry
has the number of this one. -/
structure Recorded (t : Ref .timeline) (e : Attachment) (s : Stage) : Prop where
  id_lt : e.id < (s.timelines.get t).nextId
  unique : ∀ e' ∈ s.attachments t, e'.id = e.id → e' = e

/-- A behaviour has been there and is no longer. -/
structure Gone (b : Ref .behaviour) (s : Stage) : Prop where
  index_lt : b.index < s.behaviours.size
  not_alive : ¬ s.isAlive (.behaviour b)

/-- The second stage has the ties of the first, except that some behaviours may be gone. -/
structure Loosens (s s' : Stage) : Prop where
  attachments : ∀ t, s'.attachments t = s.attachments t
  nextId : ∀ t, (s'.timelines.get t).nextId = (s.timelines.get t).nextId
  core : ∀ b, s'.coreOf b = s.coreOf b
  binding : ∀ c, (s'.cores.get c).binding = (s.cores.get c).binding
  timeline : ∀ a, a.index < s.alphas.size → s'.timelineOf a = s.timelineOf a
  alive : ∀ b, s'.isAlive (.behaviour b) → s.isAlive (.behaviour b)
  alphas_size : s.alphas.size ≤ s'.alphas.size
  cores_size : s.cores.size ≤ s'.cores.size
  behaviours_size : s.behaviours.size ≤ s'.behaviours.size

namespace Loosens

theorem refl (s : Stage) : s.Loosens s where
  attachments _ := rfl
  nextId _ := rfl
  core _ := rfl
  binding _ := rfl
  timeline _ _ := rfl
  alive _ := id
  alphas_size := Nat.le_refl _
  cores_size := Nat.le_refl _
  behaviours_size := Nat.le_refl _

theorem bindingOf {s s' : Stage} (h : s.Loosens s') (b : Ref .behaviour) :
    s'.bindingOf b = s.bindingOf b := by
  rw [Stage.bindingOf, h.core, h.binding, Stage.bindingOf]

theorem ofRehandled {s s' : Stage} (h : s.Rehandled s')
    (alive : ∀ b, s'.isAlive (.behaviour b) → s.isAlive (.behaviour b)) : s.Loosens s' where
  attachments := h.attachments
  nextId t := by
    obtain ⟨n, e⟩ := h.timeline t
    rw [e]
  core := h.coreOf
  binding := h.binding
  timeline a _ := h.timelineOf a
  alive := alive
  alphas_size := h.alphas_size
  cores_size := h.cores_size
  behaviours_size := h.behaviours_size

variable (s : Stage)

theorem modifyTimeline (t : Ref .timeline) {f : Timeline → Timeline}
    (attachments : ∀ row, (f row).attachments = row.attachments)
    (nextId : ∀ row, (f row).nextId = row.nextId) : s.Loosens (s.modifyTimeline t f) where
  __ := refl s
  attachments u := Table.proj_get_modify _ t u attachments
  nextId u := Table.proj_get_modify _ t u nextId

theorem modifyAlpha (a : Ref .alpha) {f : Alpha → Alpha}
    (timeline : ∀ row, (f row).timeline = row.timeline) : s.Loosens (s.modifyAlpha a f) where
  __ := refl s
  timeline u _ := Table.proj_get_modify _ a u timeline
  alphas_size := Table.size_le_size_modify ..

theorem modifyCore (c : Ref .core) {f : Core → Core}
    (binding : ∀ row, (f row).binding = row.binding) : s.Loosens (s.modifyCore c f) where
  __ := refl s
  binding u := Table.proj_get_modify _ c u binding
  cores_size := Table.size_le_size_modify ..

theorem modifyBehaviour (b : Ref .behaviour) {f : Behaviour → Behaviour}
    (core : ∀ row, (f row).core = row.core) (holders : ∀ row, (f row).holders = row.holders) :
    s.Loosens (s.modifyBehaviour b f) where
  __ := refl s
  core u := Table.proj_get_modify _ b u core
  alive u h := by
    have same : (s.modifyBehaviour b f).holders (.behaviour u) = s.holders (.behaviour u) :=
      Table.proj_get_modify _ b u holders
    rw [isAlive_iff] at h ⊢
    omega
  behaviours_size := Table.size_le_size_modify ..

theorem addTimeline (duration : Nat) : s.Loosens (s.addTimeline duration).1 where
  __ := refl s
  attachments t := by
    simp only [Stage.attachments, Stage.addTimeline, addEmitter, Table.get_push]
    split
    · next e => rw [e, Table.get_next]; rfl
    · rfl
  nextId t := by
    simp only [Stage.addTimeline, addEmitter, Table.get_push]
    split
    · next e => rw [e, Table.get_next]; rfl
    · rfl

theorem addAlpha (t : Ref .timeline) (easing : Easing) : s.Loosens (s.addAlpha t easing).1 := by
  have first : s.Loosens (s.retain (.timeline t)) :=
    .modifyTimeline s t (fun _ => rfl) (fun _ => rfl)
  exact
    { first with
      timeline := fun a ha => by
        have ne : a ≠ s.alphas.next := fun e => by rw [e] at ha; exact Nat.lt_irrefl _ ha
        simp only [timelineOf, Stage.addAlpha, retain, Stage.modifyTimeline, Table.get_push, ne,
          if_false]
      alphas_size := by
        rw [Stage.addAlpha, Table.size_push]
        exact Nat.le_succ_of_le first.alphas_size }

theorem addCore : s.Loosens s.addCore.1 where
  __ := refl s
  binding c := by
    simp only [Stage.addCore, Stage.addNotifier, Table.get_push]
    split
    · next e => rw [e, Table.get_next]; rfl
    · rfl
  cores_size := by
    simp only [Stage.addCore, Stage.addNotifier, Table.size_push]
    exact Nat.le_succ _

end Loosens

theorem loosens_release (s : Stage) (handle : Handle) : s.Loosens (s.release handle) :=
  .ofRehandled (s.rehandled_release handle) fun b h => by
    have le := s.holders_release_le handle (.behaviour b)
    rw [isAlive_iff] at h ⊢
    omega

theorem loosens_retain {s : Stage} {handle : Handle}
    (h : ∀ b, handle = .behaviour b → s.isAlive (.behaviour b)) :
    s.Loosens (s.retain handle) :=
  .ofRehandled (s.rehandled_retain handle) fun b alive => by
    by_cases e : handle = .behaviour b
    · exact h b e
    · rw [isAlive_iff, holders_retain, if_neg e] at alive
      exact s.isAlive_iff.2 alive

/-- A move leaves all ties as they are, or it adds a behaviour, binds one, or removes
entries of behaviours that are gone. -/
theorem Move.loosens_or {s s' : Stage} (move : s.Move s') :
    s.Loosens s' ∨ (∃ drive, s' = (s.addBehaviour drive).1) ∨
      (∃ b alpha, s.isAlive (.behaviour b) ∧ (∀ a, alpha = some a → s.isAlive (.alpha a)) ∧
        s' = s.rebind b alpha) ∨
      ∃ t ids, (∀ e ∈ s.attachments t, e.id ∈ ids → ¬ s.isAlive (.behaviour e.behaviour)) ∧
        s' = s.detach t ids := by
  cases move with
  | addBehaviour _ => exact .inr (.inl ⟨_, rfl⟩)
  | rebind hb ha => exact .inr (.inr (.inl ⟨_, _, hb, ha, rfl⟩))
  | prune h => exact .inr (.inr (.inr ⟨_, _, h, rfl⟩))
  | turn _ => exact .inl (.modifyTimeline s _ (fun _ => rfl) (fun _ => rfl))
  | setPlayback t _ => exact .inl (.modifyTimeline s t (fun _ => rfl) (fun _ => rfl))
  | addTimeline duration => exact .inl (.addTimeline s duration)
  | addAlpha t easing => exact .inl (.addAlpha s t easing)
  | addCore => exact .inl (.addCore s)
  | retain h => exact .inl (loosens_retain h)
  | release handle => exact .inl (s.loosens_release handle)
  | setEasing a _ => exact .inl (.modifyAlpha s a fun _ => rfl)
  | setDrive _ => exact .inl (.modifyBehaviour s _ (fun _ => rfl) (fun _ => rfl))
  | setActors _ => exact .inl (.modifyCore s _ fun _ => rfl)
  | note _ | addActor _ | addNotifier | addEmitter | ask _ _ | modifyNotifier _ _
  | modifyEmitter _ _ | schedule _ _ => exact .inl { Loosens.refl s with }

theorem index_lt_of_isAlive {s : Stage} {b : Ref .behaviour} (h : s.isAlive (.behaviour b)) :
    b.index < s.behaviours.size := by
  by_contra ge
  rw [isAlive_iff, holders, Table.get_of_size_le _ (Nat.le_of_not_lt ge)] at h
  exact Nat.lt_irrefl 0 h

section Additions

variable (s : Stage) (drive : Drive)

theorem coreOf_addBehaviour (b : Ref .behaviour) :
    (s.addBehaviour drive).1.coreOf b =
      if b = s.behaviours.next then s.cores.next else s.coreOf b := by
  simp only [coreOf, addBehaviour, addCore, addNotifier, Table.get_push]
  split <;> rfl

theorem isAlive_addBehaviour (b : Ref .behaviour) :
    (s.addBehaviour drive).1.isAlive (.behaviour b) ↔
      b = s.behaviours.next ∨ s.isAlive (.behaviour b) := by
  simp only [isAlive_iff, holders, addBehaviour, addCore, addNotifier, Table.get_push]
  split <;> simp [*]

theorem bindingOf_addBehaviour (b : Ref .behaviour) :
    (s.addBehaviour drive).1.bindingOf b =
      if b = s.behaviours.next then none else s.bindingOf b := by
  have cores := (Loosens.addCore s).binding
  rw [bindingOf, coreOf_addBehaviour]
  show (s.addCore.1.cores.get _).binding = _
  rw [cores]
  split
  · rw [Table.get_next]; rfl
  · rfl

end Additions

theorem ne_next_of_index_lt {s : Stage} {b : Ref .behaviour}
    (h : b.index < s.behaviours.size) : b ≠ s.behaviours.next :=
  fun e => absurd (e ▸ h) (Nat.lt_irrefl _)

theorem Tied.addBehaviour {s : Stage} (h : s.Tied) (drive : Drive) :
    (s.addBehaviour drive).1.Tied := by
  have fresh {b} (hb : s.isAlive (.behaviour b)) : s.coreOf b ≠ s.cores.next := fun e =>
    absurd (e ▸ h.core_lt hb) (Nat.lt_irrefl _)
  have old {b binding} (hb : (s.addBehaviour drive).1.isAlive (.behaviour b))
      (bound : (s.addBehaviour drive).1.bindingOf b = some binding) :
      s.isAlive (.behaviour b) ∧ s.bindingOf b = some binding := by
    rw [bindingOf_addBehaviour] at bound
    split at bound
    · cases bound
    · next ne => exact ⟨((s.isAlive_addBehaviour drive b).1 hb).resolve_left ne, bound⟩
  exact
    { id_lt := h.id_lt
      ids_nodup := h.ids_nodup
      behaviour_lt := fun he => by
        show _ < (s.behaviours.push _).size
        rw [Table.size_push]
        exact Nat.lt_succ_of_lt (h.behaviour_lt he)
      core_lt := fun {b} alive => by
        rw [coreOf_addBehaviour]
        show _ < (s.cores.push _).size
        rw [Table.size_push]
        split
        · exact Nat.lt_succ_self _
        · next ne =>
            have old := ((s.isAlive_addBehaviour drive b).1 alive).resolve_left ne
            exact Nat.lt_succ_of_lt (h.core_lt old)
      core_injective := fun {b b'} alive alive' same => by
        rw [coreOf_addBehaviour, coreOf_addBehaviour] at same
        rcases (s.isAlive_addBehaviour drive b).1 alive with e | hb <;>
          rcases (s.isAlive_addBehaviour drive b').1 alive' with e' | hb'
        · rw [e, e']
        · rw [if_pos e, if_neg (ne_next_of_index_lt (index_lt_of_isAlive hb'))] at same
          exact absurd same.symm (fresh hb')
        · rw [if_neg (ne_next_of_index_lt (index_lt_of_isAlive hb)), if_pos e'] at same
          exact absurd same (fresh hb)
        · rw [if_neg (ne_next_of_index_lt (index_lt_of_isAlive hb)),
            if_neg (ne_next_of_index_lt (index_lt_of_isAlive hb'))] at same
          exact h.core_injective hb hb' same
      alpha_lt := fun alive bound => h.alpha_lt (old alive bound).1 (old alive bound).2
      attached := fun alive bound => h.attached (old alive bound).1 (old alive bound).2
      bound := fun {t e} he alive => by
        have ne := ne_next_of_index_lt (h.behaviour_lt he)
        obtain ⟨a, bound, follows⟩ :=
          h.bound he (((s.isAlive_addBehaviour drive _).1 alive).resolve_left ne)
        exact ⟨a, by rw [bindingOf_addBehaviour, if_neg ne, bound], follows⟩ }

section Detaching

variable (s : Stage) (t : Ref .timeline) (ids : List Nat)

theorem attachments_detach (u : Ref .timeline) :
    (s.detach t ids).attachments u =
      if t = u then (s.attachments t).filter fun e => !ids.contains e.id
      else s.attachments u := by
  simp only [attachments, detach, modifyTimeline, Table.get_modify]
  split <;> rfl

theorem nextId_detach (u : Ref .timeline) :
    ((s.detach t ids).timelines.get u).nextId = (s.timelines.get u).nextId :=
  Table.proj_get_modify (g := Timeline.nextId) _ t u fun _ => rfl

theorem mem_attachments_detach {u : Ref .timeline} {e : Attachment} :
    e ∈ (s.detach t ids).attachments u ↔ e ∈ s.attachments u ∧ (t = u → e.id ∉ ids) := by
  rw [attachments_detach]
  split
  · next h => subst h; simp
  · next h => simp [h]

theorem nodup_ids_detach (h : ∀ u, ((s.attachments u).map (·.id)).Nodup) (u : Ref .timeline) :
    (((s.detach t ids).attachments u).map (·.id)).Nodup := by
  rw [attachments_detach]
  split
  · exact (h t).sublist (List.filter_sublist.map _)
  · exact h u

end Detaching

theorem Tied.prune {s : Stage} (h : s.Tied) {t : Ref .timeline} {ids : List Nat}
    (gone : ∀ e ∈ s.attachments t, e.id ∈ ids → ¬ s.isAlive (.behaviour e.behaviour)) :
    (s.detach t ids).Tied where
  id_lt he := by
    rw [nextId_detach]
    exact h.id_lt ((s.mem_attachments_detach t ids).1 he).1
  ids_nodup := s.nodup_ids_detach t ids h.ids_nodup
  behaviour_lt he := h.behaviour_lt ((s.mem_attachments_detach t ids).1 he).1
  core_lt := h.core_lt
  core_injective := h.core_injective
  alpha_lt := h.alpha_lt
  attached {b binding} alive bound := by
    have he := h.attached alive bound
    refine (s.mem_attachments_detach t ids).2 ⟨he, fun same mem => ?_⟩
    exact gone _ (same ▸ he) mem alive
  bound he alive := h.bound ((s.mem_attachments_detach t ids).1 he).1 alive

section Bindings

variable (s : Stage)

theorem bindingOf_setBinding (c : Ref .core) (binding : Option Binding) (b : Ref .behaviour) :
    (s.setBinding c binding).bindingOf b =
      if c = s.coreOf b then binding else s.bindingOf b := by
  show ((s.cores.modify c _).get (s.coreOf b)).binding = _
  rw [Table.get_modify]
  split <;> rfl

theorem attachments_attach (t u : Ref .timeline) (b : Ref .behaviour) :
    (s.attach t b).1.attachments u =
      if t = u then s.attachments t ++ [⟨(s.timelines.get t).nextId, b⟩]
      else s.attachments u := by
  simp only [attachments, attach, modifyTimeline, Table.get_modify]
  split <;> rfl

theorem nextId_attach (t u : Ref .timeline) (b : Ref .behaviour) :
    ((s.attach t b).1.timelines.get u).nextId =
      if t = u then (s.timelines.get t).nextId + 1 else (s.timelines.get u).nextId := by
  simp only [attach, modifyTimeline, Table.get_modify]
  split <;> rfl

theorem mem_attachments_attach {t u : Ref .timeline} {b : Ref .behaviour} {e : Attachment} :
    e ∈ (s.attach t b).1.attachments u ↔
      e ∈ s.attachments u ∨ t = u ∧ e = ⟨(s.timelines.get t).nextId, b⟩ := by
  rw [attachments_attach]
  split
  · next h => subst h; simp
  · next h => simp [h]

end Bindings

/-- The number of an entry tells which entry it is. -/
theorem Tied.eq_of_id_eq {s : Stage} (h : s.Tied) {t : Ref .timeline} {e e' : Attachment}
    (he : e ∈ s.attachments t) (he' : e' ∈ s.attachments t) (same : e.id = e'.id) : e = e' :=
  List.inj_on_of_nodup_map (h.ids_nodup t) he he' same

/-- A binding is undone together with its entry. -/
theorem Tied.cut {s : Stage} (h : s.Tied) {b : Ref .behaviour}
    (hb : s.isAlive (.behaviour b)) {a : Ref .alpha} {entry : Nat}
    (hbound : s.bindingOf b = some ⟨a, entry⟩) :
    ((s.detach (s.timelineOf a) [entry]).setBinding (s.coreOf b) none).Tied := by
  have old {b' binding} (bound : ((s.detach (s.timelineOf a) [entry]).setBinding
      (s.coreOf b) none).bindingOf b' = some binding) :
      s.coreOf b ≠ s.coreOf b' ∧ s.bindingOf b' = some binding := by
    rw [bindingOf_setBinding] at bound
    split at bound
    · cases bound
    · next ne => exact ⟨ne, bound⟩
  exact
    { id_lt := fun he => by
        show _ < ((s.detach _ _).timelines.get _).nextId
        rw [nextId_detach]
        exact h.id_lt ((s.mem_attachments_detach _ _).1 he).1
      ids_nodup := s.nodup_ids_detach _ _ h.ids_nodup
      behaviour_lt := fun he => h.behaviour_lt ((s.mem_attachments_detach _ _).1 he).1
      core_lt := fun alive => Nat.lt_of_lt_of_le (h.core_lt alive) (Table.size_le_size_modify ..)
      core_injective := h.core_injective
      alpha_lt := fun alive bound => h.alpha_lt alive (old bound).2
      attached := fun {b' binding} alive bound => by
        obtain ⟨ne, bound⟩ := old bound
        have he := h.attached alive bound
        refine (s.mem_attachments_detach _ _).2 ⟨he, fun same mem => ?_⟩
        -- an entry with the number of the one that goes would be of the same behaviour
        have equal := h.eq_of_id_eq (same ▸ he) (h.attached hb hbound) (List.mem_singleton.1 mem)
        exact ne (congrArg (fun e => s.coreOf e.behaviour) equal).symm
      bound := fun {t e} he alive => by
        obtain ⟨he, kept⟩ := (s.mem_attachments_detach _ _).1 he
        obtain ⟨a', bound, follows⟩ := h.bound he alive
        refine ⟨a', ?_, follows⟩
        rw [bindingOf_setBinding]
        split
        · next same =>
            obtain rfl := h.core_injective hb alive same
            rw [hbound] at bound
            cases bound
            exact absurd (List.mem_singleton.2 rfl) (kept follows)
        · exact bound }

/-- A behaviour without a binding is bound to an alpha together with a new entry. -/
theorem Tied.tie {s : Stage} (h : s.Tied) {b : Ref .behaviour} (hb : s.isAlive (.behaviour b))
    (hfree : s.bindingOf b = none) {a : Ref .alpha} (ha : a.index < s.alphas.size) :
    ((s.attach (s.timelineOf a) b).1.setBinding (s.coreOf b)
      (some ⟨a, (s.attach (s.timelineOf a) b).2⟩)).Tied := by
  have cases_of {b' binding} (alive : s.isAlive (.behaviour b'))
      (bound : ((s.attach (s.timelineOf a) b).1.setBinding (s.coreOf b)
        (some ⟨a, (s.attach (s.timelineOf a) b).2⟩)).bindingOf b' = some binding) :
      b' = b ∧ binding = ⟨a, (s.timelines.get (s.timelineOf a)).nextId⟩ ∨
        s.bindingOf b' = some binding := by
    rw [bindingOf_setBinding] at bound
    split at bound
    · next same =>
        exact .inl ⟨(h.core_injective hb alive same).symm, (Option.some.inj bound).symm⟩
    · exact .inr bound
  exact
    { id_lt := fun {t e} he => by
        show e.id < ((s.attach _ _).1.timelines.get t).nextId
        rw [nextId_attach]
        rcases (s.mem_attachments_attach).1 he with he | ⟨rfl, rfl⟩
        · have := h.id_lt he
          split
          · next same => subst same; exact Nat.lt_succ_of_lt this
          · exact this
        · rw [if_pos rfl]
          exact Nat.lt_succ_self _
      ids_nodup := fun t => by
        show (((s.attach _ _).1.attachments t).map _).Nodup
        rw [attachments_attach]
        split
        · rw [List.map_append]
          apply (h.ids_nodup _).append (List.nodup_singleton _)
          intro id mem mem'
          obtain ⟨e, he, rfl⟩ := List.mem_map.1 mem
          exact absurd (List.mem_singleton.1 mem') (Nat.ne_of_lt (h.id_lt he))
        · exact h.ids_nodup t
      behaviour_lt := fun he => by
        rcases (s.mem_attachments_attach).1 he with he | ⟨_, rfl⟩
        · exact h.behaviour_lt he
        · exact index_lt_of_isAlive hb
      core_lt := fun alive => Nat.lt_of_lt_of_le (h.core_lt alive) (Table.size_le_size_modify ..)
      core_injective := h.core_injective
      alpha_lt := fun alive bound => by
        rcases cases_of alive bound with ⟨_, rfl⟩ | bound
        · exact ha
        · exact h.alpha_lt alive bound
      attached := fun alive bound => by
        rcases cases_of alive bound with ⟨rfl, rfl⟩ | bound
        · exact (s.mem_attachments_attach).2 (.inr ⟨rfl, rfl⟩)
        · exact (s.mem_attachments_attach).2 (.inl (h.attached alive bound))
      bound := fun {t e} he alive => by
        rw [bindingOf_setBinding]
        rcases (s.mem_attachments_attach).1 he with he | ⟨rfl, rfl⟩
        · obtain ⟨a', bound, follows⟩ := h.bound he alive
          refine ⟨a', ?_, follows⟩
          split
          · next same =>
              rw [← h.core_injective hb alive same, hfree] at bound
              cases bound
          · exact bound
        · exact ⟨a, if_pos rfl, rfl⟩ }

theorem Tied.loosen {s s' : Stage} (h : s.Tied) (l : s.Loosens s') : s'.Tied where
  id_lt he := by
    rw [l.nextId]
    exact h.id_lt (l.attachments _ ▸ he)
  ids_nodup t := by
    rw [l.attachments]
    exact h.ids_nodup t
  behaviour_lt he := Nat.lt_of_lt_of_le (h.behaviour_lt (l.attachments _ ▸ he)) l.behaviours_size
  core_lt alive := by
    rw [l.core]
    exact Nat.lt_of_lt_of_le (h.core_lt (l.alive _ alive)) l.cores_size
  core_injective alive alive' same := by
    rw [l.core, l.core] at same
    exact h.core_injective (l.alive _ alive) (l.alive _ alive') same
  alpha_lt alive bound :=
    Nat.lt_of_lt_of_le (h.alpha_lt (l.alive _ alive) (l.bindingOf _ ▸ bound)) l.alphas_size
  attached alive bound := by
    rw [l.bindingOf] at bound
    rw [l.attachments, l.timeline _ (h.alpha_lt (l.alive _ alive) bound)]
    exact h.attached (l.alive _ alive) bound
  bound he alive := by
    obtain ⟨a, bound, follows⟩ := h.bound (l.attachments _ ▸ he) (l.alive _ alive)
    refine ⟨a, l.bindingOf _ ▸ bound, ?_⟩
    rw [l.timeline _ (h.alpha_lt (l.alive _ alive) bound)]
    exact follows

theorem behaviours_unbind (s : Stage) (c : Ref .core) :
    (s.unbind c).behaviours = s.behaviours := by
  unfold unbind
  split
  · rfl
  · exact behaviours_releaseAlpha _ _

theorem coreOf_unbind (s : Stage) (c : Ref .core) (b : Ref .behaviour) :
    (s.unbind c).coreOf b = s.coreOf b := by
  rw [coreOf, behaviours_unbind, coreOf]

theorem isAlive_unbind (s : Stage) (c : Ref .core) (b : Ref .behaviour) :
    (s.unbind c).isAlive (.behaviour b) ↔ s.isAlive (.behaviour b) := by
  rw [isAlive_iff, isAlive_iff, holders, behaviours_unbind, holders]

theorem alphas_size_unbind (s : Stage) (c : Ref .core) :
    s.alphas.size ≤ (s.unbind c).alphas.size := by
  unfold unbind
  split
  · exact Nat.le_refl _
  · next a entry _ =>
      exact (((s.detach _ [entry]).setBinding c none).rehandled_releaseAlpha a).alphas_size

theorem bindingOf_unbind (s : Stage) (b : Ref .behaviour) :
    (s.unbind (s.coreOf b)).bindingOf b = none := by
  unfold unbind
  split
  · next free => exact free
  · next a entry _ =>
      apply ((loosens_release _ (.alpha a)).bindingOf b).trans
      rw [bindingOf_setBinding, if_pos]
      rfl

theorem Tied.unbind {s : Stage} (h : s.Tied) {b : Ref .behaviour}
    (hb : s.isAlive (.behaviour b)) : (s.unbind (s.coreOf b)).Tied := by
  unfold Stage.unbind
  split
  · exact h
  · next a entry bound => exact (h.cut hb bound).loosen (loosens_release _ (.alpha a))

theorem loosens_retainAlpha (s : Stage) (a : Ref .alpha) : s.Loosens (s.retain (.alpha a)) :=
  loosens_retain fun _ e => nomatch e

theorem alpha_index_lt_of_isAlive {s : Stage} {a : Ref .alpha} (h : s.isAlive (.alpha a)) :
    a.index < s.alphas.size := by
  by_contra ge
  rw [isAlive_iff, holders, Table.get_of_size_le _ (Nat.le_of_not_lt ge)] at h
  exact Nat.lt_irrefl 0 h

theorem Tied.rebind {s : Stage} (h : s.Tied) {b : Ref .behaviour} {alpha : Option (Ref .alpha)}
    (hb : s.isAlive (.behaviour b)) (ha : ∀ a, alpha = some a → s.isAlive (.alpha a)) :
    (s.rebind b alpha).Tied := by
  cases alpha with
  | none => exact h.unbind hb
  | some a =>
      let held := s.retain (.alpha a)
      have hheld : held.Tied := h.loosen (s.loosens_retainAlpha a)
      have freed : (held.unbind (held.coreOf b)).Tied := hheld.unbind hb
      have alive : (held.unbind (held.coreOf b)).isAlive (.behaviour b) := by
        rw [isAlive_unbind]
        exact hb
      have size : a.index < (held.unbind (held.coreOf b)).alphas.size :=
        Nat.lt_of_lt_of_le (alpha_index_lt_of_isAlive (ha a rfl))
          (Nat.le_trans (s.loosens_retainAlpha a).alphas_size (alphas_size_unbind _ _))
      have tied := freed.tie alive (bindingOf_unbind held b) size
      rw [coreOf_unbind] at tied
      exact tied

/-! ## What every move keeps -/

theorem Move.tied {s s' : Stage} (move : s.Move s') (h : s.Tied) : s'.Tied := by
  rcases move.loosens_or with l | ⟨drive, rfl⟩ | ⟨b, alpha, hb, ha, rfl⟩ | ⟨t, ids, gone, rfl⟩
  · exact h.loosen l
  · exact h.addBehaviour drive
  · exact h.rebind hb ha
  · exact h.prune gone

theorem tied_empty (hasChannel : Bool) : (Stage.empty hasChannel).Tied where
  id_lt he := nomatch he
  ids_nodup _ := List.nodup_nil
  behaviour_lt he := nomatch he
  core_lt alive := nomatch alive
  core_injective alive := nomatch alive
  alpha_lt alive := nomatch alive
  attached alive := nomatch alive
  bound he := nomatch he

namespace Recorded

variable {t : Ref .timeline} {e : Attachment} {s s' : Stage}

theorem of_tied (h : s.Tied) (he : e ∈ s.attachments t) : Recorded t e s where
  id_lt := h.id_lt he
  unique _ he' same := h.eq_of_id_eq he' he same

theorem loosen (r : Recorded t e s) (l : s.Loosens s') : Recorded t e s' where
  id_lt := by
    rw [l.nextId]
    exact r.id_lt
  unique := by
    rw [l.attachments]
    exact r.unique

theorem detach (r : Recorded t e s) (u : Ref .timeline) (ids : List Nat) :
    Recorded t e (s.detach u ids) where
  id_lt := by
    rw [nextId_detach]
    exact r.id_lt
  unique e' he' := r.unique e' ((s.mem_attachments_detach u ids).1 he').1

theorem attach (r : Recorded t e s) (u : Ref .timeline) (b : Ref .behaviour) :
    Recorded t e (s.attach u b).1 where
  id_lt := by
    rw [nextId_attach]
    split
    · next same => subst same; exact Nat.lt_succ_of_lt r.id_lt
    · exact r.id_lt
  unique e' he' same := by
    rcases (s.mem_attachments_attach).1 he' with he' | ⟨rfl, rfl⟩
    · exact r.unique e' he' same
    · exact absurd same.symm (Nat.ne_of_lt r.id_lt)

theorem unbind (r : Recorded t e s) (c : Ref .core) : Recorded t e (s.unbind c) := by
  unfold Stage.unbind
  split
  · exact r
  · next a entry _ =>
      have cut : Recorded t e ((s.detach (s.alphas.get a).timeline [entry]).setBinding c none) :=
        ⟨(r.detach _ _).id_lt, (r.detach _ _).unique⟩
      exact cut.loosen (loosens_release _ (.alpha a))

theorem rebind (r : Recorded t e s) (b : Ref .behaviour) (alpha : Option (Ref .alpha)) :
    Recorded t e (s.rebind b alpha) := by
  cases alpha with
  | none => exact r.unbind _
  | some a =>
      have freed := (r.loosen (s.loosens_retainAlpha a)).unbind (s.behaviours.get b).core
      exact ⟨(freed.attach _ b).id_lt, (freed.attach _ b).unique⟩

end Recorded

theorem Move.recorded {s s' : Stage} (move : s.Move s') {t : Ref .timeline} {e : Attachment}
    (r : Recorded t e s) : Recorded t e s' := by
  rcases move.loosens_or with l | ⟨drive, rfl⟩ | ⟨b, alpha, _, _, rfl⟩ | ⟨u, ids, _, rfl⟩
  · exact r.loosen l
  · exact ⟨r.id_lt, r.unique⟩
  · exact r.rebind b alpha
  · exact r.detach u ids

theorem behaviours_rebind (s : Stage) (b : Ref .behaviour) (alpha : Option (Ref .alpha)) :
    (s.rebind b alpha).behaviours = s.behaviours := by
  cases alpha with
  | none => exact behaviours_unbind _ _
  | some a => exact behaviours_unbind (s.retain (.alpha a)) _

/-- What has been added is not unmade. -/
theorem Move.behaviours_size {s s' : Stage} (move : s.Move s') :
    s.behaviours.size ≤ s'.behaviours.size := by
  rcases move.loosens_or with l | ⟨drive, rfl⟩ | ⟨b, alpha, _, _, rfl⟩ | ⟨u, ids, _, rfl⟩
  · exact l.behaviours_size
  · show _ ≤ (s.behaviours.push _).size
    rw [Table.size_push]
    exact Nat.le_succ _
  · exact Nat.le_of_eq (by rw [behaviours_rebind])
  · exact Nat.le_refl _

theorem Move.gone {s s' : Stage} (move : s.Move s') {b : Ref .behaviour} (g : Gone b s) :
    Gone b s' := by
  refine ⟨Nat.lt_of_lt_of_le g.index_lt move.behaviours_size, fun alive => g.not_alive ?_⟩
  rcases move.loosens_or with l | ⟨drive, rfl⟩ | ⟨b', alpha, _, _, rfl⟩ | ⟨u, ids, _, rfl⟩
  · exact l.alive b alive
  · exact ((s.isAlive_addBehaviour drive b).1 alive).resolve_left (ne_next_of_index_lt g.index_lt)
  · rw [isAlive_iff, holders, behaviours_rebind] at alive
    exact s.isAlive_iff.2 alive
  · exact alive

end Animation.Stage
