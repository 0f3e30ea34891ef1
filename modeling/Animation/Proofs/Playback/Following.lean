/-
# What follows the frames of a timeline

On a stage the behaviours that are bound to a timeline follow its frames: each frame is noted,
then that each of them is ticked, in the order in which they were attached, and then the news of
the frame. As long as the timeline and its followers are left alone nothing else is noted of
them, and a frame that is played has all its cues.
-/

import Animation.Proofs.Playback.Segments
import Animation.Proofs.Timeline.Mirror

namespace Animation

/-- What an occurrence is to a timeline with a given emitter, and to its followers. -/
def Occurrence.cue? (t : Ref .timeline) (m : Ref .emitter) (members : List (Ref .behaviour)) :
    Occurrence → Option Cue
  | .started u _ _ => if u = t then some .started else none
  | .moved u number _ => if u = t then some (.frame number) else none
  | .ticked b alpha => if b ∈ members then some (.ticked b alpha) else none
  | .emitted m' event payload => ((emitted m' event payload).bulletin? t m).map .news
  | _ => none

theorem Occurrence.cue?_of_isIncidental {what : Occurrence} (h : what.isIncidental)
    (t : Ref .timeline) (m : Ref .emitter) (members : List (Ref .behaviour)) :
    what.cue? t m members = none := by
  cases what <;> first | rfl | exact nomatch h

/-- What is told of another timeline is no cue. -/
theorem Occurrence.cue?_elsewhere {t u : Ref .timeline} (ne : u ≠ t) {m m' : Ref .emitter}
    {members : List (Ref .behaviour)} {event : String} {payload : Payload}
    (own : payload.timeline? = some u) :
    (Occurrence.emitted m' event payload).cue? t m members = none := by
  have silent : (Occurrence.emitted m' event payload).bulletin? t m = none := by
    cases payload with
    | frame v number =>
        cases own
        exact if_neg fun ⟨_, same, _⟩ => ne same
    | timeline v =>
        cases own
        exact if_neg fun ⟨_, same, _⟩ => ne same
    | _ => rfl
  rw [cue?, silent]
  rfl

theorem notedAt_cons (time : Nat) (cue : Cue) (cues : List Cue) :
    notedAt time (cue :: cues) = notedAt time cues ++ [(time, cue)] := by
  simp [notedAt]

theorem notedAt_append (time : Nat) (cues cues' : List Cue) :
    notedAt time (cues ++ cues') = notedAt time cues' ++ notedAt time cues := by
  simp [notedAt]

namespace Stage

section Readings

variable (s : Stage) (t : Ref .timeline) (members : List (Ref .behaviour))

/-- The cues of a timeline and its followers, and when they were noted, last first. -/
def cues : List (Nat × Cue) :=
  s.journal.filterMap fun entry =>
    (entry.what.cue? t (s.emitterOf t) members).map (entry.time, ·)

/-- The timeline that a behaviour follows, and the easing under which it does. -/
def role? (b : Ref .behaviour) : Option (Ref .timeline × Easing) :=
  (s.bindingOf b).map fun binding =>
    (s.timelineOf binding.alpha, (s.alphas.get binding.alpha).easing)

/-- A task has been spawned to play a timeline, and now has the given row. -/
def Engages (k : Ref .task) (row : Task) : Prop :=
  k.index < s.tasks.size ∧ s.tasks.get k = row ∧ row.plays t = true

theorem cues_note (what : Occurrence) : (s.note what).cues t members =
    notedAt s.agenda.now (what.cue? t (s.emitterOf t) members).toList ++ s.cues t members := by
  show (⟨s.agenda.now, what⟩ :: s.journal).filterMap
    (fun entry => (entry.what.cue? t (s.emitterOf t) members).map (entry.time, ·)) = _
  rw [List.filterMap_cons]
  cases what.cue? t (s.emitterOf t) members <;> rfl

end Readings

theorem role?_congr {s s' : Stage} (core : ∀ b, s'.coreOf b = s.coreOf b)
    (binding : ∀ c, (s'.cores.get c).binding = (s.cores.get c).binding)
    (alpha : ∀ a, ∃ n, s'.alphas.get a = { s.alphas.get a with holders := n })
    (b : Ref .behaviour) : s'.role? b = s.role? b := by
  have follows : ∀ a, (s'.timelineOf a, (s'.alphas.get a).easing) =
      (s.timelineOf a, (s.alphas.get a).easing) := fun a => by
    obtain ⟨n, row⟩ := alpha a
    rw [timelineOf, row, timelineOf]
  rw [role?, bindingOf, core, binding, role?, bindingOf]
  congr 1
  funext binding
  exact follows binding.alpha

theorem Rehandled.role? {s s' : Stage} (h : s.Rehandled s') (b : Ref .behaviour) :
    s'.role? b = s.role? b :=
  role?_congr h.coreOf h.binding h.alpha b

theorem engages_of_incidental {s s' : Stage} (h : s.Incidental s') (t : Ref .timeline)
    (k : Ref .task) (row : Task) : s'.Engages t k row ↔ s.Engages t k row := by
  constructor
  · rintro ⟨added, rfl, plays⟩
    rcases Nat.lt_or_ge k.index s.tasks.size with old | new
    · rw [h.task k old] at plays ⊢
      exact ⟨old, rfl, plays⟩
    · rw [h.stranger k new added t] at plays
      exact nomatch plays
  · rintro ⟨added, rfl, plays⟩
    exact ⟨Nat.lt_of_lt_of_le added h.size, h.task k added, plays⟩

/-- A timeline goes on as it did, and what is noted is given, last first: its emitter is as free as
it was, the tasks that play it are as they were, and no time has passed. -/
structure Onward (t : Ref .timeline) (members : List (Ref .behaviour)) (new : List (Nat × Cue))
    (s s' : Stage) : Prop where
  emitter : s'.emitterOf t = s.emitterOf t
  isHeld : (s'.emitters.get (s.emitterOf t)).isHeld = (s.emitters.get (s.emitterOf t)).isHeld
  playback : (s'.timelines.get t).playback = (s.timelines.get t).playback
  size : s.tasks.size ≤ s'.tasks.size
  engages : ∀ k row, s'.Engages t k row ↔ s.Engages t k row
  now : s'.agenda.now = s.agenda.now
  channel : s'.agenda.channel.isSome = s.agenda.channel.isSome
  cues : s'.cues t members = new ++ s.cues t members

/-- Besides, its clock and its followers are left alone: nobody takes more handles away from those
that have entries than they add, none of them is brought back, and the given ones are not attached
to other timelines. -/
structure Cued (t : Ref .timeline) (members : List (Ref .behaviour)) (new : List (Nat × Cue))
    (s s' : Stage) : Prop extends Onward t members new s s' where
  clock : s'.clock t = s.clock t
  attachments : s'.attachments t = s.attachments t
  role : ∀ b ∈ members, s'.role? b = s.role? b
  holders : ∀ e ∈ s.attachments t,
    s.holders (.behaviour e.behaviour) ≤ s'.holders (.behaviour e.behaviour)
  gone : ∀ e ∈ s.attachments t, s.isAlive (.behaviour e.behaviour) = false →
    s'.isAlive (.behaviour e.behaviour) = false
  elsewhere : ∀ u, u ≠ t → ∀ e ∈ s'.attachments u, e.behaviour ∈ members → e ∈ s.attachments u

namespace Onward

variable {t : Ref .timeline} {members : List (Ref .behaviour)} {new new' : List (Nat × Cue)}
  {s s' s'' : Stage}

theorem trans (h : s.Onward t members new s') (h' : s'.Onward t members new' s'') :
    s.Onward t members (new' ++ new) s'' where
  emitter := h'.emitter.trans h.emitter
  isHeld := by
    have held := h'.isHeld
    rw [h.emitter] at held
    exact held.trans h.isHeld
  playback := h'.playback.trans h.playback
  size := Nat.le_trans h.size h'.size
  engages k row := (h'.engages k row).trans (h.engages k row)
  now := h'.now.trans h.now
  channel := h'.channel.trans h.channel
  cues := by rw [h'.cues, h.cues, List.append_assoc]

theorem free (h : s.Onward t members new s')
    (free : (s.emitters.get (s.emitterOf t)).isHeld = false) :
    (s'.emitters.get (s'.emitterOf t)).isHeld = false := by
  rw [h.emitter]
  exact h.isHeld.trans free

/-- Changes that do not touch tasks, emitters and the journal. -/
theorem of_eq (emitter : s'.emitterOf t = s.emitterOf t)
    (playback : (s'.timelines.get t).playback = (s.timelines.get t).playback)
    (emitters : s'.emitters = s.emitters) (tasks : s'.tasks = s.tasks)
    (agenda : s'.agenda = s.agenda) (journal : s'.journal = s.journal) :
    s.Onward t members [] s' where
  emitter := emitter
  isHeld := by rw [emitters]
  playback := playback
  size := by rw [tasks]
  engages k row := by rw [Engages, tasks, Engages]
  now := by rw [agenda]
  channel := by rw [agenda]
  cues := by rw [Stage.cues, emitter, journal]; rfl

/-- Handles are taken and given up. -/
theorem of_rehandled (h : s.Rehandled s') : s.Onward t members [] s' := by
  obtain ⟨n, row⟩ := h.timeline t
  exact .of_eq (by rw [emitterOf, row, emitterOf]) (by rw [row]) h.emitters h.tasks h.agenda
    h.journal

theorem modifyTimeline (s : Stage) (t u : Ref .timeline) (members : List (Ref .behaviour))
    {f : Timeline → Timeline} (emitter : ∀ row, (f row).emitter = row.emitter)
    (playback : ∀ row, (f row).playback = row.playback) :
    s.Onward t members [] (s.modifyTimeline u f) :=
  of_eq (Table.proj_get_modify _ u t emitter) (Table.proj_get_modify _ u t playback) rfl rfl rfl rfl

end Onward

namespace Cued

variable {t : Ref .timeline} {members : List (Ref .behaviour)} {new new' : List (Nat × Cue)}
  {s s' s'' : Stage}

theorem refl (t : Ref .timeline) (members : List (Ref .behaviour)) (s : Stage) :
    s.Cued t members [] s where
  toOnward := .of_eq rfl rfl rfl rfl rfl rfl
  clock := rfl
  attachments := rfl
  role _ _ := rfl
  holders _ _ := Nat.le_refl _
  gone _ _ := id
  elsewhere _ _ _ mem _ := mem

theorem trans (h : s.Cued t members new s') (h' : s'.Cued t members new' s'') :
    s.Cued t members (new' ++ new) s'' where
  toOnward := h.toOnward.trans h'.toOnward
  clock := h'.clock.trans h.clock
  attachments := h'.attachments.trans h.attachments
  role b mem := (h'.role b mem).trans (h.role b mem)
  holders e mem := Nat.le_trans (h.holders e mem) (h'.holders e (h.attachments ▸ mem))
  gone e mem dead := h'.gone e (h.attachments ▸ mem) (h.gone e mem dead)
  elsewhere u ne e mem member := h.elsewhere u ne e (h'.elsewhere u ne e mem member) member

/-- What had an entry and was there is still there, and what was not is not. -/
theorem isAlive (h : s.Cued t members new s') {e : Attachment} (mem : e ∈ s.attachments t) :
    s'.isAlive (.behaviour e.behaviour) = s.isAlive (.behaviour e.behaviour) := by
  cases before : s.isAlive (.behaviour e.behaviour) with
  | false => exact h.gone e mem before
  | true => exact decide_eq_true (Nat.lt_of_lt_of_le (of_decide_eq_true before) (h.holders e mem))

theorem note (s : Stage) (t : Ref .timeline) (members : List (Ref .behaviour)) (what : Occurrence) :
    s.Cued t members (notedAt s.agenda.now (what.cue? t (s.emitterOf t) members).toList)
      (s.note what) where
  emitter := rfl
  isHeld := rfl
  playback := rfl
  size := Nat.le_refl _
  engages _ _ := .rfl
  now := rfl
  channel := rfl
  cues := s.cues_note t members what
  clock := rfl
  attachments := rfl
  role _ _ := rfl
  holders _ _ := Nat.le_refl _
  gone _ _ := id
  elsewhere _ _ _ mem _ := mem

theorem incidental (h : s.Incidental s') : s.Cued t members [] s' := by
  obtain ⟨n, row⟩ := h.timeline t
  have emitter : s'.emitterOf t = s.emitterOf t := by rw [emitterOf, row, emitterOf]
  have core : ∀ b, s'.coreOf b = s.coreOf b := fun b => by rw [coreOf, h.behaviours, coreOf]
  have holders : ∀ b, s'.holders (.behaviour b) = s.holders (.behaviour b) := fun b =>
    congrArg (fun rows => (rows.get b).holders) h.behaviours
  have attachments : ∀ u, s'.attachments u = s.attachments u := fun u => by
    obtain ⟨n, row⟩ := h.timeline u
    rw [Stage.attachments, row, Stage.attachments]
  refine ⟨⟨emitter, by rw [h.emitters], by rw [row], h.size, engages_of_incidental h t, h.now,
      h.channel, ?_⟩,
    by rw [Stage.clock, row, Stage.clock], attachments t,
    fun b _ => role?_congr core h.binding h.alpha b, fun e _ => Nat.le_of_eq (holders _).symm,
    fun e _ dead => ?_, fun u _ e mem _ => attachments u ▸ mem⟩
  · obtain ⟨notes, journal, silent⟩ := h.journal
    have none : notes.filterMap (fun entry =>
        (entry.what.cue? t (s.emitterOf t) members).map (entry.time, ·)) = [] := by
      apply List.filterMap_eq_nil_iff.2
      intro entry mem
      rw [Occurrence.cue?_of_isIncidental (silent entry mem)]
      rfl
    rw [Stage.cues, emitter, journal, List.filterMap_append, none]
    rfl
  · rw [Stage.isAlive, holders]
    exact dead

theorem held {m : Ref .emitter} (free : (s.emitters.get m).isHeld = false)
    (h : (Script.hold true m s).Cued t members [] s') :
    s.Cued t members [] (Script.hold false m s') where
  emitter := h.emitter
  isHeld := Script.isHeld_hold_false free h.isHeld
  playback := h.playback
  size := h.size
  engages := h.engages
  now := h.now
  channel := h.channel
  cues := h.cues
  clock := h.clock
  attachments := h.attachments
  role := h.role
  holders := h.holders
  gone := h.gone
  elsewhere := h.elsewhere

/-- The entries of another timeline change, and none is added. -/
theorem modifyTimeline_of_ne (s : Stage) {u : Ref .timeline} (ne : u ≠ t)
    (members : List (Ref .behaviour)) {f : Timeline → Timeline}
    (attachments : ∀ row, (f row).attachments ⊆ row.attachments) :
    s.Cued t members [] (s.modifyTimeline u f) := by
  have row : (s.modifyTimeline u f).timelines.get t = s.timelines.get t :=
    Table.get_modify_of_ne _ _ ne
  refine ⟨.of_eq (congrArg Timeline.emitter row) (congrArg Timeline.playback row) rfl rfl rfl rfl,
    congrArg Timeline.clock row, congrArg Timeline.attachments row, fun _ _ => rfl,
    fun _ _ => Nat.le_refl _, fun _ _ => id, fun v _ e mem _ => ?_⟩
  have entries : (s.modifyTimeline u f).attachments v =
      if u = v then (f (s.timelines.get u)).attachments else s.attachments v := by
    rw [Stage.attachments, modifyTimeline, Table.get_modify, apply_ite Timeline.attachments]
    rfl
  rw [entries] at mem
  split at mem
  · next own => exact own ▸ attachments _ mem
  · exact mem

/-- A handle on a behaviour that is there is taken meanwhile. -/
theorem escorted {b : Ref .behaviour} (alive : s.isAlive (.behaviour b))
    (h : (s.retainAll [.behaviour b]).Cued t members new s') :
    s.Cued t members new (s'.releaseAll [.behaviour b]) := by
  have before := s.rehandled_retainAll [.behaviour b]
  have after := s'.rehandled_releaseAll [.behaviour b]
  have onward := ((Onward.of_rehandled before).trans h.toOnward).trans (.of_rehandled after)
  rw [List.nil_append, List.append_nil] at onward
  have own : ∀ e ∈ s.attachments t, e ∈ (s.retainAll [.behaviour b]).attachments t :=
    fun e mem => before.attachments t ▸ mem
  exact ⟨onward, ((after.clock t).trans h.clock).trans (before.clock t),
    ((after.attachments t).trans h.attachments).trans (before.attachments t),
    fun b mem => ((after.role? b).trans (h.role b mem)).trans (before.role? b),
    fun e mem => holders_escorted (h.holders e (own e mem)),
    fun e mem => gone_escorted alive (h.gone e (own e mem)),
    fun u ne e mem member => before.attachments u ▸
      h.elsewhere u ne e (after.attachments u ▸ mem) member⟩

end Cued

/-- The numbers of those among some entries whose behaviours are gone. -/
def goneOf (s : Stage) (entries : List Attachment) : List Nat :=
  (entries.filter fun e => !s.isAlive (.behaviour e.behaviour)).map (·.id)

/-- An entry is struck off with those that are gone just if its own behaviour is gone. -/
theorem id_mem_goneOf_iff {s : Stage} {entries : List Attachment}
    (nodup : (entries.map (·.id)).Nodup) {e : Attachment} (mem : e ∈ entries) :
    e.id ∈ s.goneOf entries ↔ s.isAlive (.behaviour e.behaviour) = false := by
  constructor
  · intro struck
    obtain ⟨e', mem', same⟩ := List.mem_map.1 struck
    obtain ⟨mem', gone⟩ := List.mem_filter.1 mem'
    cases List.inj_on_of_nodup_map nodup mem' mem same
    simpa using gone
  · exact fun gone => List.mem_map_of_mem (List.mem_filter.2 ⟨mem, by simp [gone]⟩)

theorem Cued.goneOf {t : Ref .timeline} {members : List (Ref .behaviour)}
    {new : List (Nat × Cue)} {s s' : Stage} (h : s.Cued t members new s')
    {entries : List Attachment} (own : ∀ e ∈ entries, e ∈ s.attachments t) :
    s'.goneOf entries = s.goneOf entries :=
  congrArg (List.map fun e : Attachment => e.id)
    (List.filter_congr fun e mem => congrArg Bool.not (h.isAlive (own e mem)))

/-- The followers of a timeline, in the order of their entries, each with its easing. -/
structure Followed (t : Ref .timeline) (followers : List (Ref .behaviour × Easing)) (s : Stage) :
    Prop where
  entries : ((s.attachments t).filter fun e =>
    s.isAlive (.behaviour e.behaviour)).map (·.behaviour) = followers.map (·.1)
  role : ∀ f ∈ followers, s.role? f.1 = some (t, f.2)
  ids_nodup : ((s.attachments t).map (·.id)).Nodup
  /-- They are attached to no other timeline. -/
  faithful : ∀ u, u ≠ t → ∀ e ∈ s.attachments u, e.behaviour ∉ followers.map (·.1)

namespace Followed

variable {t : Ref .timeline} {followers : List (Ref .behaviour × Easing)} {s s' : Stage}
  {new : List (Nat × Cue)}

theorem cued (h : s.Followed t followers) (cued : s.Cued t (followers.map (·.1)) new s') :
    s'.Followed t followers where
  entries := by
    rw [cued.attachments, ← h.entries]
    congr 1
    exact List.filter_congr fun e mem => cued.isAlive mem
  role f mem := (cued.role f.1 (List.mem_map_of_mem mem)).trans (h.role f mem)
  ids_nodup := by
    rw [cued.attachments]
    exact h.ids_nodup
  faithful u ne e mem member := h.faithful u ne e (cued.elsewhere u ne e mem member) member

/-- Those that are gone are no followers, so that their entries can be removed. -/
theorem detach (h : s.Followed t followers) :
    (s.detach t (s.goneOf (s.attachments t))).Followed t followers := by
  have left := s.attachments_detach t (s.goneOf (s.attachments t)) t
  rw [if_pos rfl] at left
  have kept : ∀ e ∈ s.attachments t, s.isAlive (.behaviour e.behaviour) →
      e.id ∉ s.goneOf (s.attachments t) := fun e mem alive struck =>
    Bool.false_ne_true (((id_mem_goneOf_iff h.ids_nodup mem).1 struck).symm.trans alive)
  refine ⟨?_, h.role, ?_, fun u ne => ?_⟩
  · rw [left, ← h.entries, List.filter_filter]
    congr 1
    refine List.filter_congr fun e mem => ?_
    show (s.isAlive (.behaviour e.behaviour) && _) = _
    cases alive : s.isAlive (.behaviour e.behaviour) with
    | false => rfl
    | true => simpa using kept e mem alive
  · rw [left]
    exact h.ids_nodup.sublist (List.filter_sublist.map _)
  · rw [attachments_detach, if_neg (Ne.symm ne)]
    exact h.faithful u ne

end Followed

/-- The behaviours with an entry that are there, each with the easing of its alpha. -/
def retinue (s : Stage) (t : Ref .timeline) : List (Ref .behaviour × Easing) :=
  ((s.attachments t).filter fun e => s.isAlive (.behaviour e.behaviour)).filterMap fun e =>
    (s.role? e.behaviour).map fun role => (e.behaviour, role.2)

/-- If the records of all bindings agree then these are the followers of a timeline. -/
theorem Tied.followed {s : Stage} (h : s.Tied) (t : Ref .timeline) :
    s.Followed t (s.retinue t) where
  entries := by
    rw [retinue, List.map_filterMap, ← List.filterMap_eq_map]
    refine List.filterMap_congr fun e mem => ?_
    obtain ⟨mem, alive⟩ := List.mem_filter.1 mem
    obtain ⟨a, bound, -⟩ := h.bound mem alive
    rw [role?, bound]
    rfl
  role f mem := by
    obtain ⟨e, mem, found⟩ := List.mem_filterMap.1 mem
    obtain ⟨mem, alive⟩ := List.mem_filter.1 mem
    obtain ⟨a, bound, follows⟩ := h.bound mem alive
    rw [role?, bound] at found
    cases found
    rw [role?, bound, ← follows]
    rfl
  ids_nodup := h.ids_nodup t
  faithful u ne e mem member := by
    obtain ⟨f, found, same⟩ := List.mem_map.1 member
    obtain ⟨e', mem', found⟩ := List.mem_filterMap.1 found
    obtain ⟨mem', alive⟩ := List.mem_filter.1 mem'
    obtain ⟨a, bound, follows⟩ := h.bound mem' alive
    rw [role?, bound] at found
    cases found
    dsimp only at same
    rw [same] at alive bound
    obtain ⟨a', bound', follows'⟩ := h.bound mem alive
    have alpha : a = a' := congrArg Binding.alpha (Option.some.inj (bound.symm.trans bound'))
    exact ne (follows'.symm.trans (alpha ▸ follows))

end Stage

namespace Pact

open Script

variable {υ : Type}

/-- The pact to leave a timeline, its followers and what they note alone. -/
def aloof (calm : υ → Prop) (t : Ref .timeline) (members : List (Ref .behaviour)) : Pact υ where
  calm := calm
  leaves := Stage.Cued t members []
  refl := .refl t members
  trans := .trans
  incidental := .incidental
  held := .held

variable {calm : υ → Prop} {t : Ref .timeline} {followers : List (Ref .behaviour × Easing)}
  {host : Host υ} {w w' w'' : World υ} {new new' : List (Nat × Cue)} {clock clock' : Clock}

theorem guards_aloof (members : List (Ref .behaviour)) : (aloof calm t members).Guards t :=
  fun h => ⟨h.clock, h.emitter, h.isHeld⟩

/-- A world in which a timeline is left alone with its followers, and its emitter is free. -/
structure Accompanies (calm : υ → Prop) (t : Ref .timeline)
    (followers : List (Ref .behaviour × Easing)) (w : World υ) : Prop
    extends (aloof calm t (followers.map (·.1))).Keeps w where
  free : (w.stage.emitters.get (w.stage.emitterOf t)).isHeld = false
  followed : w.stage.Followed t followers

/-- The clock of a timeline has turned, something has been noted, and the timeline goes on as it
did. -/
structure Advanced (calm : υ → Prop) (t : Ref .timeline)
    (followers : List (Ref .behaviour × Easing)) (w w' : World υ) (clock : Clock)
    (new : List (Nat × Cue)) : Prop where
  accompanies : Accompanies calm t followers w'
  clock : w'.stage.clock t = clock
  onward : w.stage.Onward t (followers.map (·.1)) new w'.stage

theorem Advanced.trans (h : Advanced calm t followers w w' clock new)
    (h' : Advanced calm t followers w' w'' clock' new') :
    Advanced calm t followers w w'' clock' (new' ++ new) :=
  ⟨h'.accompanies, h'.clock, h.onward.trans h'.onward⟩

namespace Accompanies

variable (h : Accompanies calm t followers w)

include h

theorem cued (keeps : (aloof calm t (followers.map (·.1))).Keeps w')
    (cued : w.stage.Cued t (followers.map (·.1)) new w'.stage) :
    Advanced calm t followers w w' (w.stage.clock t) new :=
  ⟨⟨keeps, cued.free h.free, h.followed.cued cued⟩, cued.clock, cued.toOnward⟩

theorem follow (follows : (aloof calm t (followers.map (·.1))).Follows w w') :
    Advanced calm t followers w w' (w.stage.clock t) [] :=
  h.cued follows.keeps follows.leaves

theorem note (what : Occurrence) :
    Advanced calm t followers w { w with stage := w.stage.note what } (w.stage.clock t)
      (notedAt w.stage.agenda.now
        (what.cue? t (w.stage.emitterOf t) (followers.map (·.1))).toList) :=
  h.cued ⟨h.calm, h.checked⟩ (.note _ t _ what)

/-- A new clock is set. -/
theorem setClock (clock : Clock) :
    Advanced calm t followers w { w with stage := w.stage.setClock t clock } clock [] := by
  have onward : w.stage.Onward t (followers.map (·.1)) [] (w.stage.setClock t clock) :=
    .modifyTimeline _ t t _ (fun _ => rfl) fun _ => rfl
  have attachments : ∀ u, (w.stage.setClock t clock).attachments u = w.stage.attachments u :=
    fun u => Table.proj_get_modify _ t u (g := Timeline.attachments) fun _ => rfl
  refine ⟨⟨⟨h.calm, h.checked⟩, onward.free h.free, ?_, h.followed.role, ?_, fun u ne => ?_⟩,
    w.stage.clock_setClock t clock, onward⟩
  · rw [attachments]
    exact h.followed.entries
  · rw [attachments]
    exact h.followed.ids_nodup
  · rw [attachments]
    exact h.followed.faithful u ne

/-- The entries of behaviours that are gone are removed. -/
theorem detach :
    Advanced calm t followers w
      { w with stage := w.stage.detach t (w.stage.goneOf (w.stage.attachments t)) }
      (w.stage.clock t) [] := by
  have onward : ∀ ids, w.stage.Onward t (followers.map (·.1)) [] (w.stage.detach t ids) :=
    fun _ => .modifyTimeline _ t t _ (fun _ => rfl) fun _ => rfl
  exact ⟨⟨⟨h.calm, h.checked⟩, (onward _).free h.free, h.followed.detach⟩,
    Table.proj_get_modify _ t t (g := Timeline.clock) fun _ => rfl, onward _⟩

end Accompanies

namespace Binds

/-- A behaviour that is bound is ticked with the value of its alpha. -/
theorem run_tick {members : List (Ref .behaviour)} (hh : (aloof calm t members).Binds host)
    (keeps : (aloof calm t members).Keeps w) {b : Ref .behaviour} (member : b ∈ members)
    {a : Ref .alpha} (bound : w.stage.boundAlpha? (w.stage.coreOf b) = some a) :
    ∃ w', (Script.tick host b).run w = (.ok (), w') ∧ (aloof calm t members).Keeps w' ∧
      w.stage.Cued t members [(w.stage.agenda.now, .ticked b (w.stage.alphaValue host.curves a))]
        w'.stage := by
  let alpha : List Handle := [.alpha a]
  have others : ∀ h ∈ alpha, h.isOnBehaviour = false := by simp [alpha, Handle.isOnBehaviour]
  have retained := keeps.incidental (.retainAll w.stage others)
  let noted : World υ := { w with
    stage := (w.stage.retainAll alpha).note (.ticked b (w.stage.alphaValue host.curves a)) }
  have le : w.stage.alphaValue host.curves a ≤ alphaMax := Easing.sample_le ..
  obtain ⟨_, w', run, -, driven⟩ :=
    hh.drive b le noted ⟨retained.keeps.calm, retained.keeps.checked⟩
  have released := driven.keeps.incidental (.releaseAll w'.stage others)
  refine ⟨{ w' with stage := w'.stage.releaseAll alpha }, ?_, released.keeps, ?_⟩
  · rw [run_tick_of_bound host (.refl w.stage) bound, run_holding, run_thenTidy, run_note_bind, run]
  · have ticked := Stage.Cued.note (w.stage.retainAll alpha) t members
      (.ticked b (w.stage.alphaValue host.curves a))
    rw [Occurrence.cue?, if_pos member, retained.leaves.now] at ticked
    have cued :=
      ((Stage.Cued.trans retained.leaves ticked).trans driven.leaves).trans released.leaves
    simpa [notedAt] using cued

variable (hh : (aloof calm t (followers.map (·.1))).Binds host)

include hh

/-- In its turn a follower is ticked with the alpha of its easing. -/
theorem run_turn (h : Accompanies calm t followers w) {e : Attachment}
    (alive : w.stage.isAlive (.behaviour e.behaviour) = true) {easing : Easing}
    (follower : (e.behaviour, easing) ∈ followers) :
    ∃ w', (turn host e).run w = (.ok none, w') ∧
      w.stage.Cued t (followers.map (·.1))
        [(w.stage.agenda.now, .ticked e.behaviour ((w.stage.clock t).alphaBy host.curves easing))]
          w'.stage ∧
      Accompanies calm t followers w' := by
  -- The behaviour is bound to an alpha of the timeline, which has this easing.
  obtain ⟨⟨a, id⟩, bound, role⟩ := Option.map_eq_some_iff.1 (h.followed.role _ follower)
  obtain ⟨follows, rfl⟩ := Prod.mk.inj role
  have value : w.stage.alphaValue host.curves a =
      (w.stage.clock t).alphaBy host.curves (w.stage.alphas.get a).easing := by
    rw [Stage.alphaValue, Stage.clockOf, Stage.clock, ← follows]
    rfl
  have retained := w.stage.rehandled_retainAll [.behaviour e.behaviour]
  obtain ⟨w', run, keeps, cued⟩ := hh.run_tick (a := a)
    (w := { w with stage := w.stage.retainAll [.behaviour e.behaviour] })
    ⟨h.calm, fun b => retained.drive b ▸ h.checked b⟩ (List.mem_map_of_mem follower)
    (by rw [retained.boundAlpha?, retained.coreOf]; exact congrArg (Option.map (·.alpha)) bound)
  rw [retained.alphaValue, retained.agenda, value] at cued
  have turned := Stage.Cued.escorted alive cued
  have released := w'.stage.rehandled_releaseAll [.behaviour e.behaviour]
  have keeps' : (aloof calm t (followers.map (·.1))).Keeps
      { w' with stage := w'.stage.releaseAll [.behaviour e.behaviour] } :=
    ⟨keeps.calm, fun b => released.drive b ▸ keeps.checked b⟩
  refine ⟨_, ?_, turned, (h.cued keeps' turned).accompanies⟩
  rw [run_turn_of_alive alive, run_bind, run_holding, run_thenTidy, run]
  rfl

/-- Followers are ticked in the order of their entries, and the others are found to be gone. -/
theorem run_tickEach (h : Accompanies calm t followers w) {entries : List Attachment}
    (own : ∀ e ∈ entries, e ∈ w.stage.attachments t) {those : List (Ref .behaviour × Easing)}
    (there : (entries.filter fun e => w.stage.isAlive (.behaviour e.behaviour)).map (·.behaviour) =
      those.map (·.1)) (among : ∀ f ∈ those, f ∈ followers) :
    ∃ w', (Script.tickEach host entries).run w = (.ok (w.stage.goneOf entries), w') ∧
      w.stage.Cued t (followers.map (·.1)) (notedAt w.stage.agenda.now
        (those.map fun (b, easing) => .ticked b ((w.stage.clock t).alphaBy host.curves easing)))
          w'.stage ∧
      Accompanies calm t followers w' := by
  induction entries generalizing w those with
  | nil =>
      cases List.map_eq_nil_iff.1 there.symm
      exact ⟨w, rfl, .refl t _ _, h⟩
  | cons e rest ih =>
      have others : ∀ e ∈ rest, e ∈ w.stage.attachments t :=
        fun e mem => own e (List.mem_cons_of_mem _ mem)
      cases alive : w.stage.isAlive (.behaviour e.behaviour) with
      | false =>
          rw [List.filter_cons_of_neg (by simp [alive])] at there
          obtain ⟨w', run, cued⟩ := ih h others there among
          refine ⟨w', ?_, cued⟩
          rw [run_tickEach_cons, run_bind_of_ok (run_turn_of_gone (by simp [alive])),
            run_bind_of_ok run, Stage.goneOf, Stage.goneOf,
            List.filter_cons_of_pos (by simp [alive])]
          rfl
      | true =>
          rw [List.filter_cons_of_pos (by simp [alive]), List.map_cons] at there
          obtain ⟨⟨b, easing⟩, those, rfl, rfl, left⟩ := List.map_eq_cons_iff.1 there.symm
          obtain ⟨w₁, run, first, accompanies⟩ :=
            hh.run_turn h alive (among _ (List.mem_cons_self ..))
          have same : rest.filter (fun e => w₁.stage.isAlive (.behaviour e.behaviour)) =
              rest.filter fun e => w.stage.isAlive (.behaviour e.behaviour) :=
            List.filter_congr fun e mem => first.isAlive (others e mem)
          rw [← same] at left
          obtain ⟨w', run', cued, accompanies'⟩ := ih accompanies
            (fun e mem => first.attachments ▸ others e mem) left.symm
            fun f mem => among f (List.mem_cons_of_mem _ mem)
          rw [first.now, first.clock] at cued
          refine ⟨w', ?_, ?_, accompanies'⟩
          · have gone : w₁.stage.goneOf rest = w.stage.goneOf (e :: rest) := by
              rw [first.goneOf others, Stage.goneOf, Stage.goneOf,
                List.filter_cons_of_neg (by simp [alive])]
            rw [run_tickEach_cons, run_bind_of_ok run, run_bind_of_ok run', gone]
            rfl
          · rw [List.map_cons, notedAt_cons]
            exact first.trans cued

/-- In a frame all followers are ticked, and the entries of others are removed. -/
theorem run_tickAttached (h : Accompanies calm t followers w) :
    ∃ w', (tickAttached host t).run w = (.ok (), w') ∧
      Advanced calm t followers w w' (w.stage.clock t) (notedAt w.stage.agenda.now
        (followers.map fun (b, easing) =>
          .ticked b ((w.stage.clock t).alphaBy host.curves easing))) := by
  obtain ⟨w₁, run, cued, accompanies⟩ := hh.run_tickEach h (fun _ => id) h.followed.entries
    fun _ => id
  have first := h.cued accompanies.toKeeps cued
  unfold tickAttached
  rw [run_stage_bind]
  show ∃ w', (Script.tickEach host (w.stage.attachments t) >>= _).run w = _ ∧ _
  rw [run_bind_of_ok run]
  -- Those that are gone are still gone when their entries are removed.
  have still : w₁.stage.goneOf (w₁.stage.attachments t) =
      w.stage.goneOf (w.stage.attachments t) := by
    rw [cued.attachments, cued.goneOf fun _ => id]
  rw [← still]
  have noted := accompanies.note (.pruned t (w₁.stage.goneOf (w₁.stage.attachments t)).length)
  have last := first.trans (noted.trans noted.accompanies.detach)
  split
  · exact ⟨w₁, rfl, first⟩
  · exact ⟨_, rfl, last.accompanies, last.clock.trans first.clock, last.onward⟩

end Binds

/-! ## Frames -/

section News

variable {members : List (Ref .behaviour)} {s s' : Stage}

theorem Announces.cued {event : TimelineEvent} {payload : Payload} {cue : Cue}
    (h : (aloof calm t members).Announces t event payload s s')
    (told : (Occurrence.emitted (s.emitterOf t) event.name payload).cue? t (s.emitterOf t) members =
      some cue) : s.Cued t members [(s.agenda.now, cue)] s' := by
  have noted := Stage.Cued.note s t members (.emitted (s.emitterOf t) event.name payload)
  rw [told] at noted
  exact noted.trans h

/-- The news of a frame, and of the end of a run, from which a timeline that repeats goes back. -/
theorem Concludes.advanced {played : Clock} (accompanies : Accompanies calm t followers w)
    (clock : w.stage.clock t = played) (keeps : (aloof calm t (followers.map (·.1))).Keeps w')
    (h : (aloof calm t (followers.map (·.1))).Concludes t played w.stage w'.stage) :
    Advanced calm t followers w w' (clockAfter played) (notedAt w.stage.agenda.now
      (played.news.map .news)) := by
  obtain ⟨s₁, frame, rest⟩ := h
  have first : w.stage.Cued t (followers.map (·.1))
      [(w.stage.agenda.now, .news (.frame played.frame))] s₁ :=
    frame.cued (by simp [Occurrence.cue?, Occurrence.bulletin?])
  rcases rest with ⟨incomplete, rfl⟩ | ⟨complete, s₂, finish, last⟩
  · have advanced := accompanies.cued keeps first
    rw [clock] at advanced
    rw [clockAfter, Clock.news, incomplete]
    exact advanced
  · have second : s₁.Cued t (followers.map (·.1)) [(s₁.agenda.now, .news .completed)] s₂ :=
      finish.cued (by simp [Occurrence.cue?, Occurrence.bulletin?])
    rw [first.now] at second
    have keeps₂ : (aloof calm t (followers.map (·.1))).Keeps { w' with stage := s₂ } := by
      refine ⟨keeps.calm, fun b => ?_⟩
      have checked := keeps.checked b
      rw [last] at checked
      split at checked <;> exact checked
    have advanced := accompanies.cued keeps₂ (first.trans second)
    rw [clock] at advanced
    rw [clockAfter, Clock.news, complete]
    cases repeats : played.repeats with
    | false =>
        rw [repeats, if_neg Bool.false_ne_true] at last
        rw [← last] at advanced
        exact advanced
    | true =>
        rw [repeats, if_pos rfl] at last
        have rewound := advanced.trans (advanced.accompanies.setClock played.rewind)
        have same : s₂.rewind t = s₂.setClock t played.rewind := by
          rw [Stage.rewind, show s₂.clock t = played from advanced.clock]
        rw [← same, ← last] at rewound
        exact rewound

end News

namespace Binds

variable (hh : (aloof calm t (followers.map (·.1))).Binds host)

include hh

/-- A frame is played with all its cues. -/
theorem run_step (h : Accompanies calm t followers w) {played : Clock}
    (going : (w.stage.clock t).isOver = false) (step : (w.stage.clock t).step = .ok played) :
    ∃ w', (nextFrame host t).run w = (.ok (!played.isComplete || played.repeats), w') ∧
      Advanced calm t followers w w' (clockAfter played)
        (notedAt w.stage.agenda.now (played.cues host.curves followers)) := by
  rw [run_nextFrame_of_step going step]
  have set := h.setClock played
  have noted := set.accompanies.note (.moved t played.frame played.frames)
  rw [Occurrence.cue?, if_pos rfl, set.clock] at noted
  have moved := set.trans noted
  obtain ⟨w₂, run, ticked⟩ := hh.run_tickAttached moved.accompanies
  rw [moved.clock] at ticked
  obtain ⟨w₃, run', keeps, concludes⟩ := hh.run_concludeFrame (Guards.emitter (guards_aloof _))
    played ticked.accompanies.toKeeps ticked.accompanies.free
  have last := concludes.advanced ticked.accompanies ticked.clock keeps
  rw [ticked.onward.now] at last
  refine ⟨w₃, (run_bind_of_ok run _).trans run', ?_⟩
  rw [Clock.cues, notedAt_append, notedAt_cons _ (.frame _)]
  exact (moved.trans ticked).trans last

/-- A frame of a run that is not repeated is played. -/
theorem run_frame (h : Accompanies calm t followers w) (single : (w.stage.clock t).repeats = false)
    (left : 0 < (w.stage.clock t).remaining) :
    ∃ w', (nextFrame host t).run w = (.ok (!((w.stage.clock t).further 1).isComplete), w') ∧
      Advanced calm t followers w w' ((w.stage.clock t).further 1)
        (notedAt w.stage.agenda.now
          (((w.stage.clock t).further 1).cues host.curves followers)) := by
  have frame := hh.run_step h (Clock.isOver_of_remaining left) (Clock.step_of_remaining left)
  have single' := (Clock.sameSettings_further (w.stage.clock t) 1).repeats.trans single
  rw [clockAfter, single', Bool.or_false, Bool.and_false, if_neg Bool.false_ne_true] at frame
  exact frame

/-- Behaviours that follow another timeline may be ticked. -/
theorem tickAttached_elsewhere {u : Ref .timeline} (ne : u ≠ t)
    (others : ∀ e ∈ w.stage.attachments u, e.behaviour ∉ followers.map (·.1)) :
    (aloof calm t (followers.map (·.1))).Bears (tickAttached host u) w := by
  have quiet : ∀ e ∈ w.stage.attachments u, ∀ (s : Stage) (alpha : Nat),
      s.Cued t (followers.map (·.1)) [] (s.note (.ticked e.behaviour alpha)) := by
    intro e mem s alpha
    have noted := Stage.Cued.note s t (followers.map (·.1)) (.ticked e.behaviour alpha)
    rw [Occurrence.cue?, if_neg (others e mem)] at noted
    exact noted
  have ticked :
      (aloof calm t (followers.map (·.1))).Abides (fun _ => True) (tickAttached host u) w := by
    refine abides_stage_bind fun _ =>
      abides_bind (hh.tickEach .escorted quiet w) fun gone w' _ => ?_
    split
    · exact abides_done
    · have noted := Stage.Cued.note w'.stage t (followers.map (·.1)) (.pruned u gone.length)
      exact fun keeps => ⟨(), _, rfl, trivial, keeps.follows (fun _ => rfl)
        (noted.trans (.modifyTimeline_of_ne _ ne _ fun _ => List.filter_sublist.subset))⟩
  exact ticked.bears

/-- An event of another timeline may be announced. -/
theorem announce_elsewhere {u : Ref .timeline} (ne : u ≠ t) (event : TimelineEvent)
    {payload : Payload} (own : payload.timeline? = some u) :
    (aloof calm t (followers.map (·.1))).Bears (announce host u event payload) w := by
  have noted := Stage.Cued.note w.stage t (followers.map (·.1))
    (.emitted (w.stage.emitterOf u) event.name payload)
  rw [Occurrence.cue?_elsewhere ne own] at noted
  unfold announce
  intro keeps
  rw [run_stage_bind]
  exact hh.emit (w.stage.emitterOf u) event.name payload noted keeps

theorem concludeFrame_elsewhere {u : Ref .timeline} (ne : u ≠ t) (played : Clock) :
    (aloof calm t (followers.map (·.1))).Bears (concludeFrame host u played) w := by
  refine bears_bind (hh.announce_elsewhere ne .newFrame rfl) fun _ w₁ _ => ?_
  split
  · refine bears_bind (hh.announce_elsewhere ne .completed rfl) fun _ w₂ _ => ?_
    split
    · exact fun keeps => keeps.follows (s := w₂.stage.rewind u) (fun _ => rfl)
        (.modifyTimeline_of_ne _ ne _ fun _ => List.Subset.refl _)
    · exact .refl
  · exact .refl

/-- A frame of another timeline may be played. -/
theorem nextFrame_elsewhere (h : Accompanies calm t followers w) {u : Ref .timeline} (ne : u ≠ t) :
    (aloof calm t (followers.map (·.1))).Follows w ((nextFrame host u).run w).2 := by
  cases done : (w.stage.clock u).isOver with
  | true =>
      rw [run_nextFrame_of_isOver done]
      exact .refl h.toKeeps
  | false =>
      cases step : (w.stage.clock u).step with
      | error cause =>
          rw [run_nextFrame_of_step_error done step]
          exact .refl h.toKeeps
      | ok played =>
          rw [run_nextFrame_of_step done step]
          let moved := (w.stage.setClock u played).note (.moved u played.frame played.frames)
          have set : w.stage.Cued t (followers.map (·.1)) [] (w.stage.setClock u played) :=
            .modifyTimeline_of_ne w.stage ne _ fun _ => List.Subset.refl _
          have noted := Stage.Cued.note (w.stage.setClock u played) t (followers.map (·.1))
            (.moved u played.frame played.frames)
          rw [Occurrence.cue?, if_neg ne] at noted
          have first : w.stage.Cued t (followers.map (·.1)) [] moved := set.trans noted
          have follows := h.toKeeps.follows (s := moved) (fun _ => rfl) first
          have others := (h.cued follows.keeps first).accompanies
          have finish := bears_bind (hh.tickAttached_elsewhere ne (others.followed.faithful u ne))
            fun _ _ _ => hh.concludeFrame_elsewhere ne played
          exact follows.trans (finish follows.keeps)

end Binds

end Pact

end Animation
