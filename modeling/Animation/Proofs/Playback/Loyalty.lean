/-
# Leaving a timeline its followers

Much may be done while a timeline plays a frame without anything being taken from it: behaviours
may be attached to it in addition, settings and easings may change, and things that it does not
know of may come and go. A stage is loyal to a timeline if the timeline stands on the frame on
which it stood, and has kept what is attached to it under the same alphas. Then the behaviours
that are there are still there, and the entries that can be struck off are still the same ones.
-/

import Animation.Proofs.Playback.Following
import Animation.Proofs.Script.Conduct

namespace Animation

namespace Stage

section Readings

variable (s : Stage)

/-- The alpha that a behaviour is bound to, and the timeline that this alpha follows. -/
def lead? (b : Ref .behaviour) : Option (Ref .alpha × Ref .timeline) :=
  (s.bindingOf b).map fun binding => (binding.alpha, s.timelineOf binding.alpha)

/-- What an alpha of a timeline yields at a frame. -/
def alphaAt (curves : Curves) (t : Ref .timeline) (number : Nat) (a : Ref .alpha) : Nat :=
  Clock.alphaBy { s.clock t with frame := number } curves (s.alphas.get a).easing

/-- A behaviour is there and has an entry with a timeline. -/
def Attached (t : Ref .timeline) (b : Ref .behaviour) : Prop :=
  s.isAlive (.behaviour b) = true ∧ ∃ e ∈ s.attachments t, e.behaviour = b

/-- Those behaviours of some entries that are there, each with the alpha that it is bound to. -/
def ensemble (entries : List Attachment) : List (Ref .behaviour × Ref .alpha) :=
  (entries.filter fun e => s.isAlive (.behaviour e.behaviour)).filterMap fun e =>
    (s.lead? e.behaviour).map fun lead => (e.behaviour, lead.1)

end Readings

theorem lead?_congr {s s' : Stage} (core : ∀ b, s'.coreOf b = s.coreOf b)
    (binding : ∀ c, (s'.cores.get c).binding = (s.cores.get c).binding)
    (timeline : ∀ a, s'.timelineOf a = s.timelineOf a) (b : Ref .behaviour) :
    s'.lead? b = s.lead? b := by
  rw [lead?, bindingOf, core, binding, lead?, bindingOf]
  congr 1
  funext binding
  rw [timeline]

theorem Rehandled.lead? {s s' : Stage} (h : s.Rehandled s') (b : Ref .behaviour) :
    s'.lead? b = s.lead? b :=
  lead?_congr h.coreOf h.binding h.timelineOf b

/-- If the records of all bindings agree then alphas of a timeline lead those attached to it. -/
theorem Tied.exists_lead {s : Stage} (h : s.Tied) {t : Ref .timeline} {e : Attachment}
    (mem : e ∈ s.attachments t) (alive : s.isAlive (.behaviour e.behaviour)) :
    ∃ a, s.lead? e.behaviour = some (a, t) := by
  obtain ⟨a, bound, follows⟩ := h.bound mem alive
  exact ⟨a, by rw [lead?, bound, ← follows]; rfl⟩

theorem alphaValue_eq_alphaAt {s : Stage} {a : Ref .alpha} {t : Ref .timeline} {number : Nat}
    (follows : s.timelineOf a = t) (frame : (s.clock t).frame = number) (curves : Curves) :
    s.alphaValue curves a = s.alphaAt curves t number a := by
  subst follows frame
  rfl

/-- Nobody binds anew what is attached to a timeline, gives it up or moves the timeline: the frame
is what it was, entries are at most added, with new numbers, those that were there are led as they
were, and no more handles on them are given up than taken. -/
structure Loyal (t : Ref .timeline) (s s' : Stage) : Prop where
  frame : (s'.clock t).frame = (s.clock t).frame
  nextId : (s.timelines.get t).nextId ≤ (s'.timelines.get t).nextId
  attachments : ∃ new, s'.attachments t = s.attachments t ++ new ∧
    ∀ e ∈ new, (s.timelines.get t).nextId ≤ e.id
  lead : ∀ e ∈ s.attachments t, s.isAlive (.behaviour e.behaviour) = true →
    s'.lead? e.behaviour = s.lead? e.behaviour
  holders : ∀ e ∈ s.attachments t,
    s.holders (.behaviour e.behaviour) ≤ s'.holders (.behaviour e.behaviour)
  gone : ∀ e ∈ s.attachments t, s.isAlive (.behaviour e.behaviour) = false →
    s'.isAlive (.behaviour e.behaviour) = false

namespace Loyal

variable {t : Ref .timeline} {s s' s'' : Stage}

theorem refl (t : Ref .timeline) (s : Stage) : s.Loyal t s where
  frame := rfl
  nextId := Nat.le_refl _
  attachments := ⟨[], (List.append_nil _).symm, fun _ mem => nomatch mem⟩
  lead _ _ _ := rfl
  holders _ _ := Nat.le_refl _
  gone _ _ := id

/-- An entry that was there still is. -/
theorem mem (h : s.Loyal t s') {e : Attachment} (mem : e ∈ s.attachments t) :
    e ∈ s'.attachments t := by
  obtain ⟨new, grown, -⟩ := h.attachments
  exact grown ▸ List.mem_append_left new mem

/-- What had an entry and was there is still there, and what was not is not. -/
theorem isAlive (h : s.Loyal t s') {e : Attachment} (mem : e ∈ s.attachments t) :
    s'.isAlive (.behaviour e.behaviour) = s.isAlive (.behaviour e.behaviour) := by
  cases before : s.isAlive (.behaviour e.behaviour) with
  | false => exact h.gone e mem before
  | true => exact decide_eq_true (Nat.lt_of_lt_of_le (of_decide_eq_true before) (h.holders e mem))

theorem attached (h : s.Loyal t s') {b : Ref .behaviour} (attached : s.Attached t b) :
    s'.Attached t b := by
  obtain ⟨alive, e, own, rfl⟩ := attached
  exact ⟨(h.isAlive own).trans alive, e, h.mem own, rfl⟩

theorem trans (h : s.Loyal t s') (h' : s'.Loyal t s'') : s.Loyal t s'' where
  frame := h'.frame.trans h.frame
  nextId := Nat.le_trans h.nextId h'.nextId
  attachments := by
    obtain ⟨new, grown, ids⟩ := h.attachments
    obtain ⟨new', grown', ids'⟩ := h'.attachments
    refine ⟨new ++ new', by rw [grown', grown, List.append_assoc], fun e mem => ?_⟩
    rcases List.mem_append.1 mem with mem | mem
    · exact ids e mem
    · exact Nat.le_trans h.nextId (ids' e mem)
  lead e mem alive :=
    (h'.lead e (h.mem mem) ((h.isAlive mem).trans alive)).trans (h.lead e mem alive)
  holders e mem := Nat.le_trans (h.holders e mem) (h'.holders e (h.mem mem))
  gone e mem dead := h'.gone e (h.mem mem) (h.gone e mem dead)

/-- Changes that leave timelines and behaviours alone up to the handles on others. -/
theorem of_eq (timeline : ∃ n, s'.timelines.get t = { s.timelines.get t with holders := n })
    (lead : ∀ b, s'.lead? b = s.lead? b) (behaviours : s'.behaviours = s.behaviours) :
    s.Loyal t s' := by
  obtain ⟨n, row⟩ := timeline
  have holders : ∀ b, s'.holders (.behaviour b) = s.holders (.behaviour b) := fun b =>
    congrArg (fun rows => (rows.get b).holders) behaviours
  refine ⟨by rw [Stage.clock, row, Stage.clock], by rw [row], ⟨[], ?_, fun _ mem => nomatch mem⟩,
    fun e _ _ => lead e.behaviour, fun e _ => Nat.le_of_eq (holders _).symm, fun e _ dead => ?_⟩
  · rw [Stage.attachments, row, List.append_nil, Stage.attachments]
  · rw [Stage.isAlive, holders]
    exact dead

theorem incidental (h : s.Incidental s') : s.Loyal t s' := by
  have core : ∀ b, s'.coreOf b = s.coreOf b := fun b => by rw [coreOf, h.behaviours, coreOf]
  have timeline : ∀ a, s'.timelineOf a = s.timelineOf a := fun a => by
    obtain ⟨n, row⟩ := h.alpha a
    rw [timelineOf, row, timelineOf]
  exact of_eq (h.timeline t) (lead?_congr core h.binding timeline) h.behaviours

theorem note (s : Stage) (what : Occurrence) : s.Loyal t (s.note what) :=
  of_eq ⟨_, rfl⟩ (fun _ => rfl) rfl

/-- It does not matter whether an emitter is held. -/
theorem held {m : Ref .emitter} (h : (Script.hold true m s).Loyal t s') :
    s.Loyal t (Script.hold false m s') where
  frame := h.frame
  nextId := h.nextId
  attachments := h.attachments
  lead := h.lead
  holders := h.holders
  gone := h.gone

/-- A handle on a behaviour that is there is taken meanwhile. -/
theorem escorted {b : Ref .behaviour} (alive : s.isAlive (.behaviour b))
    (h : (s.retainAll [.behaviour b]).Loyal t s') :
    s.Loyal t (s'.releaseAll [.behaviour b]) := by
  have before := s.rehandled_retainAll [.behaviour b]
  have after := s'.rehandled_releaseAll [.behaviour b]
  have own : ∀ e ∈ s.attachments t, e ∈ (s.retainAll [.behaviour b]).attachments t :=
    fun e mem => before.attachments t ▸ mem
  obtain ⟨n, row⟩ := before.timeline t
  obtain ⟨n', row'⟩ := after.timeline t
  refine ⟨?_, ?_, ?_, fun e mem there => ?_,
    fun e mem => holders_escorted (h.holders e (own e mem)),
    fun e mem => gone_escorted alive (h.gone e (own e mem))⟩
  · rw [after.clock, h.frame, before.clock]
  · have le := h.nextId
    rw [row] at le
    rw [row']
    exact le
  · obtain ⟨new, grown, ids⟩ := h.attachments
    rw [row] at ids
    exact ⟨new, by rw [after.attachments, grown, before.attachments], ids⟩
  · rw [after.lead?, h.lead e (own e mem) (isAlive_retainAll there), before.lead?]

variable {entries : List Attachment}

theorem filter_isAlive (h : s.Loyal t s') (own : ∀ e ∈ entries, e ∈ s.attachments t) :
    entries.filter (fun e => s'.isAlive (.behaviour e.behaviour)) =
      entries.filter fun e => s.isAlive (.behaviour e.behaviour) :=
  List.filter_congr fun e mem => h.isAlive (own e mem)

theorem ensemble (h : s.Loyal t s') (own : ∀ e ∈ entries, e ∈ s.attachments t) :
    s'.ensemble entries = s.ensemble entries := by
  rw [Stage.ensemble, h.filter_isAlive own, Stage.ensemble]
  refine List.filterMap_congr fun e mem => ?_
  obtain ⟨mem, alive⟩ := List.mem_filter.1 mem
  rw [h.lead e (own e mem) alive]

theorem goneOf (h : s.Loyal t s') (own : ∀ e ∈ entries, e ∈ s.attachments t) :
    s'.goneOf entries = s.goneOf entries :=
  congrArg (List.map fun e : Attachment => e.id)
    (List.filter_congr fun e mem => congrArg Bool.not (h.isAlive (own e mem)))

/-- Of the entries that there are later, those with the numbers of what was gone are entries of
what was gone. -/
theorem gone_of_struck (h : s.Loyal t s') (tied : s.Tied) {e : Attachment}
    (mem : e ∈ s'.attachments t) (struck : e.id ∈ s.goneOf (s.attachments t)) :
    e ∈ s.attachments t ∧ s.isAlive (.behaviour e.behaviour) = false := by
  obtain ⟨new, grown, ids⟩ := h.attachments
  rw [grown] at mem
  rcases List.mem_append.1 mem with mem | mem
  · exact ⟨mem, (id_mem_goneOf_iff (tied.ids_nodup t) mem).1 struck⟩
  · obtain ⟨e', mem', same⟩ := List.mem_map.1 struck
    have lt := tied.id_lt (List.mem_filter.1 mem').1
    have le := ids e mem
    omega

/-- When what was gone is struck off, the others have kept their entries. -/
theorem attachments_detach (h : s.Loyal t s') (tied : s.Tied) :
    ∃ new, (s'.detach t (s.goneOf (s.attachments t))).attachments t =
        (s.attachments t).filter (fun e => s.isAlive (.behaviour e.behaviour)) ++ new ∧
      ∀ e ∈ new, (s.timelines.get t).nextId ≤ e.id := by
  obtain ⟨new, grown, ids⟩ := h.attachments
  refine ⟨new, ?_, ids⟩
  have kept : new.filter (fun e => !(s.goneOf (s.attachments t)).contains e.id) = new := by
    refine List.filter_eq_self.2 fun e mem => ?_
    have own : e ∉ s.attachments t := fun old => by
      have lt := tied.id_lt old
      have le := ids e mem
      omega
    have mem : e ∈ s'.attachments t := grown ▸ List.mem_append_right _ mem
    simpa using fun struck => own (h.gone_of_struck tied mem struck).1
  rw [Stage.attachments_detach, if_pos rfl, grown, List.filter_append, kept]
  congr 1
  refine List.filter_congr fun e mem => ?_
  have struck := id_mem_goneOf_iff (s := s) (tied.ids_nodup t) mem
  cases alive : s.isAlive (.behaviour e.behaviour) with
  | false => simpa using struck.2 alive
  | true => simpa [alive] using struck

end Loyal

section Ensemble

variable {s : Stage} {e : Attachment}

theorem exists_of_mem_ensemble {entries : List Attachment} {f : Ref .behaviour × Ref .alpha}
    (mem : f ∈ s.ensemble entries) : ∃ e ∈ entries, e.behaviour = f.1 ∧
      s.isAlive (.behaviour f.1) = true ∧ ∃ t, s.lead? f.1 = some (f.2, t) := by
  obtain ⟨e, there, found⟩ := List.mem_filterMap.1 mem
  obtain ⟨own, alive⟩ := List.mem_filter.1 there
  obtain ⟨lead, led, rfl⟩ := Option.map_eq_some_iff.1 found
  exact ⟨e, own, rfl, alive, lead.2, led⟩

theorem ensemble_cons_of_gone (gone : s.isAlive (.behaviour e.behaviour) = false)
    (rest : List Attachment) :
    s.ensemble (e :: rest) = s.ensemble rest ∧ s.goneOf (e :: rest) = e.id :: s.goneOf rest := by
  simp [ensemble, goneOf, gone]

theorem ensemble_cons_of_led (alive : s.isAlive (.behaviour e.behaviour) = true) {a : Ref .alpha}
    {t : Ref .timeline} (led : s.lead? e.behaviour = some (a, t)) (rest : List Attachment) :
    s.ensemble (e :: rest) = (e.behaviour, a) :: s.ensemble rest ∧
      s.goneOf (e :: rest) = s.goneOf rest := by
  simp [ensemble, goneOf, alive, led]

end Ensemble

/-- Entries of some numbers have been struck off, if there were any numbers. -/
def struck (s : Stage) (t : Ref .timeline) : List Nat → Stage
  | [] => s
  | gone => (s.note (.pruned t gone.length)).detach t gone

section Struck

variable (s : Stage) (t : Ref .timeline)

theorem attachments_struck (gone : List Nat) :
    (s.struck t gone).attachments t = (s.detach t gone).attachments t := by
  cases gone with
  | nil => simp [struck, attachments_detach]
  | cons id rest => rfl

theorem nextId_struck (gone : List Nat) :
    ((s.struck t gone).timelines.get t).nextId = (s.timelines.get t).nextId := by
  cases gone with
  | nil => rfl
  | cons id rest => exact (s.note _).nextId_detach t (id :: rest) t

theorem moves_struck {gone : List Nat}
    (h : ∀ e ∈ s.attachments t, e.id ∈ gone → ¬ s.isAlive (.behaviour e.behaviour)) :
    s.Moves (s.struck t gone) := by
  cases gone with
  | nil => exact .refl
  | cons id rest => exact .tail (.single (.note _)) (.prune h)

end Struck

/-- Nothing is struck off but entries of what is gone. -/
theorem Loyal.moves_struck {t : Ref .timeline} {s s' : Stage} (h : s.Loyal t s') (tied : s.Tied) :
    s'.Moves (s'.struck t (s.goneOf (s.attachments t))) := by
  refine Stage.moves_struck s' t fun e mem struck => ?_
  obtain ⟨own, dead⟩ := h.gone_of_struck tied mem struck
  simpa using h.gone e own dead

end Stage

/-- The rule not to bind anew what is attached to a timeline, not to give it up and not to move
the timeline, on all stages that moves lead to from a given one. -/
def Conduct.loyal {υ : Type} (calm : υ → Prop) (origin : Stage) (t : Ref .timeline) :
    Conduct υ where
  keeps w := calm w.user ∧ origin.Moves w.stage
  leaves := Stage.Loyal t
  refl := .refl t
  trans := .trans
  housekeeping keeps h := ⟨⟨keeps.1, keeps.2.trans h.moves⟩, .incidental h.toIncidental⟩
  hold _ m keeps := ⟨keeps.1, keeps.2.tail (.modifyEmitter m _)⟩
  held _ h := h.held

namespace Conduct

open Script

variable {υ : Type} {calm : υ → Prop} {origin : Stage} {t : Ref .timeline} {host : Host υ}
  {w : World υ}

/-- Moves by which the timeline and its followers are left alone are allowed. -/
theorem follows_loyal {s : Stage} (keeps : (loyal calm origin t).keeps w)
    (moves : w.stage.Moves s) (leaves : w.stage.Loyal t s) :
    (loyal calm origin t).Follows w { w with stage := s } :=
  ⟨⟨keeps.1, keeps.2.trans moves⟩, leaves⟩

theorem follows_note (what : Occurrence) (keeps : (loyal calm origin t).keeps w) :
    (loyal calm origin t).Follows w { w with stage := w.stage.note what } :=
  follows_loyal keeps (.single (.note what)) (.note _ _)

theorem mayAsk_loyal (a : Ref .actor) : (loyal calm origin t).MayAsk a :=
  fun w call keeps => follows_loyal keeps (.single (.ask a call))
    (.incidental (.modifyActor w.stage a (·.receive call)))

/-- A behaviour that is there is kept there by a handle while a script runs. -/
theorem observes_escorting {b : Ref .behaviour} (alive : w.stage.isAlive (.behaviour b) = true)
    {x : Script υ Unit} (hx : (loyal calm origin t).Observes x
      { w with stage := w.stage.retainAll [.behaviour b] }) :
    (loyal calm origin t).Observes (holding [.behaviour b] x) w := by
  intro keeps
  have moves : w.stage.Moves (w.stage.retainAll [.behaviour b]) :=
    Stage.moves_retainAll fun b' mem => by cases List.mem_singleton.1 mem; exact alive
  have first := hx ⟨keeps.1, keeps.2.trans moves⟩
  exact ⟨⟨first.keeps.1, first.keeps.2.trans (Stage.moves_releaseAll _ _)⟩,
    .escorted alive first.leaves⟩

end Conduct

end Animation
