/-
# Who is registered

Listeners register with a notifier and handlers with an emitter, and both are known by numbers. A
history says who has joined and who has been told to leave. It determines who is registered, in the
order of joining: those whose number was not told to leave later. The number of somebody new is how
many have joined before, so that no number is given out twice, whoever has left.

Whatever is done on a stage, each notifier and each emitter on it has such a history.
-/

import Animation.Proofs.Script.Regime

namespace Animation

/-- What is entered in the history of a registry: somebody joins, or whoever has a number is told to
leave. -/
inductive Enrolment (β : Type) where
  | joins (b : β)
  | leaves (number : Nat)

namespace Enrolment

variable {β : Type}

/-- How many have joined. -/
def joined : List (Enrolment β) → Nat
  | [] => 0
  | joins _ :: rest => joined rest + 1
  | leaves _ :: rest => joined rest

/-- Whether a number is told to leave. -/
def dismisses (number : Nat) : List (Enrolment β) → Bool
  | [] => false
  | joins _ :: rest => dismisses number rest
  | leaves k :: rest => k == number || dismisses number rest

/-- Those who join, in order and with their numbers, the first of which is given, less those who are
told to leave later. -/
def standing (next : Nat) : List (Enrolment β) → List (Nat × β)
  | [] => []
  | joins b :: rest =>
      if dismisses next rest then standing (next + 1) rest
      else (next, b) :: standing (next + 1) rest
  | leaves _ :: rest => standing next rest

theorem le_of_mem_standing {next : Nat} {history : List (Enrolment β)} {e : Nat × β}
    (mem : e ∈ standing next history) : next ≤ e.1 ∧ e.1 < next + joined history := by
  induction history generalizing next with
  | nil => exact nomatch mem
  | cons entry rest ih =>
      cases entry with
      | joins b =>
          have later : e ∈ standing (next + 1) rest →
              next ≤ e.1 ∧ e.1 < next + joined (joins b :: rest) := by
            intro mem
            have := ih mem
            rw [joined]
            omega
          rw [standing] at mem
          split at mem
          · exact later mem
          · rcases List.mem_cons.1 mem with rfl | mem
            · exact ⟨Nat.le_refl _, by rw [joined]; omega⟩
            · exact later mem
      | leaves k => exact ih mem

/-- Numbers are given out in ascending order. -/
theorem pairwise_standing (next : Nat) (history : List (Enrolment β)) :
    (standing next history).Pairwise (·.1 < ·.1) := by
  induction history generalizing next with
  | nil => exact .nil
  | cons entry rest ih =>
      cases entry with
      | joins b =>
          rw [standing]
          split
          · exact ih _
          · exact .cons (fun e mem => (le_of_mem_standing mem).1) (ih _)
      | leaves k => exact ih _

end Enrolment

/-- If numbers ascend in a list then to take away what has the number of a member is to take away
that member. -/
theorem filter_number_ne {α : Type} {number : α → Nat} {list before after : List α} {a : α}
    (ascending : list.Pairwise (number · < number ·)) (split : list = before ++ a :: after) :
    list.filter (number · != number a) = before ++ after := by
  subst split
  obtain ⟨-, rest, across⟩ := List.pairwise_append.1 ascending
  have left : before.filter (number · != number a) = before :=
    List.filter_eq_self.2 fun b mem =>
      bne_iff_ne.2 (Nat.ne_of_lt (across b mem a (List.mem_cons_self ..)))
  have right : after.filter (number · != number a) = after :=
    List.filter_eq_self.2 fun b mem =>
      bne_iff_ne.2 (Nat.ne_of_gt ((List.pairwise_cons.1 rest).1 b mem))
  rw [List.filter_append, List.filter_cons_of_neg (by simp), left, right]

/-- Something that others register with: its members, each with a number, the number that is given
out next, and what becomes of them. -/
structure Registry (ρ β α : Type) where
  empty : ρ
  members : ρ → List α
  next : ρ → Nat
  enter : ρ → Enrolment β → ρ
  member : Nat × β → α
  number : α → Nat
  number_member : ∀ e, number (member e) = e.1
  empty_members : members empty = []
  empty_next : next empty = 0
  joins_members : ∀ r b, members (enter r (.joins b)) = members r ++ [member (next r, b)]
  joins_next : ∀ r b, next (enter r (.joins b)) = next r + 1
  leaves_members : ∀ r k, members (enter r (.leaves k)) = (members r).filter (number · != k)
  leaves_next : ∀ r k, next (enter r (.leaves k)) = next r

namespace Registry

open Enrolment

variable {ρ β α : Type} (R : Registry ρ β α)

/-- What a history makes of an empty registry. -/
def after (history : List (Enrolment β)) : ρ := history.foldl R.enter R.empty

theorem after_append (past later : List (Enrolment β)) :
    R.after (past ++ later) = later.foldl R.enter (R.after past) := List.foldl_append

/-- Of those who were members the ones stay that are not told to leave, and those come behind them
who join and stand. -/
theorem members_foldl (history : List (Enrolment β)) (r : ρ) :
    R.members (history.foldl R.enter r) =
      (R.members r).filter (fun a => !dismisses (R.number a) history) ++
        (standing (R.next r) history).map R.member := by
  induction history generalizing r with
  | nil => simp [dismisses, standing]
  | cons e rest ih =>
      rw [List.foldl_cons, ih]
      cases e with
      | joins b =>
          cases gone : dismisses (R.next r) rest <;>
            simp [R.joins_members, R.joins_next, R.number_member, dismisses, standing, gone]
      | leaves k =>
          have both : ∀ a, (!dismisses (R.number a) rest && R.number a != k) =
              !dismisses (R.number a) (leaves k :: rest) := by
            intro a
            rw [dismisses, Bool.not_or, Bool.and_comm, bne, Bool.beq_comm (a := R.number a)]
          simp [R.leaves_members, R.leaves_next, standing, List.filter_filter, both]

theorem next_foldl (history : List (Enrolment β)) (r : ρ) :
    R.next (history.foldl R.enter r) = R.next r + joined history := by
  induction history generalizing r with
  | nil => rfl
  | cons e rest ih =>
      rw [List.foldl_cons, ih]
      cases e with
      | joins b => rw [R.joins_next, joined, Nat.add_assoc, Nat.add_comm 1]
      | leaves k => rw [R.leaves_next, joined]

theorem members_after (history : List (Enrolment β)) :
    R.members (R.after history) = (standing 0 history).map R.member := by
  rw [after, members_foldl, R.empty_members, R.empty_next]
  rfl

theorem next_after (history : List (Enrolment β)) : R.next (R.after history) = joined history := by
  rw [after, next_foldl, R.empty_next, Nat.zero_add]

/-- How a registry deals with the numbers of its members. -/
structure Disciplined (r : ρ) (history : List (Enrolment β)) : Prop where
  members : R.members r = (standing 0 history).map R.member
  next : R.next r = joined history
  ascending : (R.members r).Pairwise (R.number · < R.number ·)
  /-- The next number is nobody's yet. -/
  fresh : ∀ a ∈ R.members r, R.number a < R.next r
  /-- A number that is given out is never given out again: whatever comes later, it belongs to who
  has joined with it, or to nobody. -/
  lasting : ∀ b later,
    (R.members (later.foldl R.enter (R.enter r (.joins b)))).filter (R.number · == R.next r) =
      if dismisses (R.next r) later then [] else [R.member (R.next r, b)]
  /-- Only who is told to leave does, and the order of the others stays. -/
  leaves : ∀ before a after, R.members r = before ++ a :: after →
    R.members (R.enter r (.leaves (R.number a))) = before ++ after
  /-- A number that nobody has means nobody. -/
  unknown : ∀ k, (∀ a ∈ R.members r, R.number a ≠ k) →
    R.members (R.enter r (.leaves k)) = R.members r

theorem disciplined_after (history : List (Enrolment β)) :
    R.Disciplined (R.after history) history := by
  have members := R.members_after history
  have next := R.next_after history
  have ascending : (R.members (R.after history)).Pairwise (R.number · < R.number ·) := by
    rw [members, List.pairwise_map]
    simp only [R.number_member]
    exact pairwise_standing 0 history
  have fresh : ∀ a ∈ R.members (R.after history), R.number a < R.next (R.after history) := by
    intro a mem
    rw [members] at mem
    obtain ⟨e, stands, rfl⟩ := List.mem_map.1 mem
    rw [R.number_member, next, ← Nat.zero_add (joined history)]
    exact (le_of_mem_standing stands).2
  refine ⟨members, next, ascending, fresh, fun b later => ?_, fun before a rest split => ?_,
    fun k none => ?_⟩
  · generalize R.after history = r at fresh
    have old : (R.members r).filter (fun a => R.number a == R.next r &&
        !dismisses (R.number a) later) = [] := by
      refine List.filter_eq_nil_iff.2 fun a mem => ?_
      have := fresh a mem
      simp only [Bool.and_eq_true, beq_iff_eq, not_and]
      omega
    have young : ((standing (R.next r + 1) later).map R.member).filter
        (R.number · == R.next r) = [] := by
      refine List.filter_eq_nil_iff.2 fun a mem => ?_
      obtain ⟨e, stands, rfl⟩ := List.mem_map.1 mem
      have := (le_of_mem_standing stands).1
      rw [R.number_member, beq_iff_eq]
      omega
    rw [members_foldl, R.joins_members, R.joins_next, List.filter_append, young, List.append_nil,
      List.filter_filter, List.filter_append, old, List.nil_append]
    cases gone : dismisses (R.next r) later <;> simp [R.number_member, gone]
  · rw [R.leaves_members]
    exact filter_number_ne ascending split
  · rw [R.leaves_members]
    exact List.filter_eq_self.2 fun a mem => bne_iff_ne.2 (none a mem)

end Registry

/-- Listeners are registered with the property that they hear, or with none to hear everything, and
a callback. -/
def Notifier.registry : Registry Notifier (Option String × Callback) Listener where
  empty := .empty
  members n := n.listeners
  next n := n.nextId
  enter
    | n, .joins (property, callback) => n.register property callback
    | n, .leaves id => n.unregister id
  member e := ⟨e.1, e.2.1, e.2.2⟩
  number l := l.id
  number_member _ := rfl
  empty_members := rfl
  empty_next := rfl
  joins_members _ _ := rfl
  joins_next _ _ := rfl
  leaves_members _ _ := rfl
  leaves_next _ _ := rfl

/-- Handlers are registered with the name of an event, the kind of payload that they accept, and a
callback. -/
def Emitter.registry : Registry Emitter (String × PayloadKind × Callback) Handler where
  empty := .empty
  members m := m.handlers
  next m := m.nextId
  enter
    | m, .joins (event, accepts, callback) => m.register event accepts callback
    | m, .leaves id => m.unregister id
  member e := ⟨e.1, e.2.1, e.2.2.1, e.2.2.2⟩
  number h := h.id
  number_member _ := rfl
  empty_members := rfl
  empty_next := rfl
  joins_members _ _ := rfl
  joins_next _ _ := rfl
  leaves_members _ _ := rfl
  leaves_next _ _ := rfl

namespace Stage

/-- Everybody on a stage that others register with has a history. -/
structure Enrolled (s : Stage) : Prop where
  notifier : ∀ n, ∃ history, s.notifiers.get n = Notifier.registry.after history
  emitter : ∀ m, ∃ history, s.emitters.get m =
    { Emitter.registry.after history with isHeld := (s.emitters.get m).isHeld }

theorem enrolled_empty (hasChannel : Bool) : (empty hasChannel).Enrolled :=
  ⟨fun _ => ⟨[], rfl⟩, fun _ => ⟨[], rfl⟩⟩

namespace Enrolled

variable {s s' : Stage}

theorem of_eq (h : s.Enrolled) (notifiers : s'.notifiers = s.notifiers)
    (emitters : s'.emitters = s.emitters) : s'.Enrolled := by
  refine ⟨fun n => ?_, fun m => ?_⟩
  · rw [notifiers]
    exact h.notifier n
  · rw [emitters]
    exact h.emitter m

/-- Somebody registers with a notifier, or unregisters. -/
theorem enterNotifier (h : s.Enrolled) (n : Ref .notifier)
    (e : Enrolment (Option String × Callback)) :
    (s.modifyNotifier n (Notifier.registry.enter · e)).Enrolled := by
  refine ⟨fun n' => ?_, h.emitter⟩
  show ∃ history, (s.notifiers.modify n (Notifier.registry.enter · e)).get n' = _
  rw [Table.get_modify]
  split
  · obtain ⟨history, row⟩ := h.notifier n
    exact ⟨history ++ [e], by rw [row, Registry.after_append]; rfl⟩
  · exact h.notifier n'

theorem addNotifier (h : s.Enrolled) : s.addNotifier.1.Enrolled := by
  refine ⟨fun n => ?_, h.emitter⟩
  show ∃ history, (s.notifiers.push .empty).get n = _
  rw [Table.get_push]
  split
  · exact ⟨[], rfl⟩
  · exact h.notifier n

/-- What becomes of the handlers of an emitter is entered in its history, and it may be held. -/
theorem modifyEmitter (h : s.Enrolled) (m : Ref .emitter) {f : Emitter → Emitter}
    (enters : ∀ history isHeld, ∃ history',
      f { Emitter.registry.after history with isHeld } = { Emitter.registry.after history' with
        isHeld := (f { Emitter.registry.after history with isHeld }).isHeld }) :
    (s.modifyEmitter m f).Enrolled := by
  refine ⟨h.notifier, fun m' => ?_⟩
  show ∃ history, (s.emitters.modify m f).get m' = { Emitter.registry.after history with
    isHeld := ((s.emitters.modify m f).get m').isHeld }
  rw [Table.get_modify]
  split
  · obtain ⟨history, row⟩ := h.emitter m
    rw [row]
    exact enters history _
  · exact h.emitter m'

theorem enterEmitter (h : s.Enrolled) (m : Ref .emitter)
    (e : Enrolment (String × PayloadKind × Callback)) :
    (s.modifyEmitter m (Emitter.registry.enter · e)).Enrolled := by
  refine h.modifyEmitter m fun history isHeld => ⟨history ++ [e], ?_⟩
  rw [Registry.after_append]
  cases e <;> rfl

theorem hold (h : s.Enrolled) (isHeld : Bool) (m : Ref .emitter) :
    (Script.hold isHeld m s).Enrolled :=
  h.modifyEmitter m fun history _ => ⟨history, rfl⟩

theorem addEmitter (h : s.Enrolled) : s.addEmitter.1.Enrolled := by
  refine ⟨h.notifier, fun m => ?_⟩
  show ∃ history, (s.emitters.push .empty).get m = { Emitter.registry.after history with
    isHeld := ((s.emitters.push .empty).get m).isHeld }
  rw [Table.get_push]
  split
  · exact ⟨[], rfl⟩
  · exact h.emitter m

theorem motion (h : s.Enrolled) (motion : s.Motion s') : s'.Enrolled := by
  cases motion with
  | aside aside => exact h.of_eq aside.notifiers aside.emitters
  | addNotifier => exact h.addNotifier
  | register n property callback => exact h.enterNotifier n (.joins (property, callback))
  | unregister n id => exact h.enterNotifier n (.leaves id)
  | addEmitter => exact h.addEmitter
  | registerHandler m event accepts callback =>
      exact h.enterEmitter m (.joins (event, accepts, callback))
  | unregisterHandler m id => exact h.enterEmitter m (.leaves id)

end Enrolled

end Stage

namespace Regime

variable {υ : Type}

/-- What has a history keeps having one, and so do the stages that were put down on pages. -/
def enrolling (pages : υ → List Stage) : Regime υ where
  leads w w' := (∀ s ∈ w.stage :: pages w.user, s.Enrolled) →
    ∀ s ∈ w'.stage :: pages w'.user, s.Enrolled
  refl _ := id
  trans h h' := h' ∘ h
  motion motion h := List.forall_mem_cons.2
    ⟨(List.forall_mem_cons.1 h).1.motion motion, (List.forall_mem_cons.1 h).2⟩

theorem lax_enrolling (pages : υ → List Stage) (m : Ref .emitter) : (enrolling pages).Lax m where
  hold w isHeld h := by
    obtain ⟨now, before⟩ := List.forall_mem_cons.1 h
    exact List.forall_mem_cons.2 ⟨now.hold isHeld m, before⟩
  mismatched w event h := by
    obtain ⟨now, before⟩ := List.forall_mem_cons.1 h
    exact List.forall_mem_cons.2 ⟨now.of_eq rfl rfl, before⟩
  unrun w event cause h := by
    obtain ⟨now, before⟩ := List.forall_mem_cons.1 h
    exact List.forall_mem_cons.2 ⟨now.of_eq rfl rfl, before⟩

theorem asked_enrolling (pages : υ → List Stage) (w : World υ) (a : Ref .actor)
    (call : ActorCall) :
    (enrolling pages).leads w { w with stage := w.stage.modifyActor a (·.receive call) } := by
  intro h
  obtain ⟨now, before⟩ := List.forall_mem_cons.1 h
  exact List.forall_mem_cons.2 ⟨now.of_eq rfl rfl, before⟩

end Regime

theorem Stage.Reachable.enrolled {s : Stage} (h : s.Reachable) : s.Enrolled := by
  obtain ⟨υ, pages, w, arises, mem⟩ := h
  have all : ∀ s ∈ w.stage :: pages w.user, s.Enrolled := by
    refine arises.carries (R := .enrolling pages)
      (fun h => h.governs (Regime.lax_enrolling pages) (Regime.asked_enrolling pages)) ?_
      (fun lead h => lead h) ?_
    · intro w u written h
      obtain ⟨now, before⟩ := List.forall_mem_cons.1 h
      refine List.forall_mem_cons.2 ⟨now, fun s mem => ?_⟩
      exact (written s mem).elim (fun same => same ▸ now) (before s)
    · intro hasChannel u none
      rw [none]
      exact List.forall_mem_cons.2 ⟨enrolled_empty hasChannel, fun _ mem => nomatch mem⟩
  exact all s mem

end Animation
