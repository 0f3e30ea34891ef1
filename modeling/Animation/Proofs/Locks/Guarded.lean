/-
# Locks

Whatever is shared on a stage is shared behind locks. A lock is taken for as long as somebody reads
or changes what is behind it, and whoever needs it a second time meanwhile waits for good.

A guarded script is one that takes these locks and gives them back. It keeps, beside the state of
its caller, which locks are taken, and makes an entry whenever somebody is called back: who that is,
what is held then, and what was held already when the operation that calls back was called.
-/

import Animation.Proofs.Script.Running

namespace Animation

/-- The locks of the things on a stage. The settings of a timeline, its frame, its attachments and
the task that plays it are behind locks of their own, and so are the bounds of a behaviour and its
gravity. -/
inductive Lock where
  | listeners (n : Ref .notifier)
  | handlers (m : Ref .emitter)
  | settings (t : Ref .timeline)
  | frame (t : Ref .timeline)
  | attachments (t : Ref .timeline)
  | playback (t : Ref .timeline)
  | easing (a : Ref .alpha)
  | actors (c : Ref .core)
  | binding (c : Ref .core)
  | bounds (b : Ref .behaviour)
  | gravity (b : Ref .behaviour)
  | actor (a : Ref .actor)
  deriving DecidableEq

/-- Who is called back. -/
inductive Callee where
  | listener
  | handler (m : Ref .emitter)
  | behaviour
  | visitor
  | actor (a : Ref .actor)
  | routine

/-- The locks that are held for a callee while it is called: handlers are called under the lock of
their emitter, and an actor is asked under its own. Nothing is held for anybody else. -/
def Callee.lent : Callee → List Lock
  | .handler m => [.handlers m]
  | .actor a => [.actor a]
  | .listener | .behaviour | .visitor | .routine => []

/-- Whether there are callees that the lock is held for. -/
def Lock.isLent : Lock → Bool
  | .handlers _ | .actor _ => true
  | _ => false

theorem Lock.ne_handlers {l : Lock} (kept : l.isLent = false) (m : Ref .emitter) :
    l ≠ .handlers m := by
  rintro rfl
  exact nomatch kept

theorem Callee.isLent_of_mem_lent {callee : Callee} {l : Lock} (mem : l ∈ callee.lent) :
    l.isLent = true := by
  cases callee with
  | handler m | actor a => rw [List.mem_singleton.1 mem]; rfl
  | listener | behaviour | visitor | routine => exact nomatch mem

/-- What is noted when somebody is called back: the locks that are held, and those of them that
are held for the callees in whose calls all this happens. -/
structure Entrance where
  callee : Callee
  held : List Lock
  outer : List Lock

/-- The operation that calls back holds nothing but what it holds for its callee. -/
structure Entrance.IsFair (e : Entrance) : Prop where
  held : e.held = e.callee.lent ++ e.outer
  outer : ∀ l ∈ e.outer, l.isLent = true

/-- What is kept while scripts run under locks, beside the caller's own state: the locks that are
taken, those of them that are held for callees whose calls are not over, all entrances, latest
first, and the lock that somebody waits for. -/
structure Guarded (υ : Type) where
  own : υ
  held : List Lock
  lent : List Lock
  entrances : List Entrance
  wanted : Option Lock

/-- Nothing is held, and nobody has been called back. -/
def Guarded.idle {υ : Type} (own : υ) : Guarded υ := ⟨own, [], [], [], none⟩

/-- A world without what is kept of its locks. -/
def World.bare {υ : Type} (w : World (Guarded υ)) : World υ := ⟨w.stage, w.user.own⟩

theorem World.bare_mk {υ : Type} (s : Stage) (g : Guarded υ) :
    World.bare ⟨s, g⟩ = ⟨s, g.own⟩ := rfl

namespace Guarded

variable {υ : Type} (g : Guarded υ)

def take (l : Lock) : Guarded υ := { g with held := l :: g.held }

def free (l : Lock) : Guarded υ := { g with held := g.held.erase l }

def want (l : Lock) : Guarded υ := { g with wanted := some l }

def enter (callee : Callee) : Guarded υ := { g with
  lent := callee.lent ++ g.lent
  entrances := ⟨callee, g.held, g.lent⟩ :: g.entrances }

def leave (callee : Callee) : Guarded υ := { g with lent := g.lent.drop callee.lent.length }

theorem free_take (l : Lock) : (g.take l).free l = g := by simp [take, free]

end Guarded

namespace Script

variable {υ α β : Type}

/-- Keep something else while a script runs, until it is over or breaks off. One that waits for
good never gets that far. -/
def between (before after : Guarded υ → Guarded υ) (x : Script (Guarded υ) α) :
    Script (Guarded υ) α :=
  ExceptT.mk fun w =>
    match x.run { w with user := before w.user } with
    | (.ok a, w) => (.ok a, { w with user := after w.user })
    | (.error (.violation cause), w) =>
        (.error (.violation cause), { w with user := after w.user })
    | (.error .stuck, w) => (.error .stuck, w)

/-- Take a lock, run a script, and give the lock back. -/
def locking (l : Lock) (x : Script (Guarded υ) α) : Script (Guarded υ) α := do
  if l ∈ (← get).user.held then
    modify fun w => { w with user := w.user.want l }
    throw .stuck
  else between (·.take l) (·.free l) x

/-- Call somebody back. -/
def entering (callee : Callee) (x : Script (Guarded υ) α) : Script (Guarded υ) α :=
  between (·.enter callee) (·.leave callee) x

/-- Change what is behind a lock, and keep a result of the change. -/
def accessing (l : Lock) (f : Stage → Stage × α) : Script (Guarded υ) α := locking l (produce f)

/-- Read what is behind a lock. -/
def reading (l : Lock) (f : Stage → α) : Script (Guarded υ) α := accessing l fun s => (s, f s)

/-- Change what is behind a lock. -/
def writing (l : Lock) (f : Stage → Stage) : Script (Guarded υ) Unit :=
  accessing l fun s => (f s, ())

section Running

variable {w : World (Guarded υ)} {l : Lock}

theorem run_between_of_ok {before after : Guarded υ → Guarded υ} {x : Script (Guarded υ) α} {a : α}
    {w' : World (Guarded υ)} (h : x.run { w with user := before w.user } = (.ok a, w')) :
    (between before after x).run w = (.ok a, { w' with user := after w'.user }) := by
  rw [between, ExceptT.run_mk, h]

theorem run_between_of_violation {before after : Guarded υ → Guarded υ} {x : Script (Guarded υ) α}
    {cause : Violation} {w' : World (Guarded υ)}
    (h : x.run { w with user := before w.user } = (.error (.violation cause), w')) :
    (between before after x).run w =
      (.error (.violation cause), { w' with user := after w'.user }) := by
  rw [between, ExceptT.run_mk, h]

theorem run_between_of_stuck {before after : Guarded υ → Guarded υ} {x : Script (Guarded υ) α}
    {w' : World (Guarded υ)} (h : x.run { w with user := before w.user } = (.error .stuck, w')) :
    (between before after x).run w = (.error .stuck, w') := by
  rw [between, ExceptT.run_mk, h]

theorem run_between_fst (before after : Guarded υ → Guarded υ) (x : Script (Guarded υ) α) :
    ((between before after x).run w).1 = (x.run { w with user := before w.user }).1 := by
  rw [between, ExceptT.run_mk]
  obtain ⟨result, v⟩ := x.run { w with user := before w.user }
  rcases result with (_ | _) | _ <;> rfl

/-- Whoever needs a lock that is taken waits for good. -/
theorem run_locking_of_held (held : l ∈ w.user.held) (x : Script (Guarded υ) α) :
    (locking l x).run w = (.error .stuck, { w with user := w.user.want l }) := by
  show (if l ∈ w.user.held then _ else _ : Script (Guarded υ) α).run w = _
  rw [if_pos held]
  rfl

theorem run_locking_of_free (free : l ∉ w.user.held) (x : Script (Guarded υ) α) :
    (locking l x).run w = (between (·.take l) (·.free l) x).run w := by
  show (if l ∈ w.user.held then _ else _ : Script (Guarded υ) α).run w = _
  rw [if_neg free]

/-- A script that leaves all locks as they are does the same under a lock that was free. The lock
is free again. -/
theorem run_locking (free : l ∉ w.user.held) {x : Script (Guarded υ) α} {result : Except Fault α}
    (goes : result ≠ .error .stuck) {s : Stage}
    (h : x.run { w with user := w.user.take l } = (result, ⟨s, w.user.take l⟩)) :
    (locking l x).run w = (result, { w with stage := s }) := by
  rw [run_locking_of_free free]
  cases result with
  | ok a => rw [run_between_of_ok h, Guarded.free_take]
  | error fault =>
      cases fault with
      | violation cause => rw [run_between_of_violation h, Guarded.free_take]
      | stuck => exact absurd rfl goes

theorem run_accessing (free : l ∉ w.user.held) (f : Stage → Stage × α) :
    (accessing l f).run w = (.ok (f w.stage).2, { w with stage := (f w.stage).1 }) := by
  rw [accessing]
  refine run_locking free ?_ rfl
  nofun

theorem run_accessing_bind (free : l ∉ w.user.held) (f : Stage → Stage × α)
    (k : α → Script (Guarded υ) β) :
    (accessing l f >>= k).run w = (k (f w.stage).2).run { w with stage := (f w.stage).1 } :=
  run_bind_of_ok (run_accessing free f) k

theorem run_reading_bind (free : l ∉ w.user.held) (f : Stage → α)
    (k : α → Script (Guarded υ) β) : (reading l f >>= k).run w = (k (f w.stage)).run w :=
  run_accessing_bind free _ k

theorem run_writing (free : l ∉ w.user.held) (f : Stage → Stage) :
    (writing l f).run w = (.ok (), { w with stage := f w.stage }) := run_accessing free _

theorem run_writing_bind (free : l ∉ w.user.held) (f : Stage → Stage)
    (k : Unit → Script (Guarded υ) β) :
    (writing l f >>= k).run w = (k ()).run { w with stage := f w.stage } :=
  run_accessing_bind free _ k

end Running

end Script

end Animation
