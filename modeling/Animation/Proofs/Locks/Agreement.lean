/-
# With locks and without

Under its locks a script either waits for good, for a lock that is held for somebody who is being
called back, or it does what it would do without them. All that it calls back, it calls while it
holds nothing else, and when it is over it holds what it held before.

Scripts that are put together from such scripts are such scripts.
-/

import Animation.Proofs.Locks.Guarded
import Animation.Proofs.Stage.Reachable

namespace Animation

/-- The same emitters are held on two stages. -/
def Stage.HoldsAlike (s s' : Stage) : Prop :=
  ∀ m, (s'.emitters.get m).isHeld = (s.emitters.get m).isHeld

namespace Stage

theorem holdsAlike_of_emitters_eq {s s' : Stage} (same : s'.emitters = s.emitters) :
    s.HoldsAlike s' := fun _ => by rw [same]

theorem Rehandled.holdsAlike {s s' : Stage} (h : s.Rehandled s') : s.HoldsAlike s' :=
  holdsAlike_of_emitters_eq h.emitters

theorem HoldsAlike.trans {s₁ s₂ s₃ : Stage} (h : s₁.HoldsAlike s₂) (h' : s₂.HoldsAlike s₃) :
    s₁.HoldsAlike s₃ := fun m => (h' m).trans (h m)

variable (s : Stage)

/-- A new emitter is not held, like one that is not there yet. -/
theorem holdsAlike_addEmitter : s.HoldsAlike s.addEmitter.1 := by
  intro m
  show ((s.emitters.push .empty).get m).isHeld = _
  rw [Table.get_push]
  split
  · next new => rw [new, Table.get_next]; rfl
  · rfl

theorem holdsAlike_modifyEmitter (m : Ref .emitter) {f : Emitter → Emitter}
    (same : ∀ row, (f row).isHeld = row.isHeld) : s.HoldsAlike (s.modifyEmitter m f) :=
  fun m' => Table.proj_get_modify _ m m' same

theorem holdsAlike_retainAll (handles : List Handle) : s.HoldsAlike (s.retainAll handles) :=
  (s.rehandled_retainAll handles).holdsAlike

theorem holdsAlike_releaseAll (handles : List Handle) : s.HoldsAlike (s.releaseAll handles) :=
  (s.rehandled_releaseAll handles).holdsAlike

theorem holdsAlike_setClock (t : Ref .timeline) (clock : Clock) :
    s.HoldsAlike (s.setClock t clock) := fun _ => rfl

theorem holdsAlike_unbind (c : Ref .core) : s.HoldsAlike (s.unbind c) := by
  unfold unbind
  split
  · exact fun _ => rfl
  · exact (rehandled_release _ (.alpha _)).holdsAlike

theorem holdsAlike_rebind (b : Ref .behaviour) (alpha : Option (Ref .alpha)) :
    s.HoldsAlike (s.rebind b alpha) := by
  unfold rebind
  cases alpha with
  | none => exact s.holdsAlike_unbind _
  | some a => exact (s.rehandled_retain (.alpha a)).holdsAlike.trans (holdsAlike_unbind _ _)

theorem holdsAlike_spawn (job : Job) : s.HoldsAlike (s.spawn job).1 := by
  unfold spawn
  split
  · exact fun _ => rfl
  · exact s.holdsAlike_retainAll _

theorem holdsAlike_abort (k : Ref .task) : s.HoldsAlike (s.abort k) := by
  unfold abort
  dsimp only
  split
  · exact fun _ => rfl
  · split
    · split <;> exact fun _ => rfl
    · exact fun _ => rfl

theorem holdsAlike_cancelPlayback (t : Ref .timeline) : s.HoldsAlike (s.cancelPlayback t) := by
  unfold cancelPlayback
  split
  · exact holdsAlike_abort _ _
  · exact fun _ => rfl

theorem holdsAlike_endTask (how : Ending) (k : Ref .task) : s.HoldsAlike (s.endTask how k) :=
  holdsAlike_releaseAll _ _

theorem holdsAlike_applyActor (c : Ref .core) (a : Ref .actor) :
    s.HoldsAlike (s.applyActor c a) := by
  unfold applyActor
  dsimp only
  split <;> exact fun _ => rfl

theorem holdsAlike_removeActor (c : Ref .core) (a : Ref .actor) :
    s.HoldsAlike (s.removeActor c a) := by
  unfold removeActor
  dsimp only
  split <;> exact fun _ => rfl

theorem isHeld_hold (isHeld : Bool) (m m' : Ref .emitter) :
    ((Script.hold isHeld m s).emitters.get m').isHeld =
      if m = m' then isHeld else (s.emitters.get m').isHeld := by
  show ((s.emitters.modify m _).get m').isHeld = _
  rw [Table.get_modify]
  split
  · rfl
  · rfl

end Stage

/-! ## What comes of a script under locks -/

variable {υ α β : Type}

/-- All is in order while scripts run under locks: what the running operation has taken comes on
top of what is held for callees, an emitter is held while its lock is taken, and whoever has been
called back was called while nothing else was held. -/
structure World.IsSound (own lent : List Lock) (w : World (Guarded υ)) : Prop where
  held : w.user.held = own ++ lent
  outer : w.user.lent = lent
  lenders : ∀ l ∈ lent, ∃ e ∈ w.user.entrances, l ∈ e.callee.lent
  emitters : ∀ m, (w.stage.emitters.get m).isHeld = decide (.handlers m ∈ w.user.held)
  fair : ∀ e ∈ w.user.entrances, e.IsFair

namespace World.IsSound

variable {own lent : List Lock} {w : World (Guarded υ)}

theorem isLent (sound : w.IsSound own lent) {l : Lock} (mem : l ∈ lent) : l.isLent = true := by
  obtain ⟨e, -, mem⟩ := sound.lenders l mem
  exact Callee.isLent_of_mem_lent mem

theorem of_holdsAlike (sound : w.IsSound own lent) {s : Stage} (same : w.stage.HoldsAlike s) :
    World.IsSound own lent { w with stage := s } :=
  { sound with emitters := fun m => (same m).trans (sound.emitters m) }

/-- A lock that the operation has not taken, and that is held for nobody, is free. -/
theorem free (sound : w.IsSound own lent) {l : Lock} (fresh : l ∉ own)
    (kept : l.isLent = false) : l ∉ w.user.held := by
  rw [sound.held, List.mem_append]
  rintro (mem | mem)
  · exact fresh mem
  · exact Bool.false_ne_true (kept.symm.trans (sound.isLent mem))

theorem isHeld_of_free (sound : w.IsSound own lent) {m : Ref .emitter}
    (free : .handlers m ∉ w.user.held) : (w.stage.emitters.get m).isHeld = false :=
  (sound.emitters m).trans (decide_eq_false free)

/-- If a lock that the operation has not taken is not free then it is held for a callee. -/
theorem mem_lent (sound : w.IsSound own lent) {l : Lock} (fresh : l ∉ own)
    (held : l ∈ w.user.held) : l ∈ lent :=
  (List.mem_append.1 (sound.held ▸ held)).resolve_left fresh

theorem take (sound : w.IsSound own lent) {l : Lock} (other : ∀ m, l ≠ .handlers m) :
    World.IsSound (l :: own) lent { w with user := w.user.take l } where
  __ := sound
  held := congrArg (l :: ·) sound.held
  emitters m := by
    rw [sound.emitters m]
    exact decide_eq_decide.2 ⟨List.mem_cons_of_mem _, fun mem =>
      (List.mem_cons.1 mem).resolve_left (other m).symm⟩

theorem giveBack {l : Lock} (sound : w.IsSound (l :: own) lent) (other : ∀ m, l ≠ .handlers m) :
    World.IsSound own lent { w with user := w.user.free l } where
  __ := sound
  held := by
    show w.user.held.erase l = own ++ lent
    rw [sound.held]
    exact List.erase_cons_head l _
  emitters m := by
    rw [sound.emitters m]
    exact decide_eq_decide.2 (List.mem_erase_of_ne (other m).symm).symm

/-- An emitter is held from the moment on at which its lock is taken. -/
theorem hold (sound : w.IsSound own lent) (m : Ref .emitter) :
    World.IsSound (.handlers m :: own) lent
      ⟨Script.hold true m w.stage, w.user.take (.handlers m)⟩ where
  __ := sound
  held := congrArg (Lock.handlers m :: ·) sound.held
  emitters m' := by
    rw [Stage.isHeld_hold, sound.emitters m']
    split
    · next same => exact (decide_eq_true (same ▸ List.mem_cons_self)).symm
    · next other =>
        refine decide_eq_decide.2 ⟨List.mem_cons_of_mem _, fun mem => ?_⟩
        exact (List.mem_cons.1 mem).resolve_left fun same => other (Lock.handlers.inj same).symm

/-- It is let go of together with its lock. -/
theorem letGo {m : Ref .emitter} (sound : w.IsSound (.handlers m :: own) lent)
    (free : .handlers m ∉ own ++ lent) :
    World.IsSound own lent ⟨Script.hold false m w.stage, w.user.free (.handlers m)⟩ where
  __ := sound
  held := by
    show w.user.held.erase _ = own ++ lent
    rw [sound.held]
    exact List.erase_cons_head _ _
  emitters m' := by
    show _ = decide (_ ∈ w.user.held.erase _)
    rw [Stage.isHeld_hold, sound.emitters m', sound.held, List.cons_append, List.erase_cons_head]
    split
    · next same => exact (decide_eq_false (same ▸ free)).symm
    · next other =>
        refine decide_eq_decide.2 ⟨fun mem => ?_, List.mem_cons_of_mem _⟩
        exact (List.mem_cons.1 mem).resolve_left fun same => other (Lock.handlers.inj same).symm

end World.IsSound

/-- What comes of a script under its locks, and without them: it waits for a lock that is held for
somebody who is being called back, or it does the same, and leaves behind what it should. -/
inductive Agrees (leaves : World (Guarded υ) → Prop) :
    Except Fault α × World (Guarded υ) → Except Fault α × World υ → Prop
  | waits {w : World (Guarded υ)} {p : Except Fault α × World υ} {l : Lock}
      (wants : w.user.wanted = some l) (mem : l ∈ w.user.lent)
      (lender : ∃ e ∈ w.user.entrances, l ∈ e.callee.lent)
      (fair : ∀ e ∈ w.user.entrances, e.IsFair) : Agrees leaves (.error .stuck, w) p
  | same {result : Except Fault α} {w : World (Guarded υ)} (goes : result ≠ .error .stuck)
      (left : leaves w) : Agrees leaves (result, w) (result, w.bare)

namespace Agrees

variable {own lent : List Lock} {P Q : World (Guarded υ) → Prop}

/-- A result that is there at once. -/
theorem ok {w : World (Guarded υ)} (left : P w) (a : α) : Agrees P (.ok a, w) (.ok a, w.bare) :=
  .same nofun left

/-- The stage is changed in one step. -/
theorem changed {w : World (Guarded υ)} (sound : w.IsSound own lent) {s : Stage}
    (same : w.stage.HoldsAlike s) (a : α) :
    Agrees (World.IsSound own lent) (.ok a, { w with stage := s })
      (.ok a, { w.bare with stage := s }) := .ok (sound.of_holdsAlike same) a

theorem thenTidy {x : Script (Guarded υ) α} {w : World (Guarded υ)}
    {p : Except Fault α × World υ} (h : Agrees P (x.run w) p) (tidy : Stage → Stage)
    (tidies : ∀ v : World (Guarded υ), P v → Q { v with stage := tidy v.stage }) :
    Agrees Q ((x.thenTidy tidy).run w) (p.1, { p.2 with stage := tidy p.2.stage }) := by
  rw [Script.run_thenTidy]
  generalize x.run w = p' at h ⊢
  cases h with
  | waits wants mem lender fair => exact .waits wants mem lender fair
  | same goes left => exact .same goes (tidies _ left)

/-- What is kept beside a script is changed before it and after it. -/
theorem between {before after : Guarded υ → Guarded υ} {x : Script (Guarded υ) α}
    {w : World (Guarded υ)} {p : Except Fault α × World υ}
    (h : Agrees P (x.run { w with user := before w.user }) p)
    (keeps : ∀ g, (after g).own = g.own)
    (ends : ∀ v : World (Guarded υ), P v → Q { v with user := after v.user }) :
    Agrees Q ((Script.between before after x).run w) p := by
  generalize first : x.run { w with user := before w.user } = p' at h
  cases h with
  | waits wants mem lender fair =>
      rw [Script.run_between_of_stuck first]
      exact .waits wants mem lender fair
  | @same result v goes left =>
      have bare : v.bare = World.bare { v with user := after v.user } := by
        rw [World.bare, World.bare, keeps]
      cases result with
      | ok a =>
          rw [Script.run_between_of_ok first, bare]
          exact .same nofun (ends v left)
      | error fault =>
          cases fault with
          | violation cause =>
              rw [Script.run_between_of_violation first, bare]
              exact .same nofun (ends v left)
          | stuck => exact absurd rfl goes

/-- Whoever needs a lock that is held for a callee waits for it. -/
theorem locked {w : World (Guarded υ)} (sound : w.IsSound own lent) {l : Lock} (fresh : l ∉ own)
    (held : l ∈ w.user.held) (x : Script (Guarded υ) α) (p : Except Fault α × World υ) :
    Agrees P ((Script.locking l x).run w) p := by
  have mem := sound.mem_lent fresh held
  rw [Script.run_locking_of_held held]
  exact .waits rfl (sound.outer ▸ mem) (sound.lenders l mem) sound.fair

end Agrees

/-- A script under locks and a script without them: whenever all is in order, the one waits for a
lock that is held for a callee, or it does what the other does and leaves all in order. -/
def Shadows (own : List Lock) (x' : Script (Guarded υ) α) (x : Script υ α) : Prop :=
  ∀ lent w, World.IsSound own lent w →
    Agrees (World.IsSound own lent) (x'.run w) (x.run w.bare)

namespace Shadows

open Script

variable {own : List Lock}

theorem pure (a : α) : Shadows own (pure a : Script (Guarded υ) α) (pure a) :=
  fun _ _ sound => .ok sound a

theorem violation (cause : Violation) :
    Shadows own (throw (.violation cause) : Script (Guarded υ) α) (throw (.violation cause)) :=
  fun _ _ sound => .same nofun sound

theorem bind {x' : Script (Guarded υ) α} {x : Script υ α} {f' : α → Script (Guarded υ) β}
    {f : α → Script υ β} (hx : Shadows own x' x) (hf : ∀ a, Shadows own (f' a) (f a)) :
    Shadows own (x' >>= f') (x >>= f) := by
  intro lent w sound
  have first := hx lent w sound
  rw [run_bind, run_bind]
  generalize x'.run w = p', x.run w.bare = p at first ⊢
  cases first with
  | waits wants mem lender fair => exact .waits wants mem lender fair
  | @same result v goes left =>
      cases result with
      | ok a => exact hf a lent v left
      | error fault => exact .same (fun stuck => goes (by cases stuck; rfl)) left

theorem stage_bind {f' : Stage → Script (Guarded υ) β} {f : Stage → Script υ β}
    (hf : ∀ s, Shadows own (f' s) (f s)) : Shadows own (stage >>= f') (stage >>= f) :=
  fun lent w => hf w.stage lent w

theorem change {f : Stage → Stage} (h : ∀ s : Stage, s.HoldsAlike (f s)) :
    Shadows own (change f : Script (Guarded υ) Unit) (change f) :=
  fun _ w sound => .changed sound (h w.stage) ()

theorem produce {f : Stage → Stage × α} (h : ∀ s : Stage, s.HoldsAlike (f s).1) :
    Shadows own (produce f : Script (Guarded υ) α) (produce f) :=
  fun _ w sound => .changed sound (h w.stage) _

theorem note (what : Occurrence) : Shadows own (note what : Script (Guarded υ) Unit) (note what) :=
  change fun _ _ => rfl

theorem check (r : Except Violation α) :
    Shadows own (check r : Script (Guarded υ) α) (check r) := by
  cases r with
  | ok a => exact pure a
  | error cause => exact violation cause

theorem thenTidy {x' : Script (Guarded υ) α} {x : Script υ α} (hx : Shadows own x' x)
    {tidy : Stage → Stage} (h : ∀ s : Stage, s.HoldsAlike (tidy s)) :
    Shadows own (x'.thenTidy tidy) (x.thenTidy tidy) :=
  fun lent w sound => (hx lent w sound).thenTidy tidy fun _ left => left.of_holdsAlike (h _)

theorem holding {x' : Script (Guarded υ) α} {x : Script υ α} (handles : List Handle)
    (hx : Shadows own x' x) : Shadows own (holding handles x') (holding handles x) :=
  bind (change fun s => s.holdsAlike_retainAll handles) fun _ =>
    thenTidy hx fun s => s.holdsAlike_releaseAll handles

theorem attempt {x' : Script (Guarded υ) α} {x : Script υ α} (hx : Shadows own x' x) :
    Shadows own x'.attempt x.attempt := by
  intro lent w sound
  have first := hx lent w sound
  rw [Script.attempt, Script.attempt, ExceptT.run_mk, ExceptT.run_mk]
  generalize x'.run w = p', x.run w.bare = p at first ⊢
  cases first with
  | waits wants mem lender fair => exact .waits wants mem lender fair
  | @same result v goes left =>
      cases result with
      | ok a => exact .ok left (Except.ok a)
      | error fault =>
          cases fault with
          | violation cause => exact .ok left (Except.error cause)
          | stuck => exact absurd rfl goes

theorem forEach {visit' : β → Script (Guarded υ) Unit} {visit : β → Script υ Unit}
    (h : ∀ b, Shadows own (visit' b) (visit b)) (list : List β) :
    Shadows own (forEach visit' list) (forEach visit list) := by
  induction list with
  | nil => exact pure ()
  | cons b rest ih => exact bind (h b) fun _ => ih

theorem escort {visit' : Ref .actor → Script (Guarded υ) Unit} {visit : Ref .actor → Script υ Unit}
    (h : ∀ a, Shadows own (visit' a) (visit a)) (actors : List (Ref .actor)) :
    Shadows own (escort visit' actors) (escort visit actors) := by
  induction actors with
  | nil => exact pure ()
  | cons a rest ih =>
      refine bind (attempt (thenTidy (h a) fun s => (s.rehandled_release (.actor a)).holdsAlike))
        fun outcome => ?_
      cases outcome with
      | ok _ => exact ih
      | error cause =>
          exact bind (change fun s => s.holdsAlike_releaseAll _) fun _ => violation cause

theorem owning {x' : Script (Guarded υ) α} {x : Script υ α} (handles : List Handle)
    (hx : Shadows own x' x) : Shadows own (owning handles x') (owning handles x) := by
  refine stage_bind fun s => ?_
  split
  · exact bind (holding handles hx) fun _ => pure _
  · exact pure _

/-- A lock is held while a script runs. -/
theorem locking {l : Lock} (fresh : l ∉ own) (other : ∀ m, l ≠ .handlers m)
    {x' : Script (Guarded υ) α} {x : Script υ α} (hx : Shadows (l :: own) x' x) :
    Shadows own (locking l x') x := by
  intro lent w sound
  by_cases held : l ∈ w.user.held
  · exact .locked sound fresh held x' _
  · rw [run_locking_of_free held]
    exact .between (hx lent _ (sound.take other)) (fun _ => rfl) fun v left =>
      left.giveBack other

theorem locking_actor {a : Ref .actor} {x' : Script (Guarded υ) α} {x : Script υ α}
    (hx : Shadows [.actor a] x' x) : Shadows [] (Script.locking (.actor a) x') x :=
  locking List.not_mem_nil (fun _ other => Lock.noConfusion other) hx

theorem accessing {l : Lock} (fresh : l ∉ own) (kept : l.isLent = false)
    {f : Stage → Stage × α} (h : ∀ s : Stage, s.HoldsAlike (f s).1) :
    Shadows own (accessing l f : Script (Guarded υ) α) (Script.produce f) :=
  locking fresh (Lock.ne_handlers kept) (produce h)

theorem writing {l : Lock} (fresh : l ∉ own) (kept : l.isLent = false) {f : Stage → Stage}
    (h : ∀ s : Stage, s.HoldsAlike (f s)) :
    Shadows own (writing l f : Script (Guarded υ) Unit) (Script.change f) :=
  locking fresh (Lock.ne_handlers kept) fun _ w sound => .changed sound (h w.stage) ()

/-- Nothing more can come of a lock that is only read under than a wait. -/
theorem reading {l : Lock} (fresh : l ∉ own) (f : Stage → α) :
    Shadows own (reading l f : Script (Guarded υ) α) (return f (← stage)) := by
  intro lent w sound
  by_cases held : l ∈ w.user.held
  · exact .locked sound fresh held _ _
  · rw [Script.reading, run_accessing held]
    exact .ok sound _

theorem look : Shadows own (return (← get).bare) (get : Script υ (World υ)) :=
  fun _ _ sound => .ok sound _

theorem write (f : World υ → υ) :
    Shadows own (modify fun w => { w with user := { w.user with own := f w.bare } })
      (modify fun w => { w with user := f w }) := by
  intro lent w sound
  have written : World.IsSound own lent ⟨w.stage, { w.user with own := f w.bare }⟩ :=
    ⟨sound.held, sound.outer, sound.lenders, sound.emitters, sound.fair⟩
  exact .ok written ()

/-- Whoever holds nothing but what is held for a callee may call it back. -/
theorem entering (callee : Callee) {x' : Script (Guarded υ) α} {x : Script υ α}
    (hx : Shadows [] x' x) : Shadows callee.lent (entering callee x') x := by
  intro lent w sound
  have inside : World.IsSound [] (callee.lent ++ lent)
      { w with user := w.user.enter callee } := by
    refine ⟨sound.held, congrArg (callee.lent ++ ·) sound.outer, ?_, sound.emitters, ?_⟩
    · intro l mem
      obtain mem | mem := List.mem_append.1 mem
      · exact ⟨_, List.mem_cons_self, mem⟩
      · obtain ⟨e, entered, mem⟩ := sound.lenders l mem
        exact ⟨e, List.mem_cons_of_mem _ entered, mem⟩
    · rintro e (_ | ⟨_, entered⟩)
      · exact ⟨sound.outer ▸ sound.held, fun l mem => sound.isLent (sound.outer ▸ mem)⟩
      · exact sound.fair e entered
  refine .between (hx _ _ inside) (fun _ => rfl) fun v left => ?_
  refine ⟨left.held, ?_, fun l mem => left.lenders l (List.mem_append_right _ mem),
    left.emitters, left.fair⟩
  show v.user.lent.drop callee.lent.length = lent
  rw [left.outer]
  exact List.drop_left

end Shadows

end Animation
