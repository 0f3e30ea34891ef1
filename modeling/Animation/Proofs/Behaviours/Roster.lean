/-
# The actors of a core as an ordered set

A roster is a set of live actors in the order in which they joined it: an actor that joins
comes last, one that is there already keeps its place, and one that dies is gone at once. A
core keeps a list of entries instead, and the entry of a dead actor stays in it until the
list is next gone through.

Whoever applies actors to a core, removes them, asks for them, visits them, and keeps or
drops handles on them meanwhile, inside the visits too, gets the answers of a roster.
-/

import Animation.Proofs.Behaviours.Scene
import Animation.Proofs.Script.Running

namespace Animation

/-- The live actors that have joined, in order, the handles there are on actors, and how many
actors have been made. -/
@[ext]
structure Roster where
  members : List (Ref .actor)
  handles : Ref .actor → Nat
  made : Nat

namespace Roster

variable (r : Roster) (a : Ref .actor)

def isAlive : Bool := decide (0 < r.handles a)

/-- An actor joins; one that is a member keeps its place. -/
def apply : Roster := if a ∈ r.members then r else { r with members := r.members ++ [a] }

def remove : Roster := { r with members := r.members.filter (· != a) }

def clear : Roster := { r with members := [] }

def keep : Roster := { r with handles := fun b => r.handles b + if a = b then 1 else 0 }

/-- A handle is dropped. With the last one the actor dies, and is not a member any more. -/
def drop : Roster :=
  { r with
    handles := fun b => r.handles b - if a = b then 1 else 0
    members := if r.handles a = 1 then r.members.filter (· != a) else r.members }

/-- A new actor, with one handle on it. -/
def make : Roster :=
  { r with
    handles := fun b => if b = ⟨r.made⟩ then 1 else r.handles b
    made := r.made + 1 }

/-- What a caller is told: an answer, or which actor is being visited. -/
inductive Reply where
  | isApplied (answer : Bool)
  | actors (actors : List (Ref .actor))
  | count (n : Nat)
  | nth (actor : Option (Ref .actor))
  | visited (a : Ref .actor)
  deriving DecidableEq

/-- What a caller does with the actors of a core, one thing after the other. The caller
decides on how to go on by the answers, and on what to do in a visit by the actor visited.
Only who has a handle on an actor can do something with it: what is tried with a dead actor
is passed over. -/
inductive Program where
  | done
  | apply (a : Ref .actor) (next : Program)
  | remove (a : Ref .actor) (next : Program)
  | removeAll (next : Program)
  | isApplied (a : Ref .actor) (next : Bool → Program)
  | getActors (next : List (Ref .actor) → Program)
  | getCount (next : Nat → Program)
  | getNth (i : Nat) (next : Option (Ref .actor) → Program)
  | forEach (visit : Ref .actor → Program) (next : Program)
  | make (actor : Actor) (next : Ref .actor → Program)
  | keep (a : Ref .actor) (next : Program)
  | drop (a : Ref .actor) (next : Program)
  /-- The entries of dead actors are dropped from the list. -/
  | prune (next : Program)

/-- A roster, and what its caller has been told, last first. -/
@[ext]
structure Account where
  roster : Roster
  replies : List Reply

namespace Account

variable (x : Account)

def update (f : Roster → Roster) : Account := { x with roster := f x.roster }

/-- What is done with an actor, if the actor is alive. -/
def provided (a : Ref .actor) (f : Roster → Roster) : Account :=
  if x.roster.isAlive a then x.update f else x

def tell (reply : Reply) : Account := { x with replies := reply :: x.replies }

end Account

/-- What becomes of a roster, and what its caller is told. All members are kept alive while
they are visited; each is let go after its visit. To drop the entries of dead actors is
nothing, as there are none. -/
def Program.play : Program → Account → Account
  | done, x => x
  | apply a next, x => next.play (x.provided a (·.apply a))
  | remove a next, x => next.play (x.provided a (·.remove a))
  | removeAll next, x => next.play (x.update (·.clear))
  | isApplied a next, x =>
      let answer := decide (a ∈ x.roster.members)
      (next answer).play (x.tell (.isApplied answer))
  | getActors next, x => (next x.roster.members).play (x.tell (.actors x.roster.members))
  | getCount next, x =>
      (next x.roster.members.length).play (x.tell (.count x.roster.members.length))
  | getNth i next, x => (next x.roster.members[i]?).play (x.tell (.nth x.roster.members[i]?))
  | forEach visit next, x =>
      let members := x.roster.members
      next.play (members.foldl
        (fun x a => ((visit a).play (x.tell (.visited a))).update (·.drop a))
        (x.update fun r => members.foldl Roster.keep r))
  | make _ next, x => (next ⟨x.roster.made⟩).play (x.update (·.make))
  | keep a next, x => next.play (x.provided a (·.keep a))
  | drop a next, x => next.play (x.provided a (·.drop a))
  | prune next, x => next.play x

/-! ## The same on a stage -/

/-- What a caller has been told, last first, and the lists of entries that a core was seen to
keep meanwhile. -/
structure Minutes where
  replies : List Reply
  entries : List (List (Ref .actor))

/-- See what entries a core keeps. -/
def look (c : Ref .core) : Script Minutes Unit :=
  modify fun w =>
    { w with user := { w.user with entries := (w.stage.cores.get c).actors :: w.user.entries } }

/-- Tell the caller something, and see what entries the core keeps. -/
def tell (c : Ref .core) (reply : Reply) : Script Minutes Unit := do
  modify fun w => { w with user := { w.user with replies := reply :: w.user.replies } }
  look c

/-- Change the stage, and see what entries the core keeps. -/
def alter (c : Ref .core) (f : Stage → Stage) : Script Minutes Unit := do
  Script.change f
  look c

/-- Change the stage for an actor, if the actor is alive. -/
def alterFor (c : Ref .core) (a : Ref .actor) (f : Stage → Stage) : Script Minutes Unit := do
  if (← Script.stage).isAlive (.actor a) then alter c f else look c

/-- Do on a stage, with the actors of a core, what a program says. -/
def Program.script (c : Ref .core) : Program → Script Minutes Unit
  | done => pure ()
  | apply a next => do
      alterFor c a (·.applyActor c a)
      next.script c
  | remove a next => do
      alterFor c a (·.removeActor c a)
      next.script c
  | removeAll next => do
      alter c (·.clearActors c)
      next.script c
  | isApplied a next => do
      let answer := (← Script.stage).isApplied c a
      tell c (.isApplied answer)
      (next answer).script c
  | getActors next => do
      let actors ← Script.produce (·.gatherActors c)
      tell c (.actors actors)
      (next actors).script c
  | getCount next => do
      let actors ← Script.produce (·.gatherActors c)
      tell c (.count actors.length)
      (next actors.length).script c
  | getNth i next => do
      let actors ← Script.produce (·.gatherActors c)
      tell c (.nth actors[i]?)
      (next actors[i]?).script c
  | forEach visit next => do
      Script.forEachActor c fun a => do
        tell c (.visited a)
        (visit a).script c
      next.script c
  | make actor next => do
      let a ← Script.produce (·.addActor actor)
      (next a).script c
  | keep a next => do
      alterFor c a (·.retain (.actor a))
      next.script c
  | drop a next => do
      alterFor c a (·.release (.actor a))
      next.script c
  | prune next => do
      alter c (·.pruneActors c)
      next.script c

end Roster

namespace Stage

variable {s : Stage} {c : Ref .core} {a : Ref .actor}

/-- The roster that the entries of a core stand for. -/
def roster (c : Ref .core) (s : Stage) : Roster where
  members := s.actorsOf c
  handles a := s.holders (.actor a)
  made := s.actors.size

/-- The entries of a core are different ones, and of actors that have been made. -/
structure Enlists (s : Stage) (c : Ref .core) : Prop where
  nodup : (s.cores.get c).actors.Nodup
  made : ∀ a ∈ (s.cores.get c).actors, a.index < s.actors.size

/-- An actor there are handles on has been made. -/
theorem actor_made (h : s.isAlive (.actor a) = true) : a.index < s.actors.size := by
  by_contra ge
  rw [isAlive_iff, holders, Table.get_of_size_le _ (Nat.le_of_not_lt ge)] at h
  exact Nat.lt_irrefl 0 h

theorem mem_actorsOf : a ∈ s.actorsOf c ↔
    a ∈ (s.cores.get c).actors ∧ s.isAlive (.actor a) = true :=
  List.mem_filter

theorem actors_setActors (s : Stage) (c : Ref .core) (actors : List (Ref .actor)) :
    ((s.setActors c actors).cores.get c).actors = actors := by
  simp [setActors, modifyCore]

theorem actorsOf_setActors (s : Stage) (c : Ref .core) (actors : List (Ref .actor)) :
    (s.setActors c actors).actorsOf c = s.present actors := by
  show s.present ((s.setActors c actors).cores.get c).actors = _
  rw [actors_setActors]

/-- Of actors that are there, all are there. -/
theorem present_of_isAlive {actors : List (Ref .actor)}
    (h : ∀ a ∈ actors, s.isAlive (.actor a) = true) : s.present actors = actors :=
  List.filter_eq_self.2 h

/-- The entries are replaced by some that are of live actors. -/
theorem roster_setActors {actors : List (Ref .actor)}
    (h : ∀ a ∈ actors, s.isAlive (.actor a) = true) :
    (s.setActors c actors).roster c = { s.roster c with members := actors } := by
  unfold roster
  rw [actorsOf_setActors, present_of_isAlive h]
  rfl

theorem Enlists.setActors (h : s.Enlists c) {actors : List (Ref .actor)} (nodup : actors.Nodup)
    (sub : ∀ a ∈ actors, a ∈ (s.cores.get c).actors ∨ s.isAlive (.actor a) = true) :
    (s.setActors c actors).Enlists c where
  nodup := by rwa [actors_setActors]
  made a ha := by
    rw [actors_setActors] at ha
    exact (sub a ha).elim (h.made a) actor_made

theorem enlists_note (what : Occurrence) : (s.note what).Enlists c ↔ s.Enlists c :=
  ⟨fun ⟨nodup, made⟩ => ⟨nodup, made⟩, fun ⟨nodup, made⟩ => ⟨nodup, made⟩⟩

theorem isAlive_of_mem_actorsOf (h : a ∈ s.actorsOf c) : s.isAlive (.actor a) = true :=
  (mem_actorsOf.1 h).2

/-- Pruning the list leaves the roster as it is. -/
theorem roster_pruneActors (s : Stage) (c : Ref .core) :
    (s.pruneActors c).roster c = s.roster c :=
  roster_setActors fun _ => isAlive_of_mem_actorsOf

theorem Enlists.pruneActors (h : s.Enlists c) : (s.pruneActors c).Enlists c :=
  h.setActors (nodup_actorsOf h.nodup) fun _ ha => .inl (mem_actorsOf.1 ha).1

theorem roster_applyActor (alive : s.isAlive (.actor a) = true) :
    (s.applyActor c a).roster c = (s.roster c).apply a := by
  unfold applyActor
  dsimp only
  by_cases has : a ∈ s.actorsOf c
  · rw [if_pos (List.contains_iff_mem.2 has)]
    exact (s.roster_pruneActors c).trans (if_pos has).symm
  · rw [if_neg fun h => has (List.contains_iff_mem.1 h)]
    refine .trans (roster_setActors (s := s) (c := c) fun b hb => ?_) (if_neg has).symm
    rcases List.mem_append.1 hb with hb | hb
    · exact isAlive_of_mem_actorsOf hb
    · exact List.mem_singleton.1 hb ▸ alive

theorem Enlists.applyActor (h : s.Enlists c) (alive : s.isAlive (.actor a) = true) :
    (s.applyActor c a).Enlists c := by
  unfold Stage.applyActor
  dsimp only
  split
  · exact h.pruneActors
  · next absent =>
      rw [List.contains_iff_mem] at absent
      refine (enlists_note _).2 (h.setActors ?_ fun b hb => ?_)
      · refine List.nodup_append.2 ⟨nodup_actorsOf h.nodup, List.nodup_singleton a, ?_⟩
        rintro b hb _ hc rfl
        exact absent (List.mem_singleton.1 hc ▸ hb)
      · rcases List.mem_append.1 hb with hb | hb
        · exact .inl (mem_actorsOf.1 hb).1
        · exact .inr (List.mem_singleton.1 hb ▸ alive)

theorem roster_removeActor (s : Stage) (c : Ref .core) (a : Ref .actor) :
    (s.removeActor c a).roster c = (s.roster c).remove a := by
  have kept : (s.setActors c ((s.actorsOf c).filter (· != a))).roster c = (s.roster c).remove a :=
    roster_setActors fun _ hb => isAlive_of_mem_actorsOf (List.mem_filter.1 hb).1
  unfold removeActor
  dsimp only
  split
  · exact kept
  · exact kept

theorem Enlists.removeActor (h : s.Enlists c) : (s.removeActor c a).Enlists c := by
  have kept : (s.setActors c ((s.actorsOf c).filter (· != a))).Enlists c :=
    h.setActors ((nodup_actorsOf h.nodup).filter _) fun _ hb =>
      .inl (mem_actorsOf.1 (List.mem_filter.1 hb).1).1
  unfold Stage.removeActor
  dsimp only
  split
  · exact (enlists_note _).2 kept
  · exact kept

/-- To apply or remove actors makes none. -/
theorem actors_applyActor (s : Stage) (c : Ref .core) (a : Ref .actor) :
    (s.applyActor c a).actors = s.actors := by
  unfold applyActor
  dsimp only
  split <;> rfl

theorem actors_removeActor (s : Stage) (c : Ref .core) (a : Ref .actor) :
    (s.removeActor c a).actors = s.actors := by
  unfold removeActor
  dsimp only
  split <;> rfl

theorem roster_clearActors (s : Stage) (c : Ref .core) :
    (s.clearActors c).roster c = (s.roster c).clear :=
  roster_setActors fun _ h => nomatch h

theorem Enlists.clearActors (h : s.Enlists c) : (s.clearActors c).Enlists c :=
  h.setActors List.nodup_nil fun _ h => nomatch h

theorem isApplied_eq (s : Stage) (c : Ref .core) (a : Ref .actor) :
    s.isApplied c a = decide (a ∈ (s.roster c).members) := by
  rw [isApplied, Bool.eq_iff_iff, List.contains_iff_mem, decide_eq_true_iff]
  rfl

/-- What changes only handles on actors leaves the entries of cores. -/
theorem Enlists.of_entries (h : s.Enlists c) {s' : Stage}
    (entries : (s'.cores.get c).actors = (s.cores.get c).actors)
    (made : s.actors.size ≤ s'.actors.size) : s'.Enlists c where
  nodup := entries ▸ h.nodup
  made a ha := Nat.lt_of_lt_of_le (h.made a (entries ▸ ha)) made

theorem Enlists.retain (h : s.Enlists c) (a : Ref .actor) : (s.retain (.actor a)).Enlists c :=
  h.of_entries rfl (Table.size_le_size_modify ..)

theorem Enlists.release (h : s.Enlists c) (a : Ref .actor) : (s.release (.actor a)).Enlists c :=
  h.of_entries rfl (Table.size_le_size_modify ..)

theorem Enlists.addActor (h : s.Enlists c) (actor : Actor) : (s.addActor actor).1.Enlists c :=
  h.of_entries rfl (by simp [Stage.addActor])

theorem roster_retain (c : Ref .core) (alive : s.isAlive (.actor a) = true) :
    (s.retain (.actor a)).roster c = (s.roster c).keep a := by
  ext1
  · refine List.filter_congr fun b _ => ?_
    rw [Bool.eq_iff_iff, isAlive_iff, isAlive_iff, holders_retain]
    by_cases same : Handle.actor a = .actor b
    · have := s.isAlive_iff.1 alive
      rw [← same]
      omega
    · rw [if_neg same, Nat.add_zero]
  · funext b
    simp only [roster, holders_retain, Roster.keep, Handle.actor.injEq]
  · exact Table.size_modify _ _ (actor_made alive)

theorem roster_release (c : Ref .core) (made : a.index < s.actors.size) :
    (s.release (.actor a)).roster c = (s.roster c).drop a := by
  ext1
  · show ((s.cores.get c).actors.filter fun b => (s.release (.actor a)).isAlive (.actor b)) = _
    have alive : ∀ b, (s.release (.actor a)).isAlive (.actor b) =
        (s.isAlive (.actor b) && !(decide (s.holders (.actor a) = 1) && b == a)) := by
      intro b
      rw [Bool.eq_iff_iff, isAlive_iff, holders_release_actor]
      by_cases same : a = b
      · subst same
        simp [isAlive_iff]
        omega
      · simp [same, Ne.symm same, isAlive_iff]
    simp only [alive, Roster.drop]
    show _ = if s.holders (.actor a) = 1 then (s.actorsOf c).filter (· != a) else s.actorsOf c
    split
    · next last =>
        rw [actorsOf, present, List.filter_filter]
        refine List.filter_congr fun b _ => ?_
        simp [last, bne, Bool.and_comm]
    · next more => simp [more, actorsOf, present]
  · funext b
    simp only [roster, holders_release_actor, Roster.drop, Handle.actor.injEq]
  · exact Table.size_modify _ _ made

theorem roster_addActor (h : s.Enlists c) (actor : Actor) :
    (s.addActor actor).1.roster c = (s.roster c).make := by
  have holders : ∀ b, (s.addActor actor).1.holders (.actor b) =
      if b = ⟨s.actors.size⟩ then 1 else s.holders (.actor b) := by
    intro b
    simp only [addActor, Stage.holders, Table.get_push]
    by_cases new : b = s.actors.next
    · rw [if_pos new, if_pos (show b = ⟨s.actors.size⟩ from new)]
    · rw [if_neg new, if_neg (show ¬b = ⟨s.actors.size⟩ from new)]
  ext1
  · refine List.filter_congr fun b hb => ?_
    have old : b ≠ ⟨s.actors.size⟩ := fun e => by
      have := h.made b hb
      rw [e] at this
      exact Nat.lt_irrefl _ this
    rw [Bool.eq_iff_iff, isAlive_iff, isAlive_iff, holders, if_neg old]
  · funext b
    exact holders b
  · simp [roster, addActor, Roster.make]

/-- To take handles on members is to keep the members. -/
theorem roster_retainAll (c : Ref .core) {actors : List (Ref .actor)}
    (alive : ∀ a ∈ actors, s.isAlive (.actor a) = true) :
    (s.retainAll (actors.map .actor)).roster c = actors.foldl Roster.keep (s.roster c) := by
  induction actors generalizing s with
  | nil => rfl
  | cons a rest ih =>
      show ((s.retain (.actor a)).retainAll (rest.map .actor)).roster c = _
      rw [ih, roster_retain c (alive a (List.mem_cons_self ..)), List.foldl_cons]
      intro b hb
      have := s.isAlive_iff.1 (alive b (List.mem_cons_of_mem _ hb))
      rw [isAlive_iff, holders_retain]
      omega

theorem Enlists.retainAll (h : s.Enlists c) (actors : List (Ref .actor)) :
    (s.retainAll (actors.map .actor)).Enlists c := by
  induction actors generalizing s with
  | nil => exact h
  | cons a rest ih => exact ih (h.retain a)

theorem size_actors_retainAll (s : Stage) (actors : List (Ref .actor)) :
    s.actors.size ≤ (s.retainAll (actors.map .actor)).actors.size := by
  induction actors generalizing s with
  | nil => exact Nat.le_refl _
  | cons a rest ih => exact Nat.le_trans (Table.size_le_size_modify ..) (ih (s.retain (.actor a)))

end Stage

namespace Roster

variable {c : Ref .core} {w : World Minutes}

/-- The roster of a core, and what the caller has been told. -/
def account (c : Ref .core) (w : World Minutes) : Account :=
  ⟨w.stage.roster c, w.user.replies⟩

/-- The entries of a core are different ones, now and whenever they were seen. -/
structure Kept (c : Ref .core) (w : World Minutes) : Prop where
  enlists : w.stage.Enlists c
  entries : ∀ actors ∈ w.user.entries, actors.Nodup

/-- A script comes to its end, and leaves a certain account. -/
def Ends (c : Ref .core) (x : Script Minutes Unit) (w : World Minutes) (result : Account) : Prop :=
  ∃ w', x.run w = (.ok (), w') ∧ Kept c w' ∧ account c w' = result ∧
    w.stage.actors.size ≤ w'.stage.actors.size

theorem Ends.bind {x y : Script Minutes Unit} {first result : Account} (hx : Ends c x w first)
    (hy : ∀ w', Kept c w' → account c w' = first → Ends c y w' result) :
    Ends c (x >>= fun _ => y) w result := by
  obtain ⟨w₁, run, kept, same, made⟩ := hx
  obtain ⟨w₂, run', kept', same', made'⟩ := hy w₁ kept same
  exact ⟨w₂, (Script.run_bind_of_ok run _).trans run', kept', same', Nat.le_trans made made'⟩

/-- After the first part the rest of a program goes by the roster that it meets. -/
theorem Ends.andThen {x y : Script Minutes Unit} {first : Account} {rest : Program}
    (hx : Ends c x w first)
    (hy : ∀ {w' : World Minutes}, Kept c w' → Ends c y w' (rest.play (account c w'))) :
    Ends c (x >>= fun _ => y) w (rest.play first) :=
  hx.bind fun _ kept same => same ▸ hy kept

theorem Kept.look (h : Kept c w) : Ends c (look c) w (account c w) := by
  refine ⟨_, rfl, ⟨h.enlists, fun actors hm => ?_⟩, rfl, Nat.le_refl _⟩
  rcases List.mem_cons.1 hm with rfl | hm
  · exact h.enlists.nodup
  · exact h.entries actors hm

theorem Kept.tell (h : Kept c w) (reply : Reply) :
    Ends c (tell c reply) w ((account c w).tell reply) :=
  Kept.look (w := { w with user := { w.user with replies := reply :: w.user.replies } })
    ⟨h.enlists, h.entries⟩

/-- A change that keeps the entries in order and does to the roster what a function says. -/
theorem Kept.alter (h : Kept c w) {f : Stage → Stage} {g : Roster → Roster}
    (enlists : (f w.stage).Enlists c) (roster : (f w.stage).roster c = g (w.stage.roster c))
    (made : w.stage.actors.size ≤ (f w.stage).actors.size) :
    Ends c (alter c f) w ((account c w).update g) := by
  obtain ⟨w', run, kept, same, more⟩ :=
    Kept.look (w := { w with stage := f w.stage }) ⟨enlists, h.entries⟩
  refine ⟨w', run, kept, same.trans ?_, Nat.le_trans made more⟩
  exact congrArg (Account.mk · _) roster

theorem Kept.alterFor (h : Kept c w) {a : Ref .actor} {f : Stage → Stage} {g : Roster → Roster}
    (enlists : w.stage.isAlive (.actor a) = true → (f w.stage).Enlists c)
    (roster : w.stage.isAlive (.actor a) = true →
      (f w.stage).roster c = g (w.stage.roster c))
    (made : w.stage.actors.size ≤ (f w.stage).actors.size) :
    Ends c (alterFor c a f) w ((account c w).provided a g) := by
  unfold Ends
  rw [Roster.alterFor, Script.run_stage_bind]
  unfold Account.provided
  change ∃ w', _ ∧ _ ∧ _ = (if w.stage.isAlive (.actor a) then _ else _) ∧ _
  split
  · next alive => exact h.alter (enlists alive) (roster alive) made
  · exact h.look

/-- Members that are being visited are let go one by one, each after its visit. -/
theorem Kept.escort {visit : Ref .actor → Script Minutes Unit}
    {played : Ref .actor → Account → Account} {actors : List (Ref .actor)}
    (hv : ∀ a w, Kept c w → Ends c (visit a) w (played a (account c w))) (h : Kept c w)
    (made : ∀ a ∈ actors, a.index < w.stage.actors.size) :
    Ends c (Script.escort visit actors) w
      (actors.foldl (fun x a => (played a x).update (·.drop a)) (account c w)) := by
  induction actors generalizing w with
  | nil => exact ⟨w, rfl, h, rfl, Nat.le_refl _⟩
  | cons a rest ih =>
      obtain ⟨w₁, run, kept, same, more⟩ := hv a w h
      have known := Nat.lt_of_lt_of_le (made a (List.mem_cons_self ..)) more
      have larger : w₁.stage.actors.size ≤ (w₁.stage.release (.actor a)).actors.size :=
        Table.size_le_size_modify ..
      obtain ⟨w₂, run', kept₂, same', more'⟩ :=
        ih (w := { w₁ with stage := w₁.stage.release (.actor a) })
          ⟨kept.enlists.release a, kept.entries⟩ fun b hb =>
            Nat.lt_of_lt_of_le (made b (List.mem_cons_of_mem _ hb)) (Nat.le_trans more larger)
      have visited : ((visit a).thenTidy (·.release (.actor a))).run w =
          (.ok (), { w₁ with stage := w₁.stage.release (.actor a) }) := by
        simp [run]
      refine ⟨w₂, ?_, kept₂, same'.trans ?_, Nat.le_trans more (Nat.le_trans larger more')⟩
      · exact (Script.run_bind_of_ok (Script.run_attempt_of_ok visited) _).trans run'
      · rw [List.foldl_cons, ← same]
        congr 1
        exact congrArg (Account.mk · _) (Stage.roster_release c known)

/-- The members that a core has when the visits begin are visited in order. -/
theorem Kept.forEachActor {visit : Ref .actor → Script Minutes Unit}
    {played : Ref .actor → Account → Account}
    (hv : ∀ a w, Kept c w → Ends c (visit a) w (played a (account c w))) (h : Kept c w) :
    Ends c (Script.forEachActor c visit) w
      ((account c w).roster.members.foldl (fun x a => (played a x).update (·.drop a))
        ((account c w).update fun r => (account c w).roster.members.foldl Roster.keep r)) := by
  have alive : ∀ a ∈ w.stage.actorsOf c, (w.stage.pruneActors c).isAlive (.actor a) = true :=
    fun _ => Stage.isAlive_of_mem_actorsOf
  have larger := (w.stage.pruneActors c).size_actors_retainAll (w.stage.actorsOf c)
  have kept : Kept c { w with
      stage := (w.stage.pruneActors c).retainAll ((w.stage.actorsOf c).map .actor) } :=
    ⟨h.enlists.pruneActors.retainAll _, h.entries⟩
  obtain ⟨w', run, kept', same, more⟩ :=
    kept.escort hv fun a (ha : a ∈ w.stage.actorsOf c) =>
      Nat.lt_of_lt_of_le (Stage.actor_made (alive a ha)) larger
  refine ⟨w', run, kept', same.trans ?_, Nat.le_trans larger more⟩
  congr 1
  refine congrArg (Account.mk · _) ?_
  rw [Stage.roster_retainAll c alive, Stage.roster_pruneActors]
  rfl

/-- Going through the actors of a core gives the members. -/
theorem Kept.gather {f : List (Ref .actor) → Script Minutes Unit} {result : Account}
    (h : Kept c w)
    (hf : ∀ w', Kept c w' → account c w' = account c w →
      Ends c (f (account c w).roster.members) w' result) :
    Ends c (Script.produce (·.gatherActors c) >>= f) w result := by
  have kept : Kept c { w with stage := w.stage.pruneActors c } :=
    ⟨h.enlists.pruneActors, h.entries⟩
  exact hf _ kept (congrArg (Account.mk · _) (w.stage.roster_pruneActors c))

/-- What a program does on a stage is what it does with the roster that the entries of the core
stand for. -/
theorem Program.script_ends (p : Program) (h : Kept c w) :
    Ends c (p.script c) w (p.play (account c w)) := by
  induction p generalizing w with
  | done => exact ⟨w, rfl, h, rfl, Nat.le_refl _⟩
  | apply a next ih =>
      have first : Ends c (alterFor c a (·.applyActor c a)) w _ :=
        h.alterFor (g := (·.apply a)) h.enlists.applyActor Stage.roster_applyActor
          (Nat.le_of_eq (w.stage.actors_applyActor c a ▸ rfl))
      exact first.andThen ih
  | remove a next ih =>
      have first : Ends c (alterFor c a (·.removeActor c a)) w _ :=
        h.alterFor (g := (·.remove a)) (fun _ => h.enlists.removeActor)
          (fun _ => w.stage.roster_removeActor c a)
          (Nat.le_of_eq (w.stage.actors_removeActor c a ▸ rfl))
      exact first.andThen ih
  | removeAll next ih =>
      have first : Ends c (alter c (·.clearActors c)) w _ :=
        h.alter (g := (·.clear)) h.enlists.clearActors (w.stage.roster_clearActors c)
          (Nat.le_refl _)
      exact first.andThen ih
  | isApplied a next ih =>
      show Ends c (tell c (.isApplied (w.stage.isApplied c a)) >>= fun _ =>
        (next (w.stage.isApplied c a)).script c) w _
      rw [w.stage.isApplied_eq]
      exact (h.tell _).andThen (ih _)
  | getActors next ih =>
      refine h.gather fun w' kept same => ?_
      rw [Program.play, ← same]
      exact (kept.tell _).andThen (ih _)
  | getCount next ih =>
      refine h.gather fun w' kept same => ?_
      rw [Program.play, ← same]
      exact (kept.tell _).andThen (ih _)
  | getNth i next ih =>
      refine h.gather fun w' kept same => ?_
      rw [Program.play, ← same]
      exact (kept.tell _).andThen (ih _)
  | forEach visit next ihVisit ihNext =>
      have visited : ∀ a w, Kept c w →
          Ends c (tell c (.visited a) >>= fun _ => (visit a).script c) w
            ((visit a).play ((account c w).tell (.visited a))) := fun a w kept =>
        (kept.tell _).andThen (ihVisit a)
      exact (h.forEachActor visited).andThen ihNext
  | make actor next ih =>
      have kept : Kept c { w with stage := (w.stage.addActor actor).1 } :=
        ⟨h.enlists.addActor actor, h.entries⟩
      obtain ⟨w', run, kept', same, more⟩ := ih w.stage.actors.next kept
      refine ⟨w', run, kept', same.trans ?_, Nat.le_trans ?_ more⟩
      · rw [Program.play]
        congr 1
        exact congrArg (Account.mk · _) (Stage.roster_addActor h.enlists actor)
      · simp [Stage.addActor]
  | keep a next ih =>
      have first : Ends c (alterFor c a (·.retain (.actor a))) w _ :=
        h.alterFor (g := (·.keep a)) (fun _ => h.enlists.retain a) (Stage.roster_retain c)
          (Table.size_le_size_modify ..)
      exact first.andThen ih
  | drop a next ih =>
      have first : Ends c (alterFor c a (·.release (.actor a))) w _ :=
        h.alterFor (g := (·.drop a)) (fun _ => h.enlists.release a)
          (fun alive => Stage.roster_release c (Stage.actor_made alive))
          (Table.size_le_size_modify ..)
      exact first.andThen ih
  | prune next ih =>
      have first : Ends c (alter c (·.pruneActors c)) w _ :=
        h.alter (g := id) h.enlists.pruneActors (w.stage.roster_pruneActors c) (Nat.le_refl _)
      exact first.andThen ih

/-! ## The refinement -/

/-- The program with nothing done to drop the entries of dead actors. -/
def Program.unpruned : Program → Program
  | done => done
  | apply a next => apply a next.unpruned
  | remove a next => remove a next.unpruned
  | removeAll next => removeAll next.unpruned
  | isApplied a next => isApplied a fun answer => (next answer).unpruned
  | getActors next => getActors fun actors => (next actors).unpruned
  | getCount next => getCount fun n => (next n).unpruned
  | getNth i next => getNth i fun a => (next a).unpruned
  | forEach visit next => forEach (fun a => (visit a).unpruned) next.unpruned
  | make actor next => make actor fun a => (next a).unpruned
  | keep a next => keep a next.unpruned
  | drop a next => drop a next.unpruned
  | prune next => next.unpruned

theorem Program.play_unpruned (p : Program) (x : Account) : p.unpruned.play x = p.play x := by
  induction p generalizing x with
  | done => rfl
  | forEach visit next ihVisit ihNext => simp only [unpruned, play, ihVisit, ihNext]
  | apply _ _ ih | remove _ _ ih | removeAll _ ih | isApplied _ _ ih | getActors _ ih
  | getCount _ ih | getNth _ _ ih | make _ _ ih | keep _ _ ih | drop _ _ ih | prune _ ih =>
      simp only [unpruned, play, ih]

/-- A core refines a roster. Whatever a caller does with the actors of a core and with handles
on them, also while actors are being visited, comes to its end; the caller is told what a
roster tells, and in the end the actors of the core are the members. The core never keeps two
entries of one actor, and to drop the entries of dead actors, at any points, changes nothing
of what the caller is told. -/
theorem Program.core_refines_roster (p : Program) (c : Ref .core) (w : World Minutes)
    (enlists : w.stage.Enlists c) (unseen : w.user.entries = []) :
    ∃ w', (p.script c).run w = (.ok (), w') ∧
      w'.user.replies = (p.play (account c w)).replies ∧
      w'.stage.actorsOf c = (p.play (account c w)).roster.members ∧
      (∀ actors ∈ (w'.stage.cores.get c).actors :: w'.user.entries, actors.Nodup) ∧
      ∃ w₂, (p.unpruned.script c).run w = (.ok (), w₂) ∧ w₂.user.replies = w'.user.replies := by
  have kept : Kept c w := ⟨enlists, fun actors h => by rw [unseen] at h; exact nomatch h⟩
  obtain ⟨w', run, kept', same, -⟩ := p.script_ends kept
  obtain ⟨w₂, run₂, -, same₂, -⟩ := p.unpruned.script_ends kept
  rw [p.play_unpruned, ← same] at same₂
  refine ⟨w', run, congrArg Account.replies same, congrArg (·.roster.members) same, ?_,
    w₂, run₂, congrArg Account.replies same₂⟩
  intro actors h
  rcases List.mem_cons.1 h with rfl | h
  · exact kept'.enlists.nodup
  · exact kept'.entries actors h

/-- A caller applies three actors and drops the second one, which dies. While the other two are
visited, each is removed and the first one is applied again. -/
def company : World Minutes :=
  let s := (Stage.empty false).addCore.1
  let s := ((s.addActor default).1.addActor default).1
  ⟨(s.addActor default).1, [], []⟩

def changingCast : Program :=
  .apply ⟨0⟩ <| .apply ⟨1⟩ <| .apply ⟨2⟩ <| .drop ⟨1⟩ <| .isApplied ⟨1⟩ fun _ =>
    .forEach (fun a => .remove a <| .apply ⟨0⟩ .done) <|
      .apply ⟨2⟩ <| .getNth 1 fun _ => .getActors fun _ => .done

theorem core_refines_roster_changingCast :
    company.stage.Enlists ⟨0⟩ ∧ company.user.entries = [] ∧
    ∃ w', (changingCast.script ⟨0⟩).run company = (.ok (), w') ∧
      w'.user.replies = [.actors [⟨0⟩, ⟨2⟩], .nth (some ⟨2⟩), .visited ⟨2⟩, .visited ⟨0⟩,
        .isApplied false] := by
  have enlists : company.stage.Enlists ⟨0⟩ := ⟨List.nodup_nil, fun _ h => nomatch h⟩
  obtain ⟨w', run, replies, -⟩ :=
    Program.core_refines_roster changingCast ⟨0⟩ company enlists rfl
  exact ⟨enlists, rfl, w', run, replies.trans (by decide)⟩

end Roster

end Animation
