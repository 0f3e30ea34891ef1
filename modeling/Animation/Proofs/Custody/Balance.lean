/-
# The balance of handles

A handle on a timeline, an alpha, a core or a behaviour is either had by name, or kept by a thing
that is itself alive: a behaviour keeps one on its core, a core one on the alpha that it is bound
to, and an alpha one on its timeline. A stage is balanced if each thing counts exactly these
handles. Handles on actors are left out, as no thing keeps any.

The balance is kept when handles are taken and given up, when things are added, and when a
behaviour is bound to another alpha. The last handle on a thing passes on what the thing kept: for
a moment these handles are had by name, and then they are given up as well.
-/

import Animation.Proofs.Stage.Ties

namespace Animation

/-- Whether a handle is one on an actor. -/
def Handle.isOnActor : Handle → Bool
  | .actor _ => true
  | _ => false

namespace Stage

section Readings

variable (s : Stage)

/-- The handles that a thing keeps while it is alive. -/
def keeps : Handle → List Handle
  | .behaviour b => [.core (s.coreOf b)]
  | .core c => ((s.boundAlpha? c).map Handle.alpha).toList
  | .alpha a => [.timeline (s.timelineOf a)]
  | .timeline _ => []
  | .actor _ => []

/-- All that has been added, apart from actors. -/
def things : List Handle :=
  s.timelines.refs.map .timeline ++ s.alphas.refs.map .alpha ++ s.cores.refs.map .core ++
    s.behaviours.refs.map .behaviour

/-- The things that are alive. -/
def living : List Handle := s.things.filter s.isAlive

/-- The handles that are kept by things that are alive. -/
def kept : List Handle := s.living.flatMap s.keeps

/-- The handles that are kept by all other things than one. -/
def keptBeside (h : Handle) : List Handle := (s.living.filter (· != h)).flatMap s.keeps

/-- What a thing keeps now. -/
def keepsNow (h : Handle) : List Handle := if s.isAlive h then s.keeps h else []

end Readings

variable {s s' : Stage} {h : Handle}

/-- What is alive has been added. -/
theorem mem_things_of_isAlive (counted : h.isOnActor = false) (alive : s.isAlive h = true) :
    h ∈ s.things := by
  by_contra absent
  have none : s.holders h = 0 := by
    cases h with
    | actor a => exact nomatch counted
    | timeline _ | alpha _ | core _ | behaviour _ =>
        simp [things, Table.mem_refs] at absent
        rw [holders, Table.get_of_size_le _ absent]
        rfl
  exact Nat.ne_of_gt (s.isAlive_iff.1 alive) none

theorem mem_living (counted : h.isOnActor = false) : h ∈ s.living ↔ s.isAlive h = true := by
  rw [living, List.mem_filter]
  exact ⟨And.right, fun alive => ⟨mem_things_of_isAlive counted alive, alive⟩⟩

theorem isOnActor_of_mem_living (mem : h ∈ s.living) : h.isOnActor = false := by
  have added := (List.mem_filter.1 mem).1
  cases h with
  | actor a => simp [things] at added
  | timeline _ | alpha _ | core _ | behaviour _ => rfl

theorem nodup_living (s : Stage) : s.living.Nodup := by
  apply List.Nodup.filter
  have kind {k : Kind} (t : List (Ref k)) (nodup : t.Nodup) {f : Ref k → Handle}
      (injective : ∀ r r', f r = f r' → r = r') : (t.map f).Nodup :=
    nodup.map fun _ _ same => injective _ _ same
  unfold things
  refine (((kind _ s.timelines.nodup_refs fun _ _ => Handle.timeline.inj).append
    (kind _ s.alphas.nodup_refs fun _ _ => Handle.alpha.inj) ?_).append
    (kind _ s.cores.nodup_refs fun _ _ => Handle.core.inj) ?_).append
    (kind _ s.behaviours.nodup_refs fun _ _ => Handle.behaviour.inj) ?_
  all_goals
    intro h mem mem'
    simp only [List.mem_append, List.mem_map] at mem mem'
    obtain ⟨_, _, rfl⟩ := mem'
    simp at mem

/-- What is kept is kept by one thing or by the others. -/
theorem count_kept (s : Stage) (h x : Handle) :
    s.kept.count x = (s.keepsNow h).count x + (s.keptBeside h).count x := by
  by_cases mem : h ∈ s.living
  · have alive := (mem_living (isOnActor_of_mem_living mem)).1 mem
    have first : s.living.Perm (h :: s.living.filter (· != h)) := by
      rw [← s.nodup_living.erase_eq_filter]
      exact List.perm_cons_erase mem
    rw [kept, (first.flatMap_right s.keeps).count_eq, List.flatMap_cons, List.count_append,
      keepsNow, if_pos alive, keptBeside]
  · have nothing : s.keepsNow h = [] := by
      unfold keepsNow
      split
      · next alive =>
          cases h with
          | actor a => rfl
          | timeline _ | alpha _ | core _ | behaviour _ =>
              exact absurd ((mem_living rfl).2 alive) mem
      · rfl
    have all : s.living.filter (· != h) = s.living := by
      refine List.filter_eq_self.2 fun x hx => ?_
      rw [bne_iff_ne]
      rintro rfl
      exact mem hx
    rw [nothing, keptBeside, all, List.count_nil, Nat.zero_add, kept]

/-- Two stages are alike but for one thing: there are as many handles on all others, which keep
what they kept. -/
structure AlikeBeside (h : Handle) (s s' : Stage) : Prop where
  holders : ∀ x, x.isOnActor = false → x ≠ h → s'.holders x = s.holders x
  keeps : ∀ x, x ≠ h → s.isAlive x = true → s'.keeps x = s.keeps x

theorem AlikeBeside.perm (alike : AlikeBeside h s s') :
    (s'.keptBeside h).Perm (s.keptBeside h) := by
  have others : (s'.living.filter (· != h)).Perm (s.living.filter (· != h)) := by
    refine (List.perm_ext_iff_of_nodup (s'.nodup_living.filter _) (s.nodup_living.filter _)).2
      fun x => ?_
    simp only [List.mem_filter, bne_iff_ne, and_congr_left_iff]
    intro ne
    by_cases counted : x.isOnActor = false
    · rw [mem_living counted, mem_living counted, isAlive_iff, isAlive_iff,
        alike.holders x counted ne]
    · exact ⟨fun mem => absurd (isOnActor_of_mem_living mem) counted,
        fun mem => absurd (isOnActor_of_mem_living mem) counted⟩
  refine (others.flatMap_right s'.keeps).trans (.of_eq ?_)
  refine List.flatMap_congr fun x mem => ?_
  obtain ⟨living, ne⟩ := List.mem_filter.1 mem
  exact alike.keeps x (bne_iff_ne.1 ne) ((mem_living (isOnActor_of_mem_living living)).1 living)

/-! ## The balance -/

/-- On each thing there are as many handles as are had by name and as are kept by things that are
alive. -/
def Balanced (s : Stage) (named : List Handle) : Prop :=
  ∀ h, h.isOnActor = false → s.holders h = named.count h + s.kept.count h

variable {named named' : List Handle}

/-- Where one thing changes, what becomes of the handles on it and of those that it keeps has to
be made up for by name. -/
theorem Balanced.alter (balanced : s.Balanced named) (alike : AlikeBeside h s s')
    (settled : ∀ x, x.isOnActor = false →
      named'.count x + (s'.keepsNow h).count x + s.holders x =
        named.count x + (s.keepsNow h).count x + s'.holders x) : s'.Balanced named' := by
  intro x counted
  have before := balanced x counted
  have others := alike.perm.count_eq x
  have change := settled x counted
  rw [s.count_kept h] at before
  rw [s'.count_kept h]
  omega

theorem Balanced.perm (balanced : s.Balanced named) (perm : named.Perm named') :
    s.Balanced named' := by
  intro h counted
  rw [balanced h counted, perm.count_eq]

/-- The same handles are counted and kept. -/
theorem Balanced.congr (balanced : s.Balanced named)
    (holders : ∀ h, h.isOnActor = false → s'.holders h = s.holders h)
    (keeps : ∀ h, s'.keeps h = s.keeps h) : s'.Balanced named := by
  refine balanced.alter (h := .actor ⟨0⟩) ⟨fun x counted _ => holders x counted,
    fun x _ _ => keeps x⟩ fun x counted => ?_
  have nothing (s : Stage) : s.keepsNow (.actor ⟨0⟩) = [] := ite_self _
  rw [holders x counted, nothing, nothing]

theorem Balanced.isAlive_of_mem (balanced : s.Balanced named) (counted : h.isOnActor = false)
    (mem : h ∈ named) : s.isAlive h = true := by
  have count := balanced h counted
  have pos := List.count_pos_iff.2 mem
  rw [isAlive_iff]
  omega

/-- A thing is alive exactly if there is a handle on it by name or with a thing that is alive. -/
theorem Balanced.isAlive_iff_mem (balanced : s.Balanced named) (counted : h.isOnActor = false) :
    s.isAlive h = true ↔
      h ∈ named ∨ ∃ x, x.isOnActor = false ∧ s.isAlive x = true ∧ h ∈ s.keeps x := by
  have kept : h ∈ s.kept ↔ ∃ x, x.isOnActor = false ∧ s.isAlive x = true ∧ h ∈ s.keeps x := by
    rw [Stage.kept, List.mem_flatMap]
    refine exists_congr fun x => ⟨fun ⟨mem, keeps⟩ => ?_, fun ⟨counted, alive, keeps⟩ => ?_⟩
    · have counted := isOnActor_of_mem_living mem
      exact ⟨counted, (mem_living counted).1 mem, keeps⟩
    · exact ⟨(mem_living counted).2 alive, keeps⟩
  rw [← kept, ← List.count_pos_iff, ← List.count_pos_iff, isAlive_iff, balanced h counted]
  omega

theorem Balanced.isAlive_of_keeps (balanced : s.Balanced named) (counted : h.isOnActor = false)
    {x : Handle} (counted' : x.isOnActor = false) (alive : s.isAlive x = true)
    (mem : h ∈ s.keeps x) : s.isAlive h = true :=
  (balanced.isAlive_iff_mem counted).2 (.inr ⟨x, counted', alive, mem⟩)

theorem Rehandled.boundAlpha?_eq (r : s.Rehandled s') (c : Ref .core) :
    s'.boundAlpha? c = s.boundAlpha? c := by
  rw [boundAlpha?, r.binding, boundAlpha?]

theorem Rehandled.keeps (r : s.Rehandled s') (h : Handle) : s'.keeps h = s.keeps h := by
  cases h with
  | behaviour b => exact congrArg (fun c => [Handle.core c]) (r.coreOf b)
  | core c => simp only [Stage.keeps, r.boundAlpha?_eq]
  | alpha a => exact congrArg (fun t => [Handle.timeline t]) (r.timelineOf a)
  | timeline _ | actor _ => rfl

theorem Balanced.retain (balanced : s.Balanced named) (alive : s.isAlive h = true) :
    (s.retain h).Balanced (h :: named) := by
  have keeps := (s.rehandled_retain h).keeps
  have alive' : (s.retain h).isAlive h = true := by
    rw [isAlive_iff, holders_retain, if_pos rfl]
    exact Nat.succ_pos _
  refine balanced.alter (h := h) ⟨fun x _ ne => ?_, fun x _ _ => keeps x⟩ fun x _ => ?_
  · rw [holders_retain, if_neg (Ne.symm ne), Nat.add_zero]
  · rw [keepsNow, keepsNow, if_pos alive, if_pos alive', keeps, holders_retain, List.count_cons]
    simp only [beq_iff_eq]
    omega

/-- Handles that are had by name, or on things that are alive, are taken once more. -/
theorem Balanced.retainAll (balanced : s.Balanced named) {handles : List Handle}
    (alive : ∀ h ∈ handles, s.isAlive h = true) :
    (s.retainAll handles).Balanced (handles ++ named) := by
  induction handles generalizing s named with
  | nil => exact balanced
  | cons h rest ih =>
      have rest_alive : ∀ x ∈ rest, (s.retainAll [h]).isAlive x = true := fun x mem =>
        isAlive_retainAll (alive x (List.mem_cons_of_mem _ mem))
      refine (ih (balanced.retain (alive h (List.mem_cons_self ..))) rest_alive).perm ?_
      exact List.perm_middle

/-- One handle fewer on a thing, whatever the thing keeps. -/
def lower (s : Stage) : Handle → Stage
  | .timeline t => s.modifyTimeline t fun row => { row with holders := row.holders - 1 }
  | .alpha a => s.modifyAlpha a fun row => { row with holders := row.holders - 1 }
  | .core c => s.modifyCore c fun row => { row with holders := row.holders - 1 }
  | .behaviour b => s.modifyBehaviour b fun row => { row with holders := row.holders - 1 }
  | .actor a => s.modifyActor a fun row => { row with holders := row.holders - 1 }

theorem rehandled_lower (s : Stage) (h : Handle) : s.Rehandled (s.lower h) := by
  cases h with
  | timeline t => exact .modifyTimeline s (· - 1) t
  | alpha a => exact .modifyAlpha s (· - 1) a
  | core c => exact .modifyCore s (· - 1) c
  | behaviour b => exact .modifyBehaviour s (· - 1) b
  | actor a => exact .modifyActor s (· - 1) a

theorem holders_lower (s : Stage) (h x : Handle) :
    (s.lower h).holders x = s.holders x - if h = x then 1 else 0 := by
  cases h <;> cases x <;>
    simp [lower, holders, modifyTimeline, modifyAlpha, modifyCore, modifyBehaviour, modifyActor,
      Table.get_modify] <;>
    split <;> simp_all

/-- With the last handle on a thing those are given up that the thing keeps. -/
theorem release_eq (s : Stage) (h : Handle) :
    s.release h =
      if s.holders h = 1 then (s.lower h).releaseAll (s.keeps h) else s.lower h := by
  cases h with
  | timeline _ | actor _ => exact (ite_self _).symm
  | alpha _ | behaviour _ => rfl
  | core c =>
      show s.releaseCore c = _
      unfold releaseCore
      simp only [keeps, boundAlpha?]
      cases (s.cores.get c).binding with
      | none => exact (ite_self _).symm
      | some binding => rfl

/-- A handle less by name, and with the last one those by name instead that the thing kept. -/
theorem Balanced.lower (balanced : s.Balanced (h :: named)) :
    (s.lower h).Balanced ((if s.holders h = 1 then s.keeps h else []) ++ named) := by
  have keeps := (s.rehandled_lower h).keeps
  refine balanced.alter (h := h) ⟨fun x _ ne => ?_, fun x _ _ => keeps x⟩ fun x counted => ?_
  · rw [holders_lower, if_neg (Ne.symm ne), Nat.sub_zero]
  · have before : h = x → 0 < s.holders x := by
      rintro rfl
      exact s.isAlive_iff.1 (balanced.isAlive_of_mem counted (List.mem_cons_self ..))
    have here : (if h = x then 1 else 0) + (s.lower h).holders x = s.holders x := by
      rw [holders_lower]
      split
      · next same => have := before same; omega
      · omega
    -- what becomes of the handles that the thing keeps itself
    have passed : (if s.holders h = 1 then s.keeps h else []).count x +
        ((s.lower h).keepsNow h).count x = (s.keepsNow h).count x := by
      have left : (s.lower h).holders h = s.holders h - 1 := by rw [holders_lower, if_pos rfl]
      have alive : s.isAlive h = true ↔ 0 < s.holders h := s.isAlive_iff
      have alive' : (s.lower h).isAlive h = true ↔ 0 < s.holders h - 1 := by rw [isAlive_iff, left]
      rw [keepsNow, keepsNow, keeps, if_congr alive rfl rfl, if_congr alive' rfl rfl]
      by_cases last : s.holders h = 1
      · simp [last]
      · have still : 0 < s.holders h - 1 ↔ 0 < s.holders h := by omega
        rw [if_neg last, List.count_nil, Nat.zero_add, if_congr still rfl rfl]
    simp only [List.count_append, List.count_cons, beq_iff_eq]
    omega

/-- A handle is given up that was had by name, if those can be given up that the thing keeps. -/
theorem Balanced.release_of (balanced : s.Balanced (h :: named))
    (cascade : ∀ x ∈ s.keeps h, ∀ {s : Stage} {named : List Handle},
      s.Balanced (x :: named) → (s.release x).Balanced named) : (s.release h).Balanced named := by
  have lowered := balanced.lower
  rw [release_eq]
  split
  · next last =>
      rw [if_pos last] at lowered
      revert lowered cascade
      generalize s.keeps h = handles
      generalize s.lower h = s'
      intro cascade lowered
      induction handles generalizing s' with
      | nil => exact lowered
      | cons x rest ih =>
          exact ih _ (fun y mem => cascade y (List.mem_cons_of_mem _ mem))
            (cascade x (List.mem_cons_self ..) lowered)
  · next others =>
      rw [if_neg others] at lowered
      exact lowered

/-- To give up a handle that was had by name keeps the balance, whatever goes with it: things keep
handles on cores, cores on alphas, and alphas on timelines, so that it comes to an end. -/
theorem Balanced.release (balanced : s.Balanced (h :: named)) : (s.release h).Balanced named := by
  have timeline (t : Ref .timeline) {s : Stage} {named : List Handle}
      (balanced : s.Balanced (.timeline t :: named)) : (s.release (.timeline t)).Balanced named :=
    balanced.release_of nofun
  have alpha (a : Ref .alpha) {s : Stage} {named : List Handle}
      (balanced : s.Balanced (.alpha a :: named)) : (s.release (.alpha a)).Balanced named := by
    refine balanced.release_of fun x mem => ?_
    cases List.mem_singleton.1 mem
    exact timeline _
  have core (c : Ref .core) {s : Stage} {named : List Handle}
      (balanced : s.Balanced (.core c :: named)) : (s.release (.core c)).Balanced named := by
    refine balanced.release_of fun x mem => ?_
    obtain ⟨a, -, rfl⟩ := Option.map_eq_some_iff.1 (Option.mem_toList.1 mem)
    exact alpha a
  cases h with
  | timeline t => exact timeline t balanced
  | alpha a => exact alpha a balanced
  | core c => exact core c balanced
  | behaviour b =>
      refine balanced.release_of fun x mem => ?_
      cases List.mem_singleton.1 mem
      exact core _
  | actor a => exact balanced.release_of nofun

theorem Balanced.releaseAll {handles : List Handle} (balanced : s.Balanced (handles ++ named)) :
    (s.releaseAll handles).Balanced named := by
  induction handles generalizing s with
  | nil => exact balanced
  | cons h rest ih => exact ih (s := s.release h) balanced.release

/-- A thing is added, with one handle by name. What it keeps was had by name. -/
theorem Balanced.add (balanced : s.Balanced (s'.keeps h ++ named)) (counted : h.isOnActor = false)
    (new : s.holders h = 0)
    (holders : ∀ x, x.isOnActor = false → s'.holders x = if x = h then 1 else s.holders x)
    (keeps : ∀ x, x ≠ h → s'.keeps x = s.keeps x) : s'.Balanced (h :: named) := by
  have dead : s.isAlive h = false := by
    rw [Bool.eq_false_iff, Ne, isAlive_iff, new]
    exact Nat.lt_irrefl 0
  have alive : s'.isAlive h = true := by
    rw [isAlive_iff, holders h counted, if_pos rfl]
    exact Nat.one_pos
  refine balanced.alter (h := h) ⟨fun x counted ne => ?_, fun x ne _ => keeps x ne⟩
    fun x counted => ?_
  · rw [holders x counted, if_neg ne]
  · rw [keepsNow, alive, keepsNow, dead, holders x counted]
    simp only [List.count_append, List.count_cons, beq_iff_eq, if_true, Bool.false_eq_true,
      if_false, List.count_nil, eq_comm (a := h)]
    split
    · next same => rw [same, new]; omega
    · omega

section Additions

variable (s)

theorem holders_next {k : Kind} {α : Type} [Inhabited α] (t : Table k α) (count : α → Nat)
    (none : count default = 0) : count (t.get t.next) = 0 := by
  rw [Table.get_next, none]

theorem Balanced.addTimeline (balanced : s.Balanced named) (duration : Nat) :
    (s.addTimeline duration).1.Balanced (.timeline (s.addTimeline duration).2 :: named) := by
  refine Balanced.add (s := s) balanced rfl (holders_next s.timelines Timeline.holders rfl)
    (fun x _ => ?_) fun x _ => ?_
  · cases x <;> simp only [holders, Stage.addTimeline, addEmitter, Table.get_push,
      Handle.timeline.injEq, reduceCtorEq, if_false]
    split <;> rfl
  · cases x <;> rfl

theorem Balanced.addCore (balanced : s.Balanced named) :
    s.addCore.1.Balanced (.core s.addCore.2 :: named) := by
  have binding := (Loosens.addCore s).binding
  have unbound : s.addCore.1.keeps (.core s.addCore.2) = [] := by
    simp only [keeps, boundAlpha?, binding]
    exact congrArg (fun row : Core => ((row.binding.map _).map _).toList) s.cores.get_next
  refine Balanced.add (s := s) (by rw [unbound]; exact balanced) rfl
    (holders_next s.cores Core.holders rfl) (fun x _ => ?_) fun x _ => ?_
  · cases x <;> simp only [holders, Stage.addCore, addNotifier, Table.get_push,
      Handle.core.injEq, reduceCtorEq, if_false]
    split <;> rfl
  · cases x with
    | core c => simp only [keeps, boundAlpha?, binding]
    | timeline _ | alpha _ | behaviour _ | actor _ => rfl

theorem Balanced.addAlpha (balanced : s.Balanced named) {t : Ref .timeline}
    (alive : s.isAlive (.timeline t) = true) (easing : Easing) :
    (s.addAlpha t easing).1.Balanced (.alpha (s.addAlpha t easing).2 :: named) := by
  have follows : (s.addAlpha t easing).1.keeps (.alpha (s.addAlpha t easing).2) =
      [.timeline t] := by
    simp [keeps, timelineOf, Stage.addAlpha]
  refine Balanced.add (s := s.retain (.timeline t)) (by rw [follows]; exact balanced.retain alive)
    rfl (holders_next s.alphas Alpha.holders rfl) (fun x _ => ?_) fun x ne => ?_
  · cases x with
    | alpha a =>
        simp only [holders, Stage.addAlpha, Table.get_push, Handle.alpha.injEq]
        split <;> rfl
    | timeline _ | core _ | behaviour _ | actor _ => rfl
  · cases x with
    | alpha a =>
        have other : a ≠ s.alphas.next := fun same => ne (congrArg Handle.alpha same)
        simp only [keeps, timelineOf, Stage.addAlpha, Table.get_push]
        rw [if_neg (show ¬a = (s.retain (.timeline t)).alphas.next from other)]
    | timeline _ | core _ | behaviour _ | actor _ => rfl

theorem Balanced.addBehaviour (balanced : s.Balanced named) (drive : Drive) :
    (s.addBehaviour drive).1.Balanced (.behaviour (s.addBehaviour drive).2 :: named) := by
  have core : (s.addBehaviour drive).1.keeps (.behaviour (s.addBehaviour drive).2) =
      [.core s.addCore.2] := by
    simp [keeps, coreOf, Stage.addBehaviour, Stage.addCore, addNotifier]
  refine Balanced.add (s := s.addCore.1) (by rw [core]; exact balanced.addCore) rfl
    (holders_next s.behaviours Behaviour.holders rfl) (fun x _ => ?_) fun x ne => ?_
  · cases x with
    | behaviour b =>
        simp only [holders, Stage.addBehaviour, Table.get_push, Handle.behaviour.injEq]
        split <;> rfl
    | timeline _ | alpha _ | core _ | actor _ => rfl
  · cases x with
    | behaviour b =>
        have other : b ≠ s.behaviours.next := fun same => ne (congrArg Handle.behaviour same)
        simp only [keeps, coreOf, Stage.addBehaviour, Table.get_push]
        rw [if_neg]
        exact other
    | timeline _ | alpha _ | core _ | actor _ => rfl

end Additions

/-- A core is bound to another alpha: it keeps a handle that was had by name, and the one that it
kept is had by name. -/
theorem Balanced.setBinding (c : Ref .core) (binding : Option Binding)
    (balanced : s.Balanced (((binding.map (·.alpha)).map Handle.alpha).toList ++ named))
    (alive : s.isAlive (.core c) = true) :
    (s.setBinding c binding).Balanced (s.keeps (.core c) ++ named) := by
  have same (x : Handle) : (s.setBinding c binding).holders x = s.holders x := by
    cases x with
    | core c' => exact Table.proj_get_modify _ c c' (g := Core.holders) fun _ => rfl
    | timeline _ | alpha _ | behaviour _ | actor _ => rfl
  have bound : (s.setBinding c binding).keeps (.core c) =
      ((binding.map (·.alpha)).map Handle.alpha).toList := by
    simp [keeps, boundAlpha?, Stage.setBinding, modifyCore]
  refine balanced.alter (h := .core c) ⟨fun x _ _ => same x, fun x ne _ => ?_⟩ fun x _ => ?_
  · cases x with
    | core c' =>
        have other : c ≠ c' := fun same => ne (congrArg Handle.core same.symm)
        simp only [keeps, boundAlpha?, Stage.setBinding, modifyCore,
          Table.get_modify_of_ne _ _ other]
    | timeline _ | alpha _ | behaviour _ | actor _ => rfl
  · have alive' : (s.setBinding c binding).isAlive (.core c) = true := by
      rw [isAlive_iff, same]
      exact s.isAlive_iff.1 alive
    rw [keepsNow, if_pos alive', keepsNow, if_pos alive, bound, same]
    simp only [List.count_append]
    omega

/-- The entries that a timeline keeps of behaviours are no handles. -/
theorem Balanced.modifyTimeline (balanced : s.Balanced named) (t : Ref .timeline)
    {f : Timeline → Timeline} (holders : ∀ row, (f row).holders = row.holders) :
    (s.modifyTimeline t f).Balanced named := by
  refine balanced.congr (fun x _ => ?_) fun x => ?_
  · cases x with
    | timeline u => exact Table.proj_get_modify _ t u holders
    | alpha _ | core _ | behaviour _ | actor _ => rfl
  · cases x <;> rfl

theorem Balanced.unbind (balanced : s.Balanced named) {c : Ref .core}
    (alive : s.isAlive (.core c) = true) : (s.unbind c).Balanced named := by
  unfold Stage.unbind
  split
  · exact balanced
  · next a entry bound =>
      have detached : (s.detach (s.timelineOf a) [entry]).Balanced named :=
        balanced.modifyTimeline _ fun _ => rfl
      have unbound := Balanced.setBinding c none detached alive
      have kept : (s.detach (s.timelineOf a) [entry]).keeps (.core c) = [.alpha a] := by
        simp only [keeps, boundAlpha?, detach, Stage.modifyTimeline, bound]
        rfl
      rw [kept] at unbound
      exact unbound.release

theorem Balanced.rebind (balanced : s.Balanced named) {b : Ref .behaviour}
    {alpha : Option (Ref .alpha)} (hb : s.isAlive (.behaviour b) = true)
    (ha : ∀ a, alpha = some a → s.isAlive (.alpha a) = true) :
    (s.rebind b alpha).Balanced named := by
  have core {s : Stage} {named : List Handle} (balanced : s.Balanced named)
      (hb : s.isAlive (.behaviour b) = true) : s.isAlive (.core (s.coreOf b)) = true :=
    balanced.isAlive_of_keeps rfl rfl hb (List.mem_singleton_self _)
  cases alpha with
  | none => exact balanced.unbind (core balanced hb)
  | some a =>
      have held := balanced.retain (ha a rfl)
      have freed := held.unbind (core held hb)
      have alive : ((s.retain (.alpha a)).unbind (s.coreOf b)).isAlive (.behaviour b) = true :=
        (isAlive_unbind ..).2 hb
      have bound := core freed alive
      rw [coreOf_unbind] at bound
      let freedStage := (s.retain (.alpha a)).unbind (s.coreOf b)
      have attached : (freedStage.attach (freedStage.timelineOf a) b).1.Balanced
          (.alpha a :: named) := freed.modifyTimeline _ fun _ => rfl
      have tied := Balanced.setBinding (s.coreOf b)
        (some ⟨a, (freedStage.attach (freedStage.timelineOf a) b).2⟩) attached bound
      have none : (freedStage.attach (freedStage.timelineOf a) b).1.keeps (.core (s.coreOf b)) =
          [] := by
        have unbound := bindingOf_unbind (s.retain (.alpha a)) b
        rw [bindingOf, coreOf_unbind] at unbound
        exact congrArg (fun binding : Option Binding =>
          ((binding.map (·.alpha)).map Handle.alpha).toList) unbound
      rw [none] at tied
      exact tied

end Stage

end Animation
