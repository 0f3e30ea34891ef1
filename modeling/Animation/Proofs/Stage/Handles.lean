/-
# Taking and giving up handles

To take handles, or to give them up, changes how many handles there are on things and
nothing else. Taking one changes one count; giving one up can change others too, of the
things that go with the thing, but makes none of them larger. Handles on actors and on
behaviours are only ever given up one at a time.
-/

import Animation.Stage.Holding
import Mathlib.Order.Basic

namespace Animation.Stage

/-- Two stages that differ at most in how many handles there are on things. -/
structure Rehandled (s s' : Stage) : Prop where
  timeline : ∀ t, ∃ n, s'.timelines.get t = { s.timelines.get t with holders := n }
  alpha : ∀ a, ∃ n, s'.alphas.get a = { s.alphas.get a with holders := n }
  core : ∀ c, ∃ n, s'.cores.get c = { s.cores.get c with holders := n }
  behaviour : ∀ b, ∃ n, s'.behaviours.get b = { s.behaviours.get b with holders := n }
  actor : ∀ a, ∃ n, s'.actors.get a = { s.actors.get a with holders := n }
  timelines_size : s.timelines.size ≤ s'.timelines.size
  alphas_size : s.alphas.size ≤ s'.alphas.size
  cores_size : s.cores.size ≤ s'.cores.size
  behaviours_size : s.behaviours.size ≤ s'.behaviours.size
  notifiers : s'.notifiers = s.notifiers
  emitters : s'.emitters = s.emitters
  tasks : s'.tasks = s.tasks
  agenda : s'.agenda = s.agenda
  journal : s'.journal = s.journal

namespace Rehandled

theorem refl (s : Stage) : s.Rehandled s where
  timeline _ := ⟨_, rfl⟩
  alpha _ := ⟨_, rfl⟩
  core _ := ⟨_, rfl⟩
  behaviour _ := ⟨_, rfl⟩
  actor _ := ⟨_, rfl⟩
  timelines_size := Nat.le_refl _
  alphas_size := Nat.le_refl _
  cores_size := Nat.le_refl _
  behaviours_size := Nat.le_refl _
  notifiers := rfl
  emitters := rfl
  tasks := rfl
  agenda := rfl
  journal := rfl

theorem trans {s₁ s₂ s₃ : Stage} (h : s₁.Rehandled s₂) (h' : s₂.Rehandled s₃) :
    s₁.Rehandled s₃ where
  timeline t := by
    obtain ⟨n, e⟩ := h.timeline t
    obtain ⟨n', e'⟩ := h'.timeline t
    exact ⟨n', by rw [e', e]⟩
  alpha a := by
    obtain ⟨n, e⟩ := h.alpha a
    obtain ⟨n', e'⟩ := h'.alpha a
    exact ⟨n', by rw [e', e]⟩
  core c := by
    obtain ⟨n, e⟩ := h.core c
    obtain ⟨n', e'⟩ := h'.core c
    exact ⟨n', by rw [e', e]⟩
  behaviour b := by
    obtain ⟨n, e⟩ := h.behaviour b
    obtain ⟨n', e'⟩ := h'.behaviour b
    exact ⟨n', by rw [e', e]⟩
  actor a := by
    obtain ⟨n, e⟩ := h.actor a
    obtain ⟨n', e'⟩ := h'.actor a
    exact ⟨n', by rw [e', e]⟩
  timelines_size := Nat.le_trans h.timelines_size h'.timelines_size
  alphas_size := Nat.le_trans h.alphas_size h'.alphas_size
  cores_size := Nat.le_trans h.cores_size h'.cores_size
  behaviours_size := Nat.le_trans h.behaviours_size h'.behaviours_size
  notifiers := h'.notifiers.trans h.notifiers
  emitters := h'.emitters.trans h.emitters
  tasks := h'.tasks.trans h.tasks
  agenda := h'.agenda.trans h.agenda
  journal := h'.journal.trans h.journal

variable (s : Stage) (count : Nat → Nat)

theorem modifyTimeline (t : Ref .timeline) :
    s.Rehandled (s.modifyTimeline t fun row => { row with holders := count row.holders }) where
  __ := refl s
  timeline u := by
    simp only [Stage.modifyTimeline, Table.get_modify]
    split
    · next e => exact ⟨_, by rw [e]⟩
    · exact ⟨_, rfl⟩
  timelines_size := Table.size_le_size_modify ..

theorem modifyAlpha (a : Ref .alpha) :
    s.Rehandled (s.modifyAlpha a fun row => { row with holders := count row.holders }) where
  __ := refl s
  alpha u := by
    simp only [Stage.modifyAlpha, Table.get_modify]
    split
    · next e => exact ⟨_, by rw [e]⟩
    · exact ⟨_, rfl⟩
  alphas_size := Table.size_le_size_modify ..

theorem modifyCore (c : Ref .core) :
    s.Rehandled (s.modifyCore c fun row => { row with holders := count row.holders }) where
  __ := refl s
  core u := by
    simp only [Stage.modifyCore, Table.get_modify]
    split
    · next e => exact ⟨_, by rw [e]⟩
    · exact ⟨_, rfl⟩
  cores_size := Table.size_le_size_modify ..

theorem modifyBehaviour (b : Ref .behaviour) :
    s.Rehandled (s.modifyBehaviour b fun row => { row with holders := count row.holders }) where
  __ := refl s
  behaviour u := by
    simp only [Stage.modifyBehaviour, Table.get_modify]
    split
    · next e => exact ⟨_, by rw [e]⟩
    · exact ⟨_, rfl⟩
  behaviours_size := Table.size_le_size_modify ..

theorem modifyActor (a : Ref .actor) :
    s.Rehandled (s.modifyActor a fun row => { row with holders := count row.holders }) where
  __ := refl s
  actor u := by
    simp only [Stage.modifyActor, Table.get_modify]
    split
    · next e => exact ⟨_, by rw [e]⟩
    · exact ⟨_, rfl⟩

end Rehandled

variable (s : Stage)

theorem rehandled_retain (h : Handle) : s.Rehandled (s.retain h) := by
  cases h with
  | timeline t => exact .modifyTimeline s (· + 1) t
  | alpha a => exact .modifyAlpha s (· + 1) a
  | core c => exact .modifyCore s (· + 1) c
  | behaviour b => exact .modifyBehaviour s (· + 1) b
  | actor a => exact .modifyActor s (· + 1) a

theorem rehandled_releaseAlpha (a : Ref .alpha) : s.Rehandled (s.releaseAlpha a) := by
  have first := Rehandled.modifyAlpha s (· - 1) a
  unfold releaseAlpha
  dsimp only
  split
  · exact first.trans (.modifyTimeline _ (· - 1) _)
  · exact first

theorem rehandled_releaseCore (c : Ref .core) : s.Rehandled (s.releaseCore c) := by
  have first := Rehandled.modifyCore s (· - 1) c
  unfold releaseCore
  dsimp only
  split
  · split
    · exact first.trans (rehandled_releaseAlpha _ _)
    · exact first
  · exact first

theorem rehandled_releaseBehaviour (b : Ref .behaviour) :
    s.Rehandled (s.releaseBehaviour b) := by
  have first := Rehandled.modifyBehaviour s (· - 1) b
  unfold releaseBehaviour
  dsimp only
  split
  · exact first.trans (rehandled_releaseCore _ _)
  · exact first

theorem rehandled_release (h : Handle) : s.Rehandled (s.release h) := by
  cases h with
  | timeline t => exact .modifyTimeline s (· - 1) t
  | alpha a => exact s.rehandled_releaseAlpha a
  | core c => exact s.rehandled_releaseCore c
  | behaviour b => exact s.rehandled_releaseBehaviour b
  | actor a => exact .modifyActor s (· - 1) a

theorem rehandled_retainAll (handles : List Handle) : s.Rehandled (s.retainAll handles) := by
  induction handles generalizing s with
  | nil => exact .refl s
  | cons h rest ih => exact (s.rehandled_retain h).trans (ih _)

theorem rehandled_releaseAll (handles : List Handle) : s.Rehandled (s.releaseAll handles) := by
  induction handles generalizing s with
  | nil => exact .refl s
  | cons h rest ih => exact (s.rehandled_release h).trans (ih _)

theorem isAlive_iff {h : Handle} : s.isAlive h = true ↔ 0 < s.holders h := decide_eq_true_iff

theorem holders_retain (h h' : Handle) :
    (s.retain h).holders h' = s.holders h' + if h = h' then 1 else 0 := by
  cases h <;> cases h' <;>
    simp [retain, holders, modifyTimeline, modifyAlpha, modifyCore, modifyBehaviour, modifyActor,
      Table.get_modify] <;>
    split <;> simp_all

theorem holders_releaseTimeline_le (t : Ref .timeline) (h : Handle) :
    (s.releaseTimeline t).holders h ≤ s.holders h := by
  cases h <;> simp [releaseTimeline, holders, modifyTimeline, Table.get_modify]
  split <;> simp_all

theorem holders_releaseAlpha_le (a : Ref .alpha) (h : Handle) :
    (s.releaseAlpha a).holders h ≤ s.holders h := by
  have first : (s.modifyAlpha a fun row => { row with holders := row.holders - 1 }).holders h ≤
      s.holders h := by
    cases h <;> simp [holders, modifyAlpha, Table.get_modify]
    split <;> simp_all
  unfold releaseAlpha
  dsimp only
  split
  · exact Nat.le_trans (holders_releaseTimeline_le _ _ _) first
  · exact first

theorem holders_releaseCore_le (c : Ref .core) (h : Handle) :
    (s.releaseCore c).holders h ≤ s.holders h := by
  have first : (s.modifyCore c fun row => { row with holders := row.holders - 1 }).holders h ≤
      s.holders h := by
    cases h <;> simp [holders, modifyCore, Table.get_modify]
    split <;> simp_all
  unfold releaseCore
  dsimp only
  split
  · split
    · exact Nat.le_trans (holders_releaseAlpha_le _ _ _) first
    · exact first
  · exact first

theorem holders_release_le (h h' : Handle) : (s.release h).holders h' ≤ s.holders h' := by
  cases h with
  | timeline t => exact s.holders_releaseTimeline_le t h'
  | alpha a => exact s.holders_releaseAlpha_le a h'
  | core c => exact s.holders_releaseCore_le c h'
  | behaviour b =>
      have first : (s.modifyBehaviour b fun row =>
          { row with holders := row.holders - 1 }).holders h' ≤ s.holders h' := by
        cases h' <;> simp [holders, modifyBehaviour, Table.get_modify]
        split <;> simp_all
      show (s.releaseBehaviour b).holders h' ≤ s.holders h'
      unfold releaseBehaviour
      dsimp only
      split
      · exact Nat.le_trans (holders_releaseCore_le _ _ _) first
      · exact first
  | actor a =>
      cases h' <;> simp [release, releaseActor, holders, modifyActor, Table.get_modify]
      split <;> simp_all

/-- Neither an alpha nor a core has handles on actors or on behaviours. -/
theorem actors_releaseAlpha (a : Ref .alpha) : (s.releaseAlpha a).actors = s.actors := by
  unfold releaseAlpha
  dsimp only
  split <;> rfl

theorem actors_releaseCore (c : Ref .core) : (s.releaseCore c).actors = s.actors := by
  unfold releaseCore
  dsimp only
  split
  · split
    · exact actors_releaseAlpha _ _
    · rfl
  · rfl

theorem actors_releaseBehaviour (b : Ref .behaviour) :
    (s.releaseBehaviour b).actors = s.actors := by
  unfold releaseBehaviour
  dsimp only
  split
  · exact actors_releaseCore _ _
  · rfl

theorem behaviours_releaseAlpha (a : Ref .alpha) :
    (s.releaseAlpha a).behaviours = s.behaviours := by
  unfold releaseAlpha
  dsimp only
  split <;> rfl

theorem behaviours_releaseCore (c : Ref .core) :
    (s.releaseCore c).behaviours = s.behaviours := by
  unfold releaseCore
  dsimp only
  split
  · split
    · exact behaviours_releaseAlpha _ _
    · rfl
  · rfl

/-- To give up a handle on something gives up none on an actor, unless it is that actor. -/
theorem holders_release_actor (h : Handle) (a : Ref .actor) :
    (s.release h).holders (.actor a) = s.holders (.actor a) - if h = .actor a then 1 else 0 := by
  cases h with
  | timeline t => rfl
  | alpha b => exact congrArg (fun rows => (rows.get a).holders) (s.actors_releaseAlpha b)
  | core c => exact congrArg (fun rows => (rows.get a).holders) (s.actors_releaseCore c)
  | behaviour b => exact congrArg (fun rows => (rows.get a).holders) (s.actors_releaseBehaviour b)
  | actor b =>
      simp only [release, releaseActor, holders, modifyActor, Table.get_modify, Handle.actor.injEq]
      by_cases same : b = a <;> simp [same]

/-- To give up a handle on something gives up none on a behaviour, unless it is that one. -/
theorem holders_release_behaviour (h : Handle) (b : Ref .behaviour) :
    (s.release h).holders (.behaviour b) =
      s.holders (.behaviour b) - if h = .behaviour b then 1 else 0 := by
  cases h with
  | timeline t => rfl
  | alpha a => exact congrArg (fun rows => (rows.get b).holders) (s.behaviours_releaseAlpha a)
  | core c => exact congrArg (fun rows => (rows.get b).holders) (s.behaviours_releaseCore c)
  | behaviour b' =>
      show (s.releaseBehaviour b').holders _ = _
      unfold releaseBehaviour
      dsimp only
      have first : (s.modifyBehaviour b' fun row => { row with holders := row.holders - 1 }).holders
          (.behaviour b) =
          s.holders (.behaviour b) - if Handle.behaviour b' = .behaviour b then 1 else 0 := by
        simp only [holders, modifyBehaviour, Table.get_modify, Handle.behaviour.injEq]
        by_cases same : b' = b <;> simp [same]
      split
      · rw [← first]
        exact congrArg (fun rows => (rows.get b).holders) (behaviours_releaseCore _ _)
      · exact first
  | actor a => rfl

theorem holders_retainAll (handles : List Handle) (h : Handle) :
    (s.retainAll handles).holders h = s.holders h + handles.count h := by
  induction handles generalizing s with
  | nil => rfl
  | cons first rest ih =>
      show ((s.retain first).retainAll rest).holders h = _
      rw [ih, holders_retain, List.count_cons]
      by_cases same : first = h <;> simp [same]
      omega

theorem holders_releaseAll_actor (handles : List Handle) (a : Ref .actor) :
    (s.releaseAll handles).holders (.actor a) =
      s.holders (.actor a) - handles.count (.actor a) := by
  induction handles generalizing s with
  | nil => rfl
  | cons first rest ih =>
      show ((s.release first).releaseAll rest).holders _ = _
      rw [ih, holders_release_actor, List.count_cons]
      by_cases same : first = .actor a <;> simp [same]
      omega

theorem holders_releaseAll_behaviour (handles : List Handle) (b : Ref .behaviour) :
    (s.releaseAll handles).holders (.behaviour b) =
      s.holders (.behaviour b) - handles.count (.behaviour b) := by
  induction handles generalizing s with
  | nil => rfl
  | cons first rest ih =>
      show ((s.release first).releaseAll rest).holders _ = _
      rw [ih, holders_release_behaviour, List.count_cons]
      by_cases same : first = .behaviour b <;> simp [same]
      omega

section Escorted

variable {s} {s' : Stage} {b b' : Ref .behaviour}

/-- If no more handles are given up than added while another one is held, then none is lost. -/
theorem holders_escorted
    (le : (s.retainAll [.behaviour b]).holders (.behaviour b') ≤ s'.holders (.behaviour b')) :
    s.holders (.behaviour b') ≤ (s'.releaseAll [.behaviour b]).holders (.behaviour b') := by
  rw [holders_retainAll] at le
  rw [holders_releaseAll_behaviour]
  omega

/-- A handle on a behaviour that is there brings none back. -/
theorem gone_escorted (alive : s.isAlive (.behaviour b))
    (gone : (s.retainAll [.behaviour b]).isAlive (.behaviour b') = false →
      s'.isAlive (.behaviour b') = false)
    (dead : s.isAlive (.behaviour b') = false) :
    (s'.releaseAll [.behaviour b]).isAlive (.behaviour b') = false := by
  have other : Handle.behaviour b ≠ .behaviour b' := by
    rintro same
    rw [same, dead] at alive
    exact Bool.false_ne_true alive
  have dead' : (s.retainAll [.behaviour b]).isAlive (.behaviour b') = false := by
    rw [isAlive, holders_retainAll, List.count_singleton, beq_false_of_ne other]
    exact dead
  have still := gone dead'
  rw [isAlive, decide_eq_false_iff_not] at still ⊢
  rw [holders_releaseAll_behaviour]
  omega

end Escorted

end Animation.Stage
