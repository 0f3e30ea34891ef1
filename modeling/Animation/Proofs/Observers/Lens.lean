/-
# Bounds that are set and read back

Bounds are offered and read back in double precision and kept in fixed point. What is read back is
the largest multiple of the unit that is not above what was offered. To offer what was read back
changes nothing, and so does to offer anything that lies in the same cells between two multiples of
the unit. Listeners then hear nothing, since news is looked for among the numbers that are kept.
-/

import Animation.Proofs.Behaviours.Samples
import Animation.Proofs.Observers.Refusal

namespace Animation

/-- Bounds as they are read back in double precision. -/
def ScaleBounds.reals (bounds : ScaleBounds) : Corners Double where
  xStart := bounds.x.start.toDouble
  yStart := bounds.y.start.toDouble
  xEnd := bounds.x.finish.toDouble
  yEnd := bounds.y.finish.toDouble

/-- The greatest multiple of the unit that is not above a number. -/
def IsTruncated (d q : Double) : Prop :=
  ∃ v u, d.IsNumber v ∧ q.IsNumber u ∧ IsGreatest {q ∈ unitMultiples | q ≤ v} u

/-- Two numbers with no multiple of the unit between them, of which the lower one counts as below
it. -/
def SameCell (d d' : Double) : Prop :=
  ∃ v v', d.IsNumber v ∧ d'.IsNumber v' ∧ ⌊v * 65536⌋ = ⌊v' * 65536⌋

theorem ConvertsTo.isTruncated {d : Double} {x : Fixed} (h : ConvertsTo d x) (scale : IsScale d) :
    IsTruncated d x.toDouble := by
  obtain ⟨v, number, -⟩ := scale
  exact ⟨v, x.value, number, x.isNumber_toDouble, Fixed.isGreatest_value (h.toRaw_eq v number)⟩

/-- Whatever lies in the cell of a scale is a scale. -/
theorem IsScale.of_sameCell {d d' : Double} (h : IsScale d) (cell : SameCell d d') :
    IsScale d' := by
  obtain ⟨v, number, nonneg, small⟩ := h
  obtain ⟨u, v', number', near, same⟩ := cell
  cases number.unique number'
  have low : 0 ≤ ⌊v * 65536⌋ := Int.floor_nonneg.2 (by positivity)
  have high : ⌊v * 65536⌋ < 2147483648 := Int.floor_lt.2 (by push_cast; linarith)
  rw [same] at low high
  have below := Int.floor_nonneg.1 low
  have above : v' * 65536 < 2147483648 := by exact_mod_cast Int.floor_lt.1 high
  exact ⟨v', near, by linarith, by linarith⟩

/-- Whatever lies in the cell of a number is converted to the same number. -/
theorem ConvertsTo.eq_of_sameCell {d d' : Double} {x x' : Fixed} (h : ConvertsTo d x)
    (h' : ConvertsTo d' x') (cell : SameCell d d') : x' = x := by
  obtain ⟨v, v', number, number', same⟩ := cell
  apply Fixed.toRaw_injective
  rw [h.toRaw_eq v number, h'.toRaw_eq v' number', same]

/-- A fixed point number that is not negative is a scale. -/
theorem Fixed.isScale_toDouble {x : Fixed} (nonneg : 0 ≤ x.toRaw) : IsScale x.toDouble := by
  have fits : x.toRaw < 2147483648 := by
    have fits := x.fits_toRaw
    unfold Fits at fits
    omega
  have low : (0 : ℚ) ≤ x.toRaw := by exact_mod_cast nonneg
  have high : (x.toRaw : ℚ) < 2147483648 := by exact_mod_cast fits
  refine ⟨x.value, x.isNumber_toDouble, ?_, ?_⟩
  · unfold value
    positivity
  · unfold value
    linarith

namespace Corners

variable {c c' : Corners Double}

theorem not_areBad_of_sameCell (good : ¬ c.AreBad) (cells : c.Match SameCell c') :
    ¬ c'.AreBad := by
  rw [not_areBad_iff, forall_mem_toList] at good ⊢
  obtain ⟨xStart, yStart, xEnd, yEnd⟩ := good
  exact ⟨xStart.of_sameCell cells.xStart, yStart.of_sameCell cells.yStart,
    xEnd.of_sameCell cells.xEnd, yEnd.of_sameCell cells.yEnd⟩

theorem eq_of_sameCell {fixed fixed' : Corners Fixed} (h : c.Match ConvertsTo fixed)
    (h' : c'.Match ConvertsTo fixed') (cells : c.Match SameCell c') : fixed' = fixed := by
  obtain ⟨xStart, yStart, xEnd, yEnd⟩ := fixed
  cases h.xStart.eq_of_sameCell h'.xStart cells.xStart
  cases h.yStart.eq_of_sameCell h'.yStart cells.yStart
  cases h.xEnd.eq_of_sameCell h'.xEnd cells.xEnd
  cases h.yEnd.eq_of_sameCell h'.yEnd cells.yEnd
  rfl

/-- What is read back of four scales are the greatest multiples of the unit below them. -/
theorem isTruncated_reals {fixed : Corners Fixed} (good : ¬ c.AreBad)
    (h : c.Match ConvertsTo fixed) : c.Match IsTruncated (ScaleBounds.ofCorners fixed).reals := by
  rw [not_areBad_iff, forall_mem_toList] at good
  obtain ⟨xStart, yStart, xEnd, yEnd⟩ := good
  exact ⟨h.xStart.isTruncated xStart, h.yStart.isTruncated yStart, h.xEnd.isTruncated xEnd,
    h.yEnd.isTruncated yEnd⟩

end Corners

/-- Accepted bounds that are read back are converted to themselves. -/
theorem ScaleBounds.Accepted.toFixed_reals {bounds : ScaleBounds} (h : bounds.Accepted) :
    bounds.reals.toFixed = .ok bounds.corners := by
  have good : ¬ bounds.reals.AreBad := by
    rw [Corners.not_areBad_iff, Corners.forall_mem_toList]
    exact ⟨Fixed.isScale_toDouble h.x.start_nonneg, Fixed.isScale_toDouble h.y.start_nonneg,
      Fixed.isScale_toDouble h.x.finish_nonneg, Fixed.isScale_toDouble h.y.finish_nonneg⟩
  obtain ⟨⟨xStart, yStart, xEnd, yEnd⟩, converted, corner⟩ := Corners.exists_toFixed_eq_ok good
  have back {x y : Fixed} (h : ConvertsTo x.toDouble y) : y = x :=
    Except.ok.inj (h.converted.symm.trans x.ofDouble_toDouble)
  cases back corner.xStart
  cases back corner.yStart
  cases back corner.xEnd
  cases back corner.yEnd
  exact converted

/-- To make a behaviour do what it does already changes nothing. -/
theorem Stage.setDrive_eq_self {s : Stage} {b : Ref .behaviour}
    (alive : s.isAlive (.behaviour b)) : s.setDrive b (s.driveOf b) = s := by
  have same : s.behaviours.modify b (fun row => { row with drive := s.driveOf b }) =
      s.behaviours := Table.modify_eq_self _ (index_lt_of_isAlive alive) rfl
  unfold setDrive modifyBehaviour
  rw [same]

/-- A behaviour is there and does something, and only given callbacks hear about it. -/
structure Stage.Rests (s : Stage) (b : Ref .behaviour) (n : Ref .notifier)
    (audience : Callback → Prop) (drive : Drive) : Prop where
  alive : s.isAlive (.behaviour b)
  drive : s.driveOf b = drive
  heard : ∀ l ∈ (s.notifiers.get n).listeners, audience l.callback

theorem Stage.Rests.audience_of_hearing {s : Stage} {b : Ref .behaviour} {n : Ref .notifier}
    {audience : Callback → Prop} {drive : Drive} (h : s.Rests b n audience drive) {name : String}
    {callback : Callback} (mem : callback ∈ (s.notifiers.get n).hearing name) :
    audience callback := by
  obtain ⟨l, hears, rfl⟩ := List.mem_map.1 mem
  exact h.heard l (List.mem_filter.1 hears).1

namespace Script

variable {υ : Type} {host : Host υ} {b : Ref .behaviour} {n : Ref .notifier}
  {audience : Callback → Prop} {w : World υ}

/-- Something that may do whatever it likes, except to a behaviour that rests: that goes on to
do so. -/
def LeavesAlone (b : Ref .behaviour) (n : Ref .notifier) (audience : Callback → Prop)
    (x : Script υ Unit) : Prop :=
  ∀ w drive, w.stage.Rests b n audience drive → (x.run w).2.stage.Rests b n audience drive

namespace LeavesAlone

theorem forEach {β : Type} {visit : β → Script υ Unit} {l : List β}
    (h : ∀ x ∈ l, LeavesAlone b n audience (visit x)) :
    LeavesAlone b n audience (forEach visit l) := by
  intro w drive rests
  induction l generalizing w with
  | nil => exact rests
  | cons x rest ih =>
      have first := h x (List.mem_cons_self ..) w drive rests
      rw [run_forEach_cons, run_bind]
      cases ((visit x).run w).1 with
      | error fault => exact first
      | ok _ => exact ih (fun y mem => h y (List.mem_cons_of_mem _ mem)) _ first

theorem notify (leaves : ∀ callback, audience callback → ∀ change,
      LeavesAlone b n audience (host.notified callback change)) (change : Change) :
    LeavesAlone b n audience (notify host n change) := by
  intro w drive rests
  rw [run_notify]
  exact forEach (fun callback mem => leaves callback (rests.audience_of_hearing mem) change) _ _
    ⟨rests.alive, rests.drive, rests.heard⟩

/-- What is delivered to listeners who leave a behaviour alone leaves it as it was committed. -/
theorem publish (leaves : ∀ callback, audience callback → ∀ change,
      LeavesAlone b n audience (host.notified callback change)) {commit : Commit} {drive : Drive}
    (rests : commit.1.Rests b n audience drive) :
    ((publish host n commit).run w).2.stage.Rests b n audience drive :=
  forEach (fun change _ => notify leaves change) { w with stage := commit.1 } _ rests

end LeavesAlone

/-- To set bounds as they are changes nothing, and nobody is called. -/
theorem run_setFixedBounds_same {fixed : Corners Fixed} {gravity : Gravity}
    (alive : w.stage.isAlive (.behaviour b))
    (scales : w.stage.driveOf b = .scale (.ofCorners fixed) gravity)
    (accepted : fixed.toBounds = .ok (.ofCorners fixed)) :
    (mutate host b (.setFixedBounds fixed)).run w = (.ok (), w) := by
  have commit : Mutation.commitBounds b w.stage (.ofCorners fixed) = (w.stage, []) := by
    have same := Stage.setDrive_eq_self alive
    rw [scales] at same
    have silent : ((ScaleBounds.ofCorners fixed).changes (.ofCorners fixed)).pending = [] := by
      rw [ScaleBounds.pending_changes, ScaleBounds.news_eq_nil_iff]
    unfold Stage.driveOf at scales
    rw [Mutation.commitBounds, scales]
    exact Prod.ext same silent
  rw [run_setFixedBounds_of_ok accepted, commit]
  rfl

/-- After good scales have been set, listeners who leave the behaviour alone find it at rest, with
what the scales are converted to. -/
theorem exists_run_setBounds {old : ScaleBounds} {gravity : Gravity} {offered : Corners Double}
    {new : Corners Fixed}
    (rests : w.stage.Rests b (notifierOf b w.stage) audience (.scale old gravity))
    (leaves : ∀ callback, audience callback → ∀ change,
      LeavesAlone b (notifierOf b w.stage) audience (host.notified callback change))
    (converted : offered.toFixed = .ok new) (accepted : new.toBounds = .ok (.ofCorners new)) :
    ∃ r w', (mutate host b (.setBounds offered)).run w = (r, w') ∧
      (host.ListenersEnd → r = .ok ()) ∧
      w'.stage.Rests b (notifierOf b w.stage) audience (.scale (.ofCorners new) gravity) := by
  have run : (mutate host b (.setBounds offered)).run w = _ :=
    (run_setBounds_of_ok converted).trans (run_setFixedBounds_of_ok accepted)
  have committed : (Mutation.commitBounds b w.stage (.ofCorners new)).1 =
      w.stage.setDrive b (.scale (.ofCorners new) gravity) := by
    have scales := rests.drive
    unfold Stage.driveOf at scales
    rw [Mutation.commitBounds, scales]
  have rests' : (w.stage.setDrive b (.scale (.ofCorners new) gravity)).Rests b
      (notifierOf b w.stage) audience (.scale (.ofCorners new) gravity) := by
    refine ⟨?_, Stage.driveOf_setDrive .., rests.heard⟩
    have alive := rests.alive
    rw [Stage.isAlive_iff, Stage.holders] at alive ⊢
    show 0 < ((w.stage.behaviours.modify b _).get b).holders
    rw [Table.get_modify_same]
    exact alive
  refine ⟨_, _, run, fun ends => ?_, LeavesAlone.publish leaves (committed ▸ rests')⟩
  obtain ⟨w', ended⟩ := exists_run_publish_eq_ok ends (notifierOf b w.stage)
    (Mutation.commitBounds b w.stage (.ofCorners new)) w
  exact congrArg Prod.fst ended

/-- Whatever lies in the cells of what has been set changes nothing. -/
theorem run_setBounds_of_sameCell {gravity : Gravity} {offered again : Corners Double}
    {new : Corners Fixed} (alive : w.stage.isAlive (.behaviour b))
    (scales : w.stage.driveOf b = .scale (.ofCorners new) gravity) (good : ¬ offered.AreBad)
    (corner : offered.Match ConvertsTo new) (cells : offered.Match SameCell again) :
    (mutate host b (.setBounds again)).run w = (.ok (), w) := by
  obtain ⟨new', converted, corner'⟩ :=
    Corners.exists_toFixed_eq_ok (Corners.not_areBad_of_sameCell good cells)
  rw [Corners.eq_of_sameCell corner corner' cells] at converted
  rw [run_setBounds_of_ok converted]
  exact run_setFixedBounds_same alive scales (Corners.toBounds_of_match corner)

end Script

open Script

/-- On every stage that is ever met, to set what is read back changes nothing at all, whoever
listens. If those who listen to the behaviour leave it alone then good scales that are set are read
back as the greatest multiples of the unit below them, and to set any others from the same cells
after them changes nothing either. -/
theorem Stage.Reachable.bounds_lens {υ : Type} {host : Host υ} {w : World υ}
    (h : w.stage.Reachable) {b : Ref .behaviour} (alive : w.stage.isAlive (.behaviour b))
    {old : ScaleBounds} {gravity : Gravity} (scales : w.stage.driveOf b = .scale old gravity) :
    let n := notifierOf b w.stage
    (mutate host b (.setBounds old.reals)).run w = (.ok (), w) ∧
    ∀ audience : Callback → Prop, (∀ l ∈ (w.stage.notifiers.get n).listeners,
        audience l.callback) →
      (∀ callback, audience callback → ∀ change,
        LeavesAlone b n audience (host.notified callback change)) →
      ∀ offered : Corners Double, ¬ offered.AreBad →
        ∃ r w', (mutate host b (.setBounds offered)).run w = (r, w') ∧
          (host.ListenersEnd → r = .ok ()) ∧
          (∃ new, w'.stage.driveOf b = .scale new gravity ∧
            offered.Match IsTruncated new.reals) ∧
          ∀ again, offered.Match SameCell again →
            (mutate host b (.setBounds again)).run w' = (.ok (), w') := by
  intro n
  constructor
  · have checked := h.checked b old gravity scales
    rw [run_setBounds_of_ok (ScaleBounds.accepted_of_toBounds checked).toFixed_reals]
    have scales' : w.stage.driveOf b = .scale (.ofCorners old.corners) gravity := scales
    exact run_setFixedBounds_same alive scales' checked
  · intro audience heard leaves offered good
    obtain ⟨new, converted, corner⟩ := Corners.exists_toFixed_eq_ok good
    obtain ⟨r, w', run, ends, rests⟩ := exists_run_setBounds ⟨alive, scales, heard⟩ leaves
      converted (Corners.toBounds_of_match corner)
    exact ⟨r, w', run, ends, ⟨_, rests.drive, Corners.isTruncated_reals good corner⟩,
      fun again cells => run_setBounds_of_sameCell rests.alive rests.drive good corner cells⟩

namespace Stage.Reachable

/-- A third in double precision, as the number of units in its last place. -/
def third (units : Nat) (canonical : Format.binary64.Canonical units (-54) := by decide) : Double :=
  .finite false units (-54) canonical

/-- Near a third, on all corners. -/
def thirds (d : Double) : Corners Double := ⟨d, d, d, d⟩

/-- A behaviour that shrinks and grows is made to scale by a third. To make it scale by the next
number above that has no effect any more, nor had setting the bounds that it had before. -/
theorem bounds_lens_resizing :
    let w := (resizing.run ⟨.empty true, ()⟩).2
    (∃ w', (mutate (.silent Unit) ⟨0⟩ (.setBounds (thirds (third 6004799503160661)))).run w =
        (.ok (), w') ∧
      (mutate (.silent Unit) ⟨0⟩ (.setBounds (thirds (third 6004799503160662)))).run w' =
        (.ok (), w')) ∧
      (mutate (.silent Unit) ⟨0⟩ (.setBounds ⟨2, 1 / 2, 0, 3⟩)).run w = (.ok (), w) := by
  intro w
  have alive : w.stage.isAlive (.behaviour ⟨0⟩) := by decide +kernel
  have scales : w.stage.driveOf ⟨0⟩ =
      .scale ⟨⟨.ofRaw 131072, .zero⟩, ⟨.half, .ofRaw 196608⟩⟩ .west := by
    decide +kernel
  have number (units : Nat) (canonical) :
      (third units canonical).IsNumber (units * 2 ^ (-54 : Int)) :=
    ⟨false, units, -54, canonical, rfl, rfl⟩
  have cell : SameCell (third 6004799503160661) (third 6004799503160662) := by
    refine ⟨_, _, number _ _, number _ _, ?_⟩
    have floor {v : ℚ} (low : 21845 ≤ v) (high : v < 21846) : ⌊v⌋ = 21845 :=
      Int.floor_eq_iff.2 ⟨by exact_mod_cast low, by norm_num; linarith⟩
    rw [floor (by norm_num) (by norm_num), floor (by norm_num) (by norm_num)]
  have good : ¬ (thirds (third 6004799503160661)).AreBad := by
    rw [Corners.not_areBad_iff]
    intro d mem
    rw [← checkScale_eq_ok_iff]
    revert d
    decide +kernel
  obtain ⟨back, set⟩ :=
    @Reachable.bounds_lens _ (.silent Unit) _ reachable_resizing _ alive _ _ scales
  obtain ⟨r, w', run, ends, -, silent⟩ :=
    set (fun _ => True) (fun _ _ => trivial) (fun _ _ _ _ _ rests => rests) _ good
  cases ends fun _ _ w => ⟨w, rfl⟩
  refine ⟨⟨w', run, silent _ ⟨cell, cell, cell, cell⟩⟩, ?_⟩
  have reals : ScaleBounds.reals ⟨⟨.ofRaw 131072, .zero⟩, ⟨.half, .ofRaw 196608⟩⟩ =
      ⟨2, 1 / 2, 0, 3⟩ := by
    decide +kernel
  rw [reals] at back
  exact back

end Stage.Reachable

end Animation
