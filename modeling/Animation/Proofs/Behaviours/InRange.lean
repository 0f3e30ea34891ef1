/-
# Ticks stay between the bounds

Whatever number an easing comes to, the alpha made of it is one of an animation. So what a tick
asks of actors lies between the two bounds of the behaviour, on each axis, or between its two
opacities. The sample is computed without overflow, and neither a tick nor a frame breaks off,
unless a callback does, or the frame number itself overflows.
-/

import Animation.Proofs.Behaviours.Blame
import Animation.Proofs.Behaviours.Journey
import Animation.Proofs.Timeline.Turns

namespace Animation

namespace Range

variable {α : Type} {alpha : Nat}

/-- A value lies between the two ends of a range, whichever of them is the greater one. -/
def Encloses (count : α → Int) (r : Range α) (x : α) : Prop :=
  min (count r.start) (count r.finish) ≤ count x ∧ count x ≤ max (count r.start) (count r.finish)

theorem encloses_pointAt (r : Range Fixed) (le : alpha ≤ alphaMax) :
    r.Encloses Fixed.toRaw (r.pointAt alpha) := by
  unfold Encloses
  rw [r.toRaw_pointAt le]
  exact r.between le

/-- The count of an opacity. -/
def level (opacity : UInt8) : Int := opacity.toNat

theorem level_ofInt {z : Int} (nonneg : 0 ≤ z) (le : z ≤ 255) : level (.ofInt z) = z := by
  unfold level UInt8.ofInt
  rw [UInt8.toNat_ofNat']
  omega

/-- A part of a difference, with the fraction dropped, does not lead beyond the difference. -/
theorem part_between (difference : Int) (le : alpha ≤ alphaMax) :
    min 0 difference ≤ (alpha * difference).tdiv alphaMax ∧
      (alpha * difference).tdiv alphaMax ≤ max 0 difference := by
  have whole : ∀ d : Int, (alphaMax * d).tdiv alphaMax = d :=
    fun d => Int.mul_tdiv_cancel_left d (by decide)
  have positive : (0 : Int) < alphaMax := by decide
  have le : (alpha : Int) ≤ alphaMax := by exact_mod_cast le
  have nonneg := Int.natCast_nonneg alpha
  rcases Int.le_total 0 difference with up | down
  · have low := Int.tdiv_le_tdiv positive (Int.mul_nonneg nonneg up)
    have high := Int.tdiv_le_tdiv positive (Int.mul_le_mul_of_nonneg_right le up)
    rw [whole] at high
    rw [Int.zero_tdiv] at low
    omega
  · have low := Int.tdiv_le_tdiv positive (Int.mul_le_mul_of_nonpos_right le down)
    have high := Int.tdiv_le_tdiv positive (Int.mul_nonpos_of_nonneg_of_nonpos nonneg down)
    rw [whole] at low
    rw [Int.zero_tdiv] at high
    omega

/-- At every alpha of an animation the sample of two opacities lies between them, and no digit of
it is cut off. -/
theorem exists_sampleOpacity_enclosed (r : Range UInt8) (le : alpha ≤ alphaMax) :
    ∃ value, r.sampleOpacity alpha = .ok value ∧ r.Encloses level value := by
  have check : checkAlpha alpha = .ok () := if_pos le
  have part := part_between (level r.finish - level r.start) le
  have start := r.start.toNat_lt
  have finish := r.finish.toNat_lt
  unfold sampleOpacity
  rw [check]
  refine ⟨_, rfl, ?_⟩
  unfold Encloses
  have sample := level_ofInt
    (z := level r.start + (alpha * (level r.finish - level r.start)).tdiv alphaMax)
    (by unfold level at *; omega) (by unfold level at *; omega)
  show min (level r.start) (level r.finish) ≤
      level (.ofInt (level r.start + (alpha * (level r.finish - level r.start)).tdiv alphaMax)) ∧
    level (.ofInt (level r.start + (alpha * (level r.finish - level r.start)).tdiv alphaMax)) ≤
      max (level r.start) (level r.finish)
  rw [sample]
  omega

end Range

namespace Script

variable {υ : Type} {pages : υ → List Stage} {host : Host υ} {w w' : World υ}

/-- On the way from one moment to another something is asked of an actor. -/
def Asked (pages : υ → List Stage) (a : Ref .actor) (call : ActorCall) (w w' : World υ) : Prop :=
  ∃ v, w.Passages pages v ∧
    World.Passages pages { v with stage := v.stage.modifyActor a (·.receive call) } w'

theorem Asked.trans_left {a : Ref .actor} {call : ActorCall} {u : World υ}
    (h : Asked pages a call w w') (before : u.Passages pages w) : Asked pages a call u w' := by
  obtain ⟨v, first, last⟩ := h
  exact ⟨v, before.trans first, last⟩

theorem Asked.trans_right {a : Ref .actor} {call : ActorCall} {u : World υ}
    (h : Asked pages a call w w') (after : w'.Passages pages u) : Asked pages a call w u := by
  obtain ⟨v, first, last⟩ := h
  exact ⟨v, first, last.trans after⟩

/-- A visit that comes to its end asks something of the actor. -/
def Visits (pages : υ → List Stage) (visit : Ref .actor → Script υ Unit) (call : ActorCall) :
    Prop :=
  ∀ a w w', w.stage.Tied → (visit a).run w = (.ok (), w') → Asked pages a call w w'

theorem visits_ask (hh : host.Passing pages) (call : ActorCall) :
    Visits pages (fun a => ask host a call) call := by
  intro a w w' tied run
  unfold ask at run
  rw [run_change_bind] at run
  have asked : w.stage.Move (w.stage.modifyActor a (·.receive call)) := .ask a call
  have passed := hh.reacts a call { w with stage := w.stage.modifyActor a (·.receive call) }
    (asked.tied tied)
  rw [run] at passed
  exact ⟨w, .refl, passed⟩

theorem visits_askScale (hh : host.Passing pages) (gravity : Gravity) (x y : Double) :
    Visits pages (fun a => askScale host a gravity x y) (.setScale x y) := by
  intro a w w' tied run
  unfold askScale at run
  split at run
  · obtain ⟨_, v, first, last⟩ := exists_of_run_bind_eq_ok run
    have passed := hh.ask w a (.anchorBy gravity) tied
    rw [first] at passed
    exact (visits_ask hh _ a v w' (passed.keeps Stage.Move.tied tied) last).trans_left passed
  · exact visits_ask hh _ a w w' tied run

/-- If all visits come to their end, every actor was visited. -/
theorem asked_escort {visit : Ref .actor → Script υ Unit} {call : ActorCall}
    (passes : ∀ a w, (visit a).Passes pages w) (visits : Visits pages visit call)
    {actors : List (Ref .actor)} (tied : w.stage.Tied)
    (run : (escort visit actors).run w = (.ok (), w')) :
    ∀ a ∈ actors, Asked pages a call w w' := by
  induction actors generalizing w with
  | nil => exact fun a ha => nomatch ha
  | cons first rest ih =>
      rcases visited : (visit first).run w with ⟨(cause | _) | _, v⟩
      · have broken : ((visit first).thenTidy (·.release (.actor first))).run w =
            (.error (.violation cause), { v with stage := v.stage.release (.actor first) }) := by
          simp [visited]
        unfold escort at run
        rw [run_bind_of_ok (run_attempt_of_violation broken)] at run
        cases run
      · unfold escort at run
        rw [run_bind, attempt, ExceptT.run_mk, run_thenTidy, visited] at run
        cases run
      · have ended : ((visit first).thenTidy (·.release (.actor first))).run w =
            (.ok (), { v with stage := v.stage.release (.actor first) }) := by
          simp [visited]
        unfold escort at run
        rw [run_bind_of_ok (run_attempt_of_ok ended)] at run
        have tidied : ((visit first).thenTidy (·.release (.actor first))).Passes pages w :=
          passes_thenTidy (passes first w) fun _ => .single (.release _)
        have passed := tidied tied
        rw [ended] at passed
        have tied' := passed.keeps Stage.Move.tied tied
        intro a ha
        rcases List.mem_cons.1 ha with rfl | later
        · have after := Host.Passing.escort passes rest
            { v with stage := v.stage.release (.actor a) } tied'
          rw [run] at after
          have released : v.Passages pages { v with stage := v.stage.release (.actor a) } :=
            .of_moves (.single (.release _))
          exact ((visits a w v tied visited).trans_right released).trans_right after
        · exact (ih tied' run a later).trans_left passed

theorem asked_forEachActor {visit : Ref .actor → Script υ Unit} {call : ActorCall}
    (passes : ∀ a w, (visit a).Passes pages w) (visits : Visits pages visit call) {c : Ref .core}
    (tied : w.stage.Tied) (run : (forEachActor c visit).run w = (.ok (), w')) :
    ∀ a ∈ w.stage.actorsOf c, Asked pages a call w w' := by
  unfold forEachActor at run
  rw [run_produce_bind, run_change_bind] at run
  have retained : w.stage.Moves (((w.stage.gatherActors c).1).retainAll
      ((w.stage.gatherActors c).2.map .actor)) := by
    refine .trans (.single (w.stage.move_pruneActors c)) (Stage.moves_retainAll fun b hb => ?_)
    obtain ⟨a, _, e⟩ := List.mem_map.1 hb
    exact nomatch e
  intro a ha
  exact (asked_escort passes visits (retained.keeps Stage.Move.tied tied) run a ha).trans_left
    (.of_moves retained)

/-- A stage on which a tick is under way: the alpha is held, and the tick is noted. -/
def ticking (curves : Curves) (s : Stage) (a : Ref .alpha) (b : Ref .behaviour) : Stage :=
  (s.retainAll [.alpha a]).note (.ticked b (s.alphaValue curves a))

theorem moves_ticking (curves : Curves) (s : Stage) (a : Ref .alpha) (b : Ref .behaviour) :
    s.Moves (ticking curves s a b) := by
  refine .tail (Stage.moves_retainAll fun b hb => ?_) (.note _)
  exact nomatch List.mem_singleton.1 hb

theorem coreOf_ticking (curves : Curves) (s : Stage) (a : Ref .alpha) (b : Ref .behaviour) :
    (ticking curves s a b).coreOf b = s.coreOf b := (s.rehandled_retainAll [.alpha a]).coreOf b

theorem drive_ticking (curves : Curves) (s : Stage) (a : Ref .alpha) (b : Ref .behaviour) :
    ((ticking curves s a b).behaviours.get b).drive = (s.behaviours.get b).drive :=
  (s.rehandled_retainAll [.alpha a]).drive b

theorem mem_actorsOf_ticking {s : Stage} {c : Ref .core} {actor : Ref .actor} (curves : Curves)
    (a : Ref .alpha) (b : Ref .behaviour) (mem : actor ∈ s.actorsOf c) :
    actor ∈ (ticking curves s a b).actorsOf c := by
  obtain ⟨applied, alive⟩ := List.mem_filter.1 mem
  have retained : (s.retainAll [.alpha a]).isAlive (.actor actor) := Stage.isAlive_retainAll alive
  refine List.mem_filter.2 ⟨?_, retained⟩
  exact ((s.rehandled_retainAll [.alpha a]).actors c).symm ▸ applied

section Tick

variable {a : Ref .alpha} {b : Ref .behaviour} {x : Script υ Unit}

theorem run_ticking (a : Ref .alpha) (b : Ref .behaviour) (x : Script υ Unit) (w : World υ) :
    (holding [.alpha a] do
      note (.ticked b (w.stage.alphaValue host.curves a))
      x).run w = (x.thenTidy (·.releaseAll [.alpha a])).run
        { w with stage := ticking host.curves w.stage a b } :=
  rfl

/-- A tick does what driving the behaviour comes to. -/
theorem run_tick_of_drive (bound : w.stage.boundAlpha? (w.stage.coreOf b) = some a)
    (drives : (drive host b (w.stage.alphaValue host.curves a)).run
        { w with stage := ticking host.curves w.stage a b } =
      x.run { w with stage := ticking host.curves w.stage a b }) :
    (tick host b).run w = (holding [.alpha a] do
      note (.ticked b (w.stage.alphaValue host.curves a))
      x).run w := by
  rw [run_tick_of_bound host (.refl _) bound, run_ticking, run_ticking, run_thenTidy,
    run_thenTidy, drives]

/-- When a tick is over that asks something of all actors, it was asked of each of them. -/
theorem asked_tick {visit : Ref .actor → Script υ Unit} {call : ActorCall}
    (tied : w.stage.Tied)
    (runs : (tick host b).run w = (holding [.alpha a] do
      note (.ticked b (w.stage.alphaValue host.curves a))
      forEachActor (w.stage.coreOf b) visit).run w)
    (passes : ∀ a w, (visit a).Passes pages w) (visits : Visits pages visit call)
    (run : (tick host b).run w = (.ok (), w')) :
    ∀ actor ∈ w.stage.actorsOf (w.stage.coreOf b), Asked pages actor call w w' := by
  have moved := moves_ticking host.curves w.stage a b
  rw [runs, run_ticking, run_thenTidy] at run
  rcases visited : (forEachActor (w.stage.coreOf b) visit).run
      { w with stage := ticking host.curves w.stage a b } with ⟨outcome, v⟩
  rw [visited] at run
  cases run
  intro actor mem
  have asked := asked_forEachActor passes visits (moved.keeps Stage.Move.tied tied) visited actor
    (mem_actorsOf_ticking host.curves a b mem)
  exact (asked.trans_left (.of_moves moved)).trans_right
    (.of_moves (v.stage.moves_releaseAll [.alpha a]))

end Tick

/-- What is to be relied on when a behaviour is ticked. -/
structure TicksInRange (pages : υ → List Stage) (host : Host υ) (b : Ref .behaviour)
    (w : World υ) : Prop where
  unbound : w.stage.boundAlpha? (w.stage.coreOf b) = none → (tick host b).run w = (.ok (), w)
  /-- All actors of the behaviour are asked to take one scale, which lies between the bounds. -/
  scale : ∀ a bounds gravity, w.stage.boundAlpha? (w.stage.coreOf b) = some a →
    (w.stage.behaviours.get b).drive = .scale bounds gravity →
    ∃ x y, bounds.x.Encloses Fixed.toRaw x ∧ bounds.y.Encloses Fixed.toRaw y ∧
      (tick host b).run w = (holding [.alpha a] do
        note (.ticked b (w.stage.alphaValue host.curves a))
        forEachActor (w.stage.coreOf b) fun actor =>
          askScale host actor gravity x.toDouble y.toDouble).run w ∧
      ∀ w', (tick host b).run w = (.ok (), w') → ∀ actor ∈ w.stage.actorsOf (w.stage.coreOf b),
        Asked pages actor (.setScale x.toDouble y.toDouble) w w'
  /-- All actors of the behaviour are asked to take one opacity, which lies between the bounds. -/
  opacity : ∀ a bounds, w.stage.boundAlpha? (w.stage.coreOf b) = some a →
    (w.stage.behaviours.get b).drive = .opacity bounds →
    ∃ value, bounds.Encloses Range.level value ∧
      (tick host b).run w = (holding [.alpha a] do
        note (.ticked b (w.stage.alphaValue host.curves a))
        forEachActor (w.stage.coreOf b) fun actor => ask host actor (.setOpacity value)).run w ∧
      ∀ w', (tick host b).run w = (.ok (), w') → ∀ actor ∈ w.stage.actorsOf (w.stage.coreOf b),
        Asked pages actor (.setOpacity value) w w'
  /-- A tick breaks off only if it comes to a callback that does. -/
  excused : ∀ cause, ((tick host b).run w).1 = .error (.violation cause) →
    ∃ v, w.Passages pages v ∧ host.BreaksOff (tick host b) w v cause

theorem run_drive_of_scale (host : Host υ) {b : Ref .behaviour} {alpha : Nat} {bounds : ScaleBounds}
    {gravity : Gravity} {x y : Fixed}
    (drives : (w.stage.behaviours.get b).drive = .scale bounds gravity)
    (sample : bounds.sample alpha = .ok (x, y)) :
    (drive host b alpha).run w = (forEachActor (w.stage.coreOf b) fun actor =>
      askScale host actor gravity x.toDouble y.toDouble).run w := by
  unfold drive
  rw [run_stage_bind]
  dsimp only
  rw [drives]
  dsimp only
  rw [sample]
  rfl

theorem run_drive_of_opacity (host : Host υ) {b : Ref .behaviour} {alpha : Nat}
    {bounds : Range UInt8} {value : UInt8}
    (drives : (w.stage.behaviours.get b).drive = .opacity bounds)
    (sample : bounds.sampleOpacity alpha = .ok value) :
    (drive host b alpha).run w = (forEachActor (w.stage.coreOf b) fun actor =>
      ask host actor (.setOpacity value)).run w := by
  unfold drive
  rw [run_stage_bind]
  dsimp only
  rw [drives]
  dsimp only
  rw [sample]
  rfl

theorem ticksInRange (hh : host.Passing pages) (inTune : w.stage.InTune) (b : Ref .behaviour) :
    TicksInRange pages host b w where
  unbound := run_tick_of_unbound host (.refl _)
  scale a bounds gravity bound drives := by
    have le := w.stage.alphaValue_le host.curves a
    have accepted := ScaleBounds.accepted_of_toBounds (inTune.checked b _ _ drives)
    have runs := run_tick_of_drive bound (run_drive_of_scale host
      (w := { w with stage := ticking host.curves w.stage a b })
      ((drive_ticking host.curves w.stage a b).trans drives) (accepted.sample_eq le))
    rw [coreOf_ticking] at runs
    exact ⟨_, _, bounds.x.encloses_pointAt le, bounds.y.encloses_pointAt le, runs, fun w' =>
      asked_tick inTune.tied runs (fun a w => hh.askScale w a _ _ _)
        (visits_askScale hh gravity _ _)⟩
  opacity a bounds bound drives := by
    have le := w.stage.alphaValue_le host.curves a
    obtain ⟨value, sample, enclosed⟩ := bounds.exists_sampleOpacity_enclosed le
    have runs := run_tick_of_drive bound (run_drive_of_opacity host
      (w := { w with stage := ticking host.curves w.stage a b })
      ((drive_ticking host.curves w.stage a b).trans drives) sample)
    rw [coreOf_ticking] at runs
    exact ⟨value, enclosed, runs, fun w' =>
      asked_tick inTune.tied runs (fun a w => hh.ask w a _) (visits_ask hh _)⟩
  excused := hh.excused_tick w b inTune

/-! ## Frames -/

/-- What has happened when a turn of a frame comes was made of single steps. -/
theorem passages_of_mem_turnsOfFrame (hh : host.Passing pages) (tied : w.stage.Tied)
    {t : Ref .timeline} {entry : Attachment} {v : World υ}
    (mem : (entry, v) ∈ turnsOfFrame host t w) : w.Passages pages v := by
  obtain ⟨played, step, turn⟩ := exists_of_mem_turnsOfFrame mem
  have moved := moves_movedTo step
  exact (World.Passages.of_moves (w := w) moved).trans
    (passages_of_mem_turns hh (moved.keeps Stage.Move.tied tied) turn).2

end Script

namespace Stage.Reachable

/-- On every stage that is ever met, the alphas are those of an animation, whatever the easings
come to. So every tick asks for what lies between the bounds. The next frame of a timeline is made
of turns, and so does the tick in each of them; the frame breaks off only if it comes to a callback
that does or if the frame number overflows. -/
theorem ticks_in_range {υ : Type} {pages : υ → List Stage} {w : World υ} (h : w.stage.Reachable)
    {host : Host υ}
    (notified : ∀ callback change, Script.Course pages (host.notified callback change))
    (called : ∀ callback payload, Script.Course pages (host.called callback payload))
    (driven : ∀ callback alpha, Script.Course pages (host.driven callback alpha))
    (reacts : ∀ a call, Script.Course pages (host.reacts a call)) :
    (∀ x : Single, Easing.alphaOf x ≤ alphaMax) ∧
      (∀ curves a, w.stage.alphaValue curves a ≤ alphaMax) ∧
      (∀ b, Script.TicksInRange pages host b w) ∧
      ∀ t, Script.FrameInTurns host t w ∧
        (∀ entry v, (entry, v) ∈ Script.turnsOfFrame host t w →
          v.stage.isAlive (.behaviour entry.behaviour) →
          (Script.turn host entry).run v =
            (Script.holding [.behaviour entry.behaviour] (Script.tick host entry.behaviour) >>=
              fun _ => pure none).run v ∧
          Script.TicksInRange pages host entry.behaviour
            { v with stage := v.stage.retainAll [.behaviour entry.behaviour] }) ∧
        ∀ cause, ((Script.nextFrame host t).run w).1 = .error (.violation cause) →
          (w.stage.clock t).step = .error cause ∨
            ∃ v, w.Passages pages v ∧ host.BreaksOff (Script.nextFrame host t) w v cause := by
  have hh : Host.Passing pages host := ⟨fun callback change => (notified callback change).passes,
    fun callback payload => (called callback payload).passes,
    fun callback alpha => (driven callback alpha).passes, fun a call => (reacts a call).passes⟩
  refine ⟨Easing.alphaOf_le, w.stage.alphaValue_le, Script.ticksInRange hh h.inTune, fun t =>
    ⟨Script.frameInTurns host t w, fun entry v turn alive => ⟨Script.run_turn_of_alive alive, ?_⟩,
      fun cause => hh.excused_nextFrame w t h.inTune⟩⟩
  have retained : v.stage.Moves (v.stage.retainAll [.behaviour entry.behaviour]) :=
    Stage.moves_retainAll fun b hb => by cases List.mem_singleton.1 hb; exact alive
  have passed := Script.passages_of_mem_turnsOfFrame hh h.tied turn
  have inTune := World.Passages.inTune (passed.trans (World.Passages.of_moves retained)) h.inTune
  exact Script.ticksInRange hh inTune entry.behaviour

theorem not_breaksOff_silent {υ α : Type} {x : Script υ α} {w v : World υ} {cause : Violation} :
    ¬ (Host.silent υ).BreaksOff x w v cause := by
  rintro (⟨-, broken⟩ | ⟨-, -, broken⟩ | ⟨-, broken⟩) <;> exact nomatch broken

/-- The world when the actor that is to come to twice its size is in place. -/
def doubled : World Unit := (Scene.doubling.run ⟨.empty true, ()⟩).2

theorem reachable_doubled : doubled.stage.Reachable := by
  unfold doubled
  exact Scene.reachable_doubling

/-- The world in which the turn of the one behaviour comes in the first frame. -/
def doubling : World Unit := movedTo ⟨0⟩ { Clock.ofDuration 100 with frame := 1 } doubled

/-- The first frame in which an actor comes to twice its size is played, and in the turn of its
behaviour the actor is asked for a scale on the way. -/
theorem ticks_in_range_doubling :
    ((Script.nextFrame (.silent Unit) ⟨0⟩).run doubled).1 = .ok true ∧
    (Script.nextFrame (.silent Unit) ⟨0⟩).run doubled =
      (Script.takeTurns (.silent Unit) ⟨0⟩ { Clock.ofDuration 100 with frame := 1 }
        [⟨0, ⟨0⟩⟩]).run doubling ∧
    (∀ cause, ((Script.nextFrame (.silent Unit) ⟨0⟩).run doubled).1 ≠
      .error (.violation cause)) ∧
    ∃ x y : Fixed, (Range.mk .one (.ofRaw 131072)).Encloses Fixed.toRaw x ∧
      (Range.mk .one (.ofRaw 131072)).Encloses Fixed.toRaw y ∧
      ∃ w', (Script.turn (.silent Unit) ⟨0, ⟨0⟩⟩).run doubling = (.ok none, w') ∧
        Script.Asked (fun _ => []) ⟨0⟩ (.setScale x.toDouble y.toDouble) doubling w' := by
  obtain ⟨-, -, -, frames⟩ := @ticks_in_range Unit (fun _ => []) doubled reachable_doubled
    (.silent Unit) (fun _ _ => .pure ()) (fun _ _ => .pure 0) (fun _ _ => .pure ())
    (fun _ _ => .pure ())
  obtain ⟨frame, turns, excused⟩ := frames ⟨0⟩
  have clock : doubled.stage.clock ⟨0⟩ = .ofDuration 100 := by decide +kernel
  have entries : doubled.stage.attachments ⟨0⟩ = [⟨0, ⟨0⟩⟩] := by decide +kernel
  obtain ⟨run, comes⟩ := frame.played { Clock.ofDuration 100 with frame := 1 }
    (by rw [clock]; rfl) (by rw [clock]; rfl)
  rw [entries] at run comes
  refine ⟨by decide +kernel, run, fun cause broken => ?_, ?_⟩
  · rcases excused cause broken with overflow | ⟨v, -, breaks⟩
    · rw [clock] at overflow
      exact nomatch overflow
    · exact not_breaksOff_silent breaks
  · have alive : doubling.stage.isAlive (.behaviour ⟨0⟩) = true := by decide +kernel
    obtain ⟨turn, ticks⟩ :=
      turns ⟨0, ⟨0⟩⟩ doubling ((comes _ _).2 ⟨[], [], [], rfl, rfl⟩) alive
    let held : World Unit :=
      { doubling with stage := doubling.stage.retainAll [.behaviour ⟨0⟩] }
    have drive : (held.stage.behaviours.get ⟨0⟩).drive =
        .scale ⟨⟨.one, .ofRaw 131072⟩, ⟨.one, .ofRaw 131072⟩⟩ .none := by
      decide +kernel
    have bound : held.stage.boundAlpha? (held.stage.coreOf ⟨0⟩) = some ⟨0⟩ := by
      decide +kernel
    have applied : (⟨0⟩ : Ref .actor) ∈ held.stage.actorsOf (held.stage.coreOf ⟨0⟩) := by
      decide +kernel
    obtain ⟨x, y, hx, hy, -, asked⟩ := ticks.scale _ _ _ bound drive
    obtain ⟨w', ticked⟩ : ∃ w', (Script.tick (.silent Unit) ⟨0⟩).run held = (.ok (), w') :=
      Script.exists_run_eq (by decide +kernel)
    have retained : doubling.Passages (fun _ : Unit => []) held :=
      .of_moves (Stage.moves_retainAll fun b hb => by cases List.mem_singleton.1 hb; exact alive)
    refine ⟨x, y, hx, hy, _, ?_, ((asked w' ticked ⟨0⟩ applied).trans_left retained).trans_right
      (.of_moves (w'.stage.moves_releaseAll [.behaviour ⟨0⟩]))⟩
    rw [turn, Script.run_bind, Script.run_holding, Script.run_thenTidy, ticked]
    rfl

end Stage.Reachable

end Animation
