/-
# The library under locks

Here is what the library offers once more, with the locks that it takes: each of them where it is
taken, around what is done under it, and with what is read and changed under it. What is done in
several steps is locked step by step. Only an emitter is locked from the first of its handlers to
the last, and an actor while it is asked.

What a thing is made with and keeps, as its core, its notifier or its emitter, is behind no lock.
-/

import Animation.Proofs.Locks.Guarded
import Animation.Stage.Bounds
import Animation.Stage.Schedule
import Animation.Stage.Setting

namespace Animation.Locking

open Script

variable {υ : Type} (host : Host (Guarded υ))

def register (n : Ref .notifier) (property : Option String) (callback : Callback) :
    Script (Guarded υ) Unit :=
  writing (.listeners n) (·.modifyNotifier n (·.register property callback))

def unregister (n : Ref .notifier) (id : Nat) : Script (Guarded υ) Unit :=
  writing (.listeners n) (·.modifyNotifier n (·.unregister id))

/-- The listeners are looked up under their lock, and called after it. -/
def notify (n : Ref .notifier) (change : Change) : Script (Guarded υ) Unit := do
  let hearing ← reading (.listeners n) fun s => (s.notifiers.get n).hearing change.name
  note (.notified n change)
  forEach (fun callback => entering .listener (host.notified callback change)) hearing

def flush (n : Ref .notifier) (batch : Batch) : Script (Guarded υ) Unit :=
  forEach (notify host n) batch.pending

def registerHandler (m : Ref .emitter) (event : String) (accepts : PayloadKind)
    (callback : Callback) : Script (Guarded υ) Nat :=
  accessing (.handlers m) fun s =>
    (s.modifyEmitter m (·.register event accepts callback), (s.emitters.get m).nextId)

def unregisterHandler (m : Ref .emitter) (id : Nat) : Script (Guarded υ) Unit :=
  writing (.handlers m) (·.modifyEmitter m (·.unregister id))

def respond (m : Ref .emitter) (event : String) (payload : Payload) (h : Handler) :
    Script (Guarded υ) Job := do
  if h.matches payload then
    return .routine (← entering (.handler m) (host.called h.callback payload)) payload.timeline?
  else
    note (.mismatched m event)
    return .idle

def offer (m : Ref .emitter) (event : String) (payload : Payload) (h : Handler) :
    Script (Guarded υ) Unit := do
  let job ← respond host m event payload h
  match ← produce (·.spawn job) with
  | some _ => pure ()
  | none => note (.unrun m event .outsideRuntime)

/-- The handlers are called under the lock that they are looked up under. -/
def emit (m : Ref .emitter) (event : String) (payload : Payload) : Script (Guarded υ) Unit :=
  locking (.handlers m) do
    let row := (← stage).emitters.get m
    note (.emitted m event payload)
    match row.handling event with
    | [] => pure ()
    | handlers =>
        holding payload.handles do
          change (hold true m)
          (forEach (offer host m event payload) handlers).thenTidy (hold false m)

section Timelines

variable (t : Ref .timeline)

def direction : Script (Guarded υ) Direction :=
  reading (.settings t) fun s => (s.clock t).direction

def frames : Script (Guarded υ) Nat := reading (.settings t) fun s => (s.clock t).frames

def frame : Script (Guarded υ) Nat := reading (.frame t) fun s => (s.clock t).frame

def changeSettings (f : Clock → Clock) : Script (Guarded υ) Unit :=
  writing (.settings t) fun s => s.setClock t (f (s.clock t))

def standOn (number : Nat) : Script (Guarded υ) Unit :=
  writing (.frame t) fun s => s.setClock t { s.clock t with frame := number }

def clampFrame : Script (Guarded υ) Unit := do
  let frames ← frames t
  writing (.frame t) fun s =>
    s.setClock t { s.clock t with frame := min (s.clock t).frame frames }

def setDuration (duration : Nat) : Script (Guarded υ) Unit := do
  changeSettings t ({ · with duration })
  clampFrame t

def setFps (fps : Nat) : Script (Guarded υ) (Except Error Unit) := do
  if fps = 0 then return .error (.timeline (.invalidFrameRate fps))
  else
    changeSettings t ({ · with fps })
    clampFrame t
    return .ok ()

def setRepeats (repeats : Bool) : Script (Guarded υ) Unit :=
  changeSettings t ({ · with repeats })

def setDirection (direction : Direction) : Script (Guarded υ) Unit := do
  changeSettings t ({ · with direction })
  if direction = .backward then
    let number ← frame t
    if number = 0 then
      let frames ← frames t
      standOn t frames

def isComplete : Script (Guarded υ) Bool := do
  let direction ← direction t
  let number ← frame t
  match direction with
  | .forward =>
      let frames ← frames t
      return decide (frames ≤ number)
  | .backward => return number == 0

def advance (number : Nat) : Script (Guarded υ) (Except Error Unit) := do
  let frames ← frames t
  if frames < number then return .error (.timeline (.frameOutOfBounds number frames))
  else
    standOn t number
    return .ok ()

/-- The settings are copied, and the frame is moved under its own lock. -/
def moveFrame (move : Clock → Except Violation Clock) : Script (Guarded υ) Clock := do
  let settings ← reading (.settings t) (·.clock t)
  locking (.frame t) do
    let number := ((← stage).clock t).frame
    let moved ← check (move { settings with frame := number })
    change (·.setClock t moved)
    return moved

def skip (count : Nat) : Script (Guarded υ) Unit := do
  let _ ← moveFrame t (·.skip count)

def rewind : Script (Guarded υ) Unit := do
  match ← direction t with
  | .forward => standOn t 0
  | .backward =>
      let frames ← frames t
      standOn t frames

end Timelines

def setEasing (a : Ref .alpha) (easing : Easing) : Script (Guarded υ) Unit :=
  writing (.easing a) (·.modifyAlpha a fun row => { row with easing })

def alphaValue (curves : Curves) (a : Ref .alpha) : Script (Guarded υ) Nat := do
  let t := ((← stage).alphas.get a).timeline
  let number ← frame t
  let frames ← frames t
  let easing ← reading (.easing a) fun s => (s.alphas.get a).easing
  return easing.sample curves (Binary.ofNat number / Binary.ofNat frames)

def attach (t : Ref .timeline) (b : Ref .behaviour) : Script (Guarded υ) Nat :=
  accessing (.attachments t) (·.attach t b)

def detach (t : Ref .timeline) (ids : List Nat) : Script (Guarded υ) Unit :=
  writing (.attachments t) (·.detach t ids)

/-- Undo the binding of a core, of which the lock is held. -/
def unbind (c : Ref .core) : Script (Guarded υ) Unit := do
  let s ← stage
  match (s.cores.get c).binding with
  | none => pure ()
  | some ⟨alpha, entry⟩ =>
      detach (s.alphas.get alpha).timeline [entry]
      change fun s => (s.setBinding c none).releaseAlpha alpha

/-- Replace the binding of a behaviour, of which the lock is held. -/
def rebind (b : Ref .behaviour) (alpha : Option (Ref .alpha)) : Script (Guarded υ) Unit := do
  let core := ((← stage).behaviours.get b).core
  match alpha with
  | none => unbind core
  | some alpha =>
      change (·.retain (.alpha alpha))
      unbind core
      let t := ((← stage).alphas.get alpha).timeline
      let entry ← attach t b
      change (·.setBinding core (some ⟨alpha, entry⟩))

/-- Replace the binding of a behaviour, unless it is the same. The answer is whether it is not. -/
def exchange (b : Ref .behaviour) (alpha : Option (Ref .alpha)) : Script (Guarded υ) Bool := do
  let core := ((← stage).behaviours.get b).core
  locking (.binding core) do
    if (← stage).boundAlpha? core = alpha then return false
    else
      rebind b alpha
      return true

/-- Listeners hear of a new binding after its lock is given back. -/
def bindTo (b : Ref .behaviour) (alpha : Option (Ref .alpha)) : Script (Guarded υ) Unit := do
  let s ← stage
  let core := (s.behaviours.get b).core
  if ← exchange b alpha then
    let isBound ← reading (.binding core) fun s => (s.boundAlpha? core).isSome
    note (.bound core isBound)
    notify host (s.cores.get core).notifier ⟨bindingProperty, isBound⟩

/-- A new behaviour is bound if there is something to bind it to. -/
def make (drive : Drive) (alpha : Option (Ref .alpha)) : Script (Guarded υ) (Ref .behaviour) := do
  let b ← produce (·.addBehaviour drive)
  if alpha.isSome then bindTo host b alpha
  return b

def makeScale (corners : Corners Fixed) (gravity : Gravity) (alpha : Option (Ref .alpha)) :
    Script (Guarded υ) (Ref .behaviour) := do
  let bounds ← check corners.toBounds
  make host (.scale bounds gravity) alpha

/-- What has changed is collected under the lock, and listeners hear of it afterwards. -/
def replaceScale (b : Ref .behaviour) (bounds : ScaleBounds) : Script (Guarded υ) Batch :=
  accessing (.bounds b) fun s =>
    match (s.behaviours.get b).drive with
    | .scale old gravity => (s.setDrive b (.scale bounds gravity), old.changes bounds)
    | _ => (s, .empty)

def replaceOpacity (b : Ref .behaviour) (bounds : Range UInt8) : Script (Guarded υ) Batch :=
  accessing (.bounds b) fun s =>
    match (s.behaviours.get b).drive with
    | .opacity old => (s.setDrive b (.opacity bounds), old.opacityChanges bounds)
    | _ => (s, .empty)

/-- The answer is whether the gravity is another one. -/
def replaceGravity (b : Ref .behaviour) (gravity : Gravity) : Script (Guarded υ) Bool :=
  accessing (.gravity b) fun s =>
    match (s.behaviours.get b).drive with
    | .scale bounds old =>
        if old = gravity then (s, false) else (s.setDrive b (.scale bounds gravity), true)
    | _ => (s, false)

def setScaleBounds (b : Ref .behaviour) (corners : Corners Fixed) : Script (Guarded υ) Unit := do
  let bounds ← check corners.toBounds
  let n := notifierOf b (← stage)
  let batch ← replaceScale b bounds
  flush host n batch

def setOpacityBounds (b : Ref .behaviour) (bounds : Range UInt8) : Script (Guarded υ) Unit := do
  let n := notifierOf b (← stage)
  let batch ← replaceOpacity b bounds
  flush host n batch

def setGravity (b : Ref .behaviour) (gravity : Gravity) : Script (Guarded υ) Unit := do
  let n := notifierOf b (← stage)
  if ← replaceGravity b gravity then notify host n ⟨ScaleProperty.gravity.name, gravity⟩

def applyActor (c : Ref .core) (a : Ref .actor) : Script (Guarded υ) Unit :=
  writing (.actors c) (·.applyActor c a)

def removeActor (c : Ref .core) (a : Ref .actor) : Script (Guarded υ) Unit :=
  writing (.actors c) (·.removeActor c a)

def clearActors (c : Ref .core) : Script (Guarded υ) Unit :=
  writing (.actors c) (·.clearActors c)

def gatherActors (c : Ref .core) : Script (Guarded υ) (List (Ref .actor)) :=
  accessing (.actors c) (·.gatherActors c)

/-- The actors are gathered under their lock, with handles on them, and visited after it. -/
def forEachActor (c : Ref .core) (visit : Ref .actor → Script (Guarded υ) Unit) :
    Script (Guarded υ) Unit := do
  let actors ← accessing (.actors c) fun s =>
    ((s.pruneActors c).retainAll ((s.actorsOf c).map .actor), s.actorsOf c)
  escort visit actors

/-- Ask something of an actor, of which the lock is held. -/
def ask (a : Ref .actor) (call : ActorCall) : Script (Guarded υ) Unit := do
  change (·.modifyActor a (·.receive call))
  entering (.actor a) (host.reacts a call)

def askScale (a : Ref .actor) (gravity : Gravity) (x y : Double) : Script (Guarded υ) Unit := do
  if gravity ≠ .none then ask host a (.anchorBy gravity)
  ask host a (.setScale x y)

def drive (b : Ref .behaviour) (alpha : Nat) : Script (Guarded υ) Unit := do
  let row := (← stage).behaviours.get b
  match row.drive with
  | .scale bounds gravity =>
      let (x, y) ← locking (.bounds b) (check (bounds.sample alpha))
      let gravity ← reading (.gravity b) fun _ => gravity
      forEachActor row.core fun a =>
        locking (.actor a) (askScale host a gravity x.toDouble y.toDouble)
  | .opacity bounds =>
      let bounds ← reading (.bounds b) fun _ => bounds
      let value ← check (bounds.sampleOpacity alpha)
      forEachActor row.core fun a => locking (.actor a) (ask host a (.setOpacity value))
  | .custom callback => entering .behaviour (host.driven callback alpha)

def tick (b : Ref .behaviour) : Script (Guarded υ) Unit := do
  let core := ((← stage).behaviours.get b).core
  match ← reading (.binding core) (·.boundAlpha? core) with
  | none => pure ()
  | some alpha =>
      holding [.alpha alpha] do
        let value ← alphaValue host.curves alpha
        note (.ticked b value)
        drive host b value

section Frames

variable (t : Ref .timeline)

def announce (event : TimelineEvent) (payload : Payload) : Script (Guarded υ) Unit := do
  emit host ((← stage).timelines.get t).emitter event.name payload

def tickEach : List Attachment → Script (Guarded υ) (List Nat)
  | [] => return []
  | entry :: rest => do
      if (← stage).isAlive (.behaviour entry.behaviour) then
        holding [.behaviour entry.behaviour] (tick host entry.behaviour)
        tickEach rest
      else
        return entry.id :: (← tickEach rest)

/-- The attachments are copied under their lock, and ticked after it. -/
def tickAttached : Script (Guarded υ) Unit := do
  let attachments ← reading (.attachments t) fun s => (s.timelines.get t).attachments
  match ← tickEach host attachments with
  | [] => pure ()
  | gone => do
      note (.pruned t gone.length)
      detach t gone

def concludeFrame (played : Clock) : Script (Guarded υ) Bool := do
  announce host t .newFrame (.frame t played.frame)
  if played.isComplete then
    announce host t .completed (.timeline t)
    if played.repeats then
      rewind t
      return true
    else return false
  else return true

def isOver : Script (Guarded υ) Bool := do
  let repeats ← reading (.settings t) fun s => (s.clock t).repeats
  if repeats then return false else isComplete t

def nextFrame : Script (Guarded υ) Bool := do
  if ← isOver t then return false
  else
    let played ← moveFrame t (·.step)
    note (.moved t played.frame played.frames)
    tickAttached host t
    concludeFrame host t played

def isPlaying : Script (Guarded υ) Bool := reading (.playback t) (·.isPlaying t)

def launch : Script (Guarded υ) (Except Error Unit) := do
  let period ← reading (.settings t) fun s => (s.clock t).period
  let frames ← frames t
  note (.started t frames period)
  announce host t .started (.timeline t)
  match ← produce (·.spawn (.playback t period)) with
  | none => return .error .outsideRuntime
  | some k =>
      writing (.playback t) (·.setPlayback t (some k))
      return .ok ()

def start : Script (Guarded υ) (Except Error Unit) := do
  if ← isPlaying t then return .ok ()
  else
    if ← isComplete t then rewind t
    launch host t

def pause : Script (Guarded υ) Unit := do
  let wasPlaying ← isPlaying t
  writing (.playback t) (·.cancelPlayback t)
  if wasPlaying then
    let number ← frame t
    note (.paused t number)
    announce host t .paused (.timeline t)

def stop : Script (Guarded υ) Unit := do
  pause host t
  rewind t

end Frames

def work (k : Ref .task) (row : Task) : Script (Guarded υ) Unit := do
  match row.job, row.phase with
  | _, .ended _ => pure ()
  | .idle, _ => conclude (.finished none) k
  | .playback _ period, .ready => rest k ((← stage).agenda.now + period)
  | .playback t period, .sleeping wake =>
      match ← (nextFrame host t).attempt with
      | .ok true => rest k (wake + period)
      | .ok false => conclude (.finished none) k
      | .error cause => conclude (.broken cause) k
  | .routine code _, _ =>
      match ← (entering .routine (host.resume code)).attempt with
      | .ok (.sleeps duration) => rest k ((← stage).agenda.now + duration)
      | .ok (.ends failure) => conclude (.finished failure) k
      | .error cause => conclude (.broken cause) k

def takeTurn (k : Ref .task) : Script (Guarded υ) Unit := do
  let s ← stage
  let row := s.tasks.get k
  if s.isRunnable k then
    if row.isAborted then conclude .aborted k else work host k row

end Animation.Locking
