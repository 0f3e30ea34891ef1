/-
# Steps on notifiers, emitters and tasks

Notifiers and emitters can be used on their own, apart from behaviours and timelines,
and tasks can be run and aborted by name.
-/

import Animation.Session.Clocks
import Animation.Stage.Schedule

namespace Animation.Session

variable (take : Step → Play Answer)

/-- The batch after each push. -/
def pushes (b : Batch) : List Change → List Batch
  | [] => []
  | change :: rest =>
      let next := b.push change.name change.value
      next :: pushes next rest

/-- Push changes to a batch, take the steps of the batch, and flush it. -/
def runBatch (step : Step) (n : Ref .notifier) (changes : List Change) : Play Answer := do
  let batches := pushes .empty changes
  let batch := batches.getLastD .empty
  takeAll take step.tag step.acts
  Script.flush (host take) n batch
  return .batch Batch.empty.pending.isEmpty (batches.map (·.size)) batch.pending.isEmpty

/-- Do something with a notifier that is there. -/
def onNotifier (step : Step) (n : Ref .notifier) : NotifierAction → Play Answer
  | .clone name => do
      update fun s => { s with notifiers := s.notifiers.insert name n }
      return .nothing
  | .on property reads => do
      let callback ← addReaction { reactionTo step with reads }
      let number := ((← Script.stage).notifiers.get n).nextId
      Script.change (·.modifyNotifier n (·.register property callback))
      nameNumber step.tag number
      return .count number
  | .off => do
      match (← current).numbers.find? step.tag with
      | some number => Script.change (·.modifyNotifier n (·.unregister number))
      | none => pure ()
      return .nothing
  | .notify change => do
      Script.notify (host take) n change
      return .nothing
  | .batch changes => runBatch take step n changes
  | _ => do
      let row := (← Script.stage).notifiers.get n
      return .notifier row.size row.describe

/-- Take a step on a notifier. -/
def takeNotifier (step : Step) : NotifierAction → Play Answer
  | .make => do
      let n ← Script.produce (·.addNotifier)
      update fun s => { s with notifiers := s.notifiers.insert step.subject n }
      return .nothing
  | action => do
      match (← current).notifiers.find? step.subject with
      | none => unnamed
      | some n => onNotifier take step n action

/-- Do something with an emitter that is there. -/
def onEmitter (step : Step) (m : Ref .emitter) : EmitterAction → Play Answer
  | .clone name => do
      update fun s => { s with emitters := s.emitters.insert name m }
      return .nothing
  | .on event accepts delay failure => do
      let callback ← addReaction { reactionTo step with delay, failure }
      let number ← Script.registerHandler m event accepts callback
      nameNumber step.tag number
      return .count number
  | .off => do
      match (← current).numbers.find? step.tag with
      | some number => Script.unregisterHandler m number
      | none => pure ()
      return .nothing
  | .emit event payload => do
      Script.emit (host take) m event payload
      return .nothing
  | .has event => return .truth (← Script.hasHandlers m event)
  | _ => return .text ((← Script.stage).describeEmitter m)

/-- Take a step on an emitter. -/
def takeEmitter (step : Step) : EmitterAction → Play Answer
  | .make => do
      let m ← Script.produce (·.addEmitter)
      update fun s => { s with emitters := s.emitters.insert step.subject m }
      return .nothing
  | action => do
      match (← current).emitters.find? step.subject with
      | none => unnamed
      | some m => onEmitter take step m action

/-- Take a step on a task. -/
def takeTask (step : Step) : TaskAction → Play Answer
  | .run delay failure => do
      let callback ← addReaction { reactionTo step with delay, failure }
      let code ← addRoutine callback none
      match ← Script.produce (·.spawn (.routine code none)) with
      | some k =>
          update fun s => { s with tasks := s.tasks.insert step.subject k }
          return .nothing
      | none => return .failed .outsideRuntime
  | .abort => do
      match (← current).tasks.find? step.subject with
      | none => unnamed
      | some k =>
          Script.change (·.abort k)
          return .nothing
  | .hasEnded => do
      match (← current).tasks.find? step.subject with
      | none => unnamed
      | some k => return .truth ((← Script.stage).hasEnded k)

end Animation.Session
