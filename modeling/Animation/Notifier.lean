/-
# Notifiers

A notifier keeps the listeners to the changes of an object's properties. Each listener
has a number of its own, counted from zero and never given out again, and hears either
the changes of one property or all of them.

A batch holds changes back. It keeps one change for each property, in the order in
which the properties were first pushed, with the value pushed last.
-/

import Animation.Value

namespace Animation

/-- The number by which whoever registers a callback knows it. -/
abbrev Callback : Type := Nat

/-- One listener. Without a property it hears every change. -/
structure Listener where
  id : Nat
  property : Option String
  callback : Callback
  deriving DecidableEq

/-- Whether a listener hears the changes of a property. -/
def Listener.hears (l : Listener) (name : String) : Bool :=
  match l.property with
  | none => true
  | some property => property == name

/-- The listeners, in the order of their registration. -/
structure Notifier where
  listeners : List Listener
  nextId : Nat
  deriving Inhabited

namespace Notifier

def empty : Notifier := ⟨[], 0⟩

/-- Add a listener; its number is the next one. -/
def register (n : Notifier) (property : Option String) (callback : Callback) : Notifier where
  listeners := n.listeners ++ [⟨n.nextId, property, callback⟩]
  nextId := n.nextId + 1

/-- Take the listener of the given number away. -/
def unregister (n : Notifier) (id : Nat) : Notifier :=
  { n with listeners := n.listeners.filter (·.id != id) }

/-- The callbacks that hear the changes of a property, in order. -/
def hearing (n : Notifier) (name : String) : List Callback :=
  (n.listeners.filter (·.hears name)).map (·.callback)

def size (n : Notifier) : Nat := n.listeners.length

/-- The text of a notifier inside the text of a structure. -/
def describe (n : Notifier) : String :=
  Text.record "Notifier" [("callbacks", n.size.repr)]

theorem size_register (n : Notifier) (property : Option String) (callback : Callback) :
    (n.register property callback).size = n.size + 1 := by
  simp [register, size]

theorem hearing_register (n : Notifier) (property : Option String) (callback : Callback)
    (name : String) :
    (n.register property callback).hearing name =
      n.hearing name ++
        if (Listener.mk n.nextId property callback).hears name then [callback] else [] := by
  by_cases h : (Listener.mk n.nextId property callback).hears name <;>
    simp [register, hearing, h]

theorem mem_listeners_unregister {n : Notifier} {id : Nat} {l : Listener} :
    l ∈ (n.unregister id).listeners ↔ l ∈ n.listeners ∧ l.id ≠ id := by
  simp [unregister]

end Notifier

/-- Changes that wait to be delivered. -/
structure Batch where
  pending : List Change
  deriving Inhabited

namespace Batch

def empty : Batch := ⟨[]⟩

/-- Replace the value of the change with the given name, or append one. -/
def place (name : String) (value : Value) : List Change → List Change
  | [] => [⟨name, value⟩]
  | change :: rest =>
      if change.name = name then ⟨name, value⟩ :: rest else change :: place name value rest

def push (b : Batch) (name : String) (value : Value) : Batch := ⟨place name value b.pending⟩

/-- Push a change only if there is one. -/
def pushIf (b : Batch) (changed : Bool) (name : String) (value : Value) : Batch :=
  if changed then b.push name value else b

def size (b : Batch) : Nat := b.pending.length

/-- The names of the changes, in the order in which they are delivered. -/
def names (b : Batch) : List String := b.pending.map (·.name)

theorem names_place (name : String) (value : Value) (changes : List Change) :
    (place name value changes).map (·.name) =
      if name ∈ changes.map (·.name) then changes.map (·.name)
      else changes.map (·.name) ++ [name] := by
  induction changes with
  | nil => simp [place]
  | cons change rest ih =>
      by_cases h : change.name = name
      · simp [place, h]
      · have h' : name ≠ change.name := fun e => h e.symm
        by_cases m : name ∈ rest.map (·.name) <;> simp_all [place]

theorem names_push (b : Batch) (name : String) (value : Value) :
    (b.push name value).names = if name ∈ b.names then b.names else b.names ++ [name] :=
  names_place name value b.pending

end Batch

end Animation
