/-
# Changes that are held back

Whoever changes several properties at once pushes the changes to a batch. Until the batch is dropped
nobody hears of them, whatever else is done meanwhile. Then each property is told of once, in the
order in which the properties were first pushed, and with the value that was pushed last.

A push is a step that keeps what can be said of all pushes before it, and so it can be said of the
batch at any time.
-/

import Animation.Proofs.Observers.Dispatch
import Animation.Proofs.Observers.Mutation

namespace Animation

namespace Batch

variable {pushed pending : List Change}

/-- What is left of the changes that were pushed: one for each property, in the order in which the
properties were first pushed, each of them the last one pushed for its property. -/
structure Coalesced (pushed pending : List Change) : Prop where
  nodup : (pending.map (·.name)).Nodup
  names : pending.map (·.name) = (pushed.map (·.name)).eraseDups
  latest : ∀ change ∈ pending, ∃ before after,
    pushed = before ++ change :: after ∧ change.name ∉ after.map (·.name)

theorem coalesced_nil : Coalesced [] empty.pending where
  nodup := List.nodup_nil
  names := rfl
  latest _ mem := nomatch mem

/-- What is placed replaces the change of its name, and the others stay. -/
theorem eq_or_of_mem_place {name : String} {value : Value} {change : Change}
    (nodup : (pending.map (·.name)).Nodup) (mem : change ∈ place name value pending) :
    change = ⟨name, value⟩ ∨ change ∈ pending ∧ change.name ≠ name := by
  induction pending with
  | nil => exact .inl (List.mem_singleton.1 mem)
  | cons first rest ih =>
      obtain ⟨new, nodup⟩ := List.nodup_cons.1 nodup
      unfold place at mem
      split at mem
      case isTrue same =>
        rcases List.mem_cons.1 mem with rfl | mem
        · exact .inl rfl
        · refine .inr ⟨.tail _ mem, fun same' => new ?_⟩
          exact List.mem_map.2 ⟨change, mem, same'.trans same.symm⟩
      case isFalse other =>
        rcases List.mem_cons.1 mem with rfl | mem
        · exact .inr ⟨.head _, other⟩
        · exact (ih nodup mem).imp_right (And.imp_left (.tail _))

/-- A name that is new comes last. -/
theorem eraseDups_concat {α : Type} [DecidableEq α] (l : List α) (a : α) :
    (l ++ [a]).eraseDups = if a ∈ l.eraseDups then l.eraseDups else l.eraseDups ++ [a] := by
  rw [List.eraseDups_append]
  by_cases mem : a ∈ l <;> simp [mem, List.removeAll, List.eraseDups_cons]

namespace Coalesced

variable {b : Batch}

/-- One more change is pushed. -/
theorem push (h : Coalesced pushed b.pending) (change : Change) :
    Coalesced (pushed ++ [change]) (b.push change.name change.value).pending where
  nodup := by
    have nodup : b.names.Nodup := h.nodup
    exact nodup_pushIf nodup true change.name change.value
  names := by
    have names : b.names = (pushed.map (·.name)).eraseDups := h.names
    show (b.push change.name change.value).names = _
    rw [names_push, names, List.map_append, List.map_singleton, eraseDups_concat]
  latest news mem := by
    rcases eq_or_of_mem_place h.nodup mem with rfl | ⟨mem, other⟩
    · exact ⟨pushed, [], rfl, List.not_mem_nil⟩
    · obtain ⟨before, after, split, last⟩ := h.latest news mem
      refine ⟨before, after ++ [change], by rw [split, List.append_assoc, List.cons_append], ?_⟩
      rw [List.map_append, List.mem_append, not_or]
      exact ⟨last, fun mem => other (List.mem_singleton.1 mem)⟩

/-- There is one change for each property that was pushed. -/
theorem size_eq (h : Coalesced pushed b.pending) :
    b.size = (pushed.map (·.name)).toFinset.card := by
  have same : (b.pending.map (·.name)).toFinset = (pushed.map (·.name)).toFinset := by
    ext name
    rw [List.mem_toFinset, List.mem_toFinset, h.names, List.mem_eraseDups]
  rw [← same, List.toFinset_card_of_nodup h.nodup, List.length_map]
  rfl

end Coalesced

end Batch

namespace Script

variable {υ : Type}

/-- Push changes to a batch, and do something else after each push. -/
def fill (batch : Batch) : List (Change × Script υ Unit) → Script υ Batch
  | [] => pure batch
  | (change, meanwhile) :: rest => do
      let batch := batch.push change.name change.value
      meanwhile
      fill batch rest

theorem fill_append (batch : Batch) (done rest : List (Change × Script υ Unit)) :
    fill batch (done ++ rest) = fill batch done >>= fun batch => fill batch rest := by
  induction done generalizing batch with
  | nil => rw [List.nil_append, fill, pure_bind]
  | cons step done ih =>
      rw [List.cons_append, fill, fill, bind_assoc]
      exact bind_congr fun _ => ih _

/-- What comes to its end has come to the end of its first part before. -/
theorem exists_of_run_forEach_append {β : Type} {visit : β → Script υ Unit} {done rest : List β}
    {w w' : World υ} (h : (forEach visit (done ++ rest)).run w = (.ok (), w')) :
    ∃ w₁, (forEach visit done).run w = (.ok (), w₁) := by
  induction done generalizing w with
  | nil => exact ⟨w, rfl⟩
  | cons b done ih =>
      rw [List.cons_append, run_forEach_cons] at h
      obtain ⟨_, w₁, first, others⟩ := exists_of_run_bind_eq_ok h
      obtain ⟨w₂, run⟩ := ih others
      exact ⟨w₂, by rw [run_forEach_cons, run_bind_of_ok first, run]⟩

/-- All that happens while a batch is filled is what is done meanwhile. -/
theorem exists_run_fill {steps : List (Change × Script υ Unit)} {w w' : World υ} {batch : Batch}
    {pushed : List Change} (coalesced : Batch.Coalesced pushed batch.pending)
    (meanwhile : (forEach Prod.snd steps).run w = (.ok (), w')) :
    ∃ full : Batch, (fill batch steps).run w = (.ok full, w') ∧
      Batch.Coalesced (pushed ++ steps.map Prod.fst) full.pending := by
  -- What has been pushed before goes along with the batch.
  induction steps generalizing w batch pushed with
  | nil =>
      cases meanwhile
      rw [List.map_nil, List.append_nil]
      exact ⟨batch, rfl, coalesced⟩
  | cons step rest ih =>
      obtain ⟨change, also⟩ := step
      rw [run_forEach_cons] at meanwhile
      obtain ⟨_, w₁, first, others⟩ := exists_of_run_bind_eq_ok meanwhile
      obtain ⟨full, run, coalesced⟩ := ih (coalesced.push change) others
      rw [List.append_assoc] at coalesced
      exact ⟨full, (run_bind_of_ok first _).trans run, coalesced⟩

end Script

/-- What may be traced of the delivery of changes to a notifier. Each is delivered to those who hear
it when its turn comes. It goes on until all have been delivered, or a delivery is broken off. -/
inductive DeliversEach (n : Ref .notifier) :
    List Change → Notifiers → List Mark → Notifiers → Bool → Prop
  | done (t : Notifiers) : DeliversEach n [] t [] t true
  | next {change : Change} {changes : List Change} {t t' t'' : Notifiers} {l l' : List Mark}
      {ended : Bool} (first : Delivers change ((t.get n).hearing change.name) t l t' true)
      (rest : DeliversEach n changes t' l' t'' ended) :
      DeliversEach n (change :: changes) t (l ++ l') t'' ended
  | broken {change : Change} {changes : List Change} {t t' : Notifiers} {l : List Mark}
      (first : Delivers change ((t.get n).hearing change.name) t l t' false) :
      DeliversEach n (change :: changes) t l t' false

open Script in
/-- Changes are delivered one after the other. -/
theorem Regime.deliversEach_forEach {υ : Type} {host : Host (Traced υ)}
    (allows : (dispatching υ).Allows host) (n : Ref .notifier) (changes : List Change)
    (w : World (Traced υ)) :
    ∃ r w' l ended, (forEach (notify host.traced n) changes).run w = (r, w') ∧
      w'.user.trace = w.user.trace ++ l ∧
        DeliversEach n changes w.stage.notifiers l w'.stage.notifiers ended ∧
          (r = .ok () ↔ ended = true) := by
  induction changes generalizing w with
  | nil => exact ⟨_, w, [], true, rfl, (List.append_nil _).symm, .done _, by simp⟩
  | cons change rest ih =>
      obtain ⟨r, w₁, l, ended, run, trace, delivers, outcome⟩ := delivers_forEach
        (fun callback => allows.notified callback change)
        ((w.stage.notifiers.get n).hearing change.name)
        { w with stage := w.stage.note (.notified n change) }
      rw [← run_notify] at run
      rw [run_forEach_cons, run_bind, run]
      cases ended with
      | false =>
          cases r with
          | error fault => exact ⟨_, w₁, l, false, rfl, trace, .broken delivers, by simp⟩
          | ok _ => exact absurd (outcome.1 rfl) Bool.false_ne_true
      | true =>
          cases outcome.2 rfl
          obtain ⟨r, w', l', ended, run, trace', delivers', outcome⟩ := ih w₁
          refine ⟨r, w', l ++ l', ended, run, ?_, .next delivers delivers', outcome⟩
          rw [trace', trace, List.append_assoc]

open Script in
/-- While a batch is filled nothing happens but what is done meanwhile, and at any time it holds as
many changes as properties have been pushed. When it is dropped each property is told of once, in
the order in which the properties were first pushed and with the value pushed last, to those who
then hear of it. Nothing is left out, unless a delivery breaks off. -/
theorem Script.batch_coalesces {υ : Type} {host : Host (Traced υ)} (traceable : host.Traceable)
    (n : Ref .notifier) (steps : List (Change × Script (Traced υ) Unit))
    {w w₁ : World (Traced υ)} (meanwhile : (forEach Prod.snd steps).run w = (.ok (), w₁)) :
    (∀ done rest, done ++ rest = steps → ∃ (batch : Batch) (w₂ : World (Traced υ)),
      (forEach Prod.snd done).run w = (.ok (), w₂) ∧
      (fill .empty done).run w = (.ok batch, w₂) ∧
      (fill .empty steps).run w = (fill batch rest).run w₂ ∧
      batch.size = (done.map (·.1.name)).toFinset.card) ∧
    ∃ batch : Batch, (fill .empty steps).run w = (.ok batch, w₁) ∧
      Batch.Coalesced (steps.map Prod.fst) batch.pending ∧
      ∃ r w' l ended, (flush host.traced n batch).run w₁ = (r, w') ∧
        w'.user.trace = w₁.user.trace ++ l ∧
        DeliversEach n batch.pending w₁.stage.notifiers l w'.stage.notifiers ended ∧
        (r = .ok () ↔ ended = true) := by
  constructor
  · rintro done rest rfl
    obtain ⟨w₂, until'⟩ := exists_of_run_forEach_append meanwhile
    obtain ⟨batch, filled, coalesced⟩ := exists_run_fill Batch.coalesced_nil until'
    rw [List.nil_append] at coalesced
    refine ⟨batch, w₂, until', filled, ?_, ?_⟩
    · rw [fill_append, run_bind_of_ok filled]
    · rw [coalesced.size_eq, List.map_map]
      rfl
  · obtain ⟨batch, filled, coalesced⟩ := exists_run_fill Batch.coalesced_nil meanwhile
    rw [List.nil_append] at coalesced
    exact ⟨batch, filled, coalesced,
      Regime.deliversEach_forEach traceable.dispatching n batch.pending w₁⟩

namespace Stage

open Script

/-- Somebody registers while the batch is filled, after the property has been pushed of which he is
to hear. -/
def pushing : List (Change × Script (Traced Unit) Unit) :=
  [(⟨"x", .integer 1⟩, pure ()), (⟨"y", .boolean true⟩, pure ()),
    (⟨"x", .integer 3⟩, change (·.modifyNotifier ⟨0⟩ (·.register (some "y") 15)))]

/-- What is left when all has been pushed. -/
def pushed : World (Traced Unit) := ((forEach Prod.snd pushing).run ⟨enlisted, ⟨(), []⟩⟩).2

/-- Both properties are told of once, after the one who registered late is there to hear of it. -/
theorem batch_coalesces_pushing : ∃ (batch : Batch) (w' : World (Traced Unit)) (l : List Mark),
    (fill .empty pushing).run ⟨enlisted, ⟨(), []⟩⟩ = (.ok batch, pushed) ∧
      pushed.user.trace = [] ∧ batch.pending = [⟨"x", .integer 3⟩, ⟨"y", .boolean true⟩] ∧
      (flush meddling.traced ⟨0⟩ batch).run pushed = (.ok (), w') ∧
      DeliversEach ⟨0⟩ batch.pending pushed.stage.notifiers l w'.stage.notifiers true ∧
      l = [.enters (.notified 10 ⟨"x", .integer 3⟩),
        .enters (.notified 10 ⟨"y", .null⟩), .leaves (some ⟨0, []⟩),
        .enters (.notified 12 ⟨"y", .null⟩), .leaves (some ⟨0, []⟩),
        .enters (.notified 15 ⟨"y", .null⟩), .leaves (some ⟨0, []⟩), .leaves (some ⟨0, []⟩),
        .enters (.notified 11 ⟨"x", .integer 3⟩), .leaves (some ⟨0, []⟩),
        .enters (.notified 13 ⟨"x", .integer 3⟩), .leaves (some ⟨0, []⟩),
        .enters (.notified 10 ⟨"y", .boolean true⟩), .leaves (some ⟨0, []⟩),
        .enters (.notified 12 ⟨"y", .boolean true⟩), .leaves (some ⟨0, []⟩),
        .enters (.notified 15 ⟨"y", .boolean true⟩), .leaves (some ⟨0, []⟩)] := by
  have meanwhile : (forEach Prod.snd pushing).run ⟨enlisted, ⟨(), []⟩⟩ = (.ok (), pushed) :=
    Prod.ext (by decide +kernel) rfl
  obtain ⟨-, batch, filled, -, r, w', l, ended, run, trace, delivers, outcome⟩ :=
    batch_coalesces traceable_meddling ⟨0⟩ pushing meanwhile
  have whole : batch = ⟨[⟨"x", .integer 3⟩, ⟨"y", .boolean true⟩]⟩ :=
    Except.ok.inj (congrArg Prod.fst filled).symm
  subst whole
  have finished : ((flush meddling.traced ⟨0⟩
      ⟨[⟨"x", .integer 3⟩, ⟨"y", .boolean true⟩]⟩).run pushed).1 = .ok () := by
    decide +kernel
  have untold : pushed.user.trace = [] := by decide +kernel
  have traced : l = ((flush meddling.traced ⟨0⟩
      ⟨[⟨"x", .integer 3⟩, ⟨"y", .boolean true⟩]⟩).run pushed).2.user.trace := by
    rw [run, trace, untold, List.nil_append]
  rw [run] at finished
  rw [outcome.1 finished] at delivers
  exact ⟨_, w', l, filled, untold, rfl, finished ▸ run, delivers,
    traced.trans (by decide +kernel)⟩

end Stage

end Animation
