/-
# Values without tags

The JSON of a property value does not tell of what kind the value is. The reader tries the kinds
one after the other and takes the first that will do, and their JSON overlaps: a whole number could
be read as a number, the gravity that is none is a string like any other name, and a number that is
not finite has no text but null. The order of the kinds is such that what is carried of a value is
refused by all kinds before its own, and its own kind gives it back. So the tag is not missed.
-/

import Animation.Proofs.Json.Rereading

namespace Animation

section Names

variable {α : Type}

theorem Json.readCase_text {ofName? : String → Option α} {word : String} {a : α}
    (h : ofName? word = some a) : readCase ofName? (text word) = .ok a := by
  have found : (text word).asName?.bind ofName? = some a := h
  unfold readCase
  rw [found]

theorem Gravity.ofJson_toJson (g : Gravity) : ofJson g.toJson = .ok g :=
  Json.readCase_text (ofName?_name g)

theorem Easing.ofJson_toJson (easing : Easing) : ofJson easing.toJson = .ok easing :=
  Json.readCase_text (ofName?_name easing)

theorem Direction.ofJson_toJson (d : Direction) : ofJson d.toJson = .ok d :=
  Json.readCase_text (ofName?_name d)

end Names

namespace Value

/-- The kinds of values. -/
inductive Kind where
  | null
  | boolean
  | integer
  | float
  | gravity
  deriving DecidableEq

def kind : Value → Kind
  | null => .null
  | boolean _ => .boolean
  | integer _ => .integer
  | float _ => .float
  | gravity _ => .gravity

namespace Kind

/-- All kinds, in the order in which they are tried. -/
def all : List Kind := [null, boolean, integer, float, gravity]

/-- The kinds that are tried before. -/
def earlier (k : Kind) : List Kind := all.takeWhile (· ≠ k)

/-- Read JSON as a value of one kind. A whole number will do for a number. -/
def attempt : Kind → Json → Except DecodeError Value
  | null, .null => .ok .null
  | boolean, .bool b => .ok (.boolean b)
  | integer, .natural n => .ok (.integer n)
  | float, j =>
      match j.asDouble? with
      | some x => .ok (.float x)
      | none => .error .malformed
  | gravity, j => do return .gravity (← Gravity.ofJson j)
  | _, _ => .error .malformed

end Kind

/-- A value is read as the first kind that will do. -/
theorem toOption_ofJson (j : Json) :
    (ofJson j).toOption = Kind.all.findSome? fun k => (k.attempt j).toOption := by
  have name : ∀ j : Json, (do return gravity (← Gravity.ofJson j) : Except _ _).toOption =
      [Kind.gravity].findSome? fun k => (k.attempt j).toOption := by
    intro j
    rw [List.findSome?_singleton]
    rfl
  cases j with
  | null | bool _ | natural _ | negative _ | float _ => rfl
  | text _ | list _ | object _ | unreadable | broken => exact name _

/-- The kinds that are tried before refuse the JSON of a value. -/
theorem attempt_earlier (v : Value) {k : Kind} (mem : k ∈ v.kind.earlier) :
    k.attempt v.toJson = .error .malformed := by
  -- either the shape is wrong or the kind is not tried before
  cases v <;> cases k <;> first | rfl | simp [kind, Kind.earlier, Kind.all] at mem

theorem attempt_kind (v : Value) : v.kind.attempt v.toJson = .ok v := by
  cases v with
  | null | boolean _ | integer _ | float _ => rfl
  | gravity g =>
      show (do return gravity (← Gravity.ofJson g.toJson)) = _
      rw [g.ofJson_toJson]
      rfl

theorem ofJson_toJson (v : Value) : ofJson v.toJson = .ok v := by
  cases v with
  | null | boolean _ | integer _ | float _ => rfl
  | gravity g => exact attempt_kind (gravity g)

variable {carry : Json → Except DecodeError Json} {numbers : Double → Prop}

/-- A value is carried, unless it is a number that the format does not carry. -/
theorem carry_toJson (carries : Json.Carries carry numbers) {v : Value}
    (within : ∀ x, v = float x → x.isFinite = true ∧ numbers x) :
    carry v.toJson = .ok v.toJson := by
  cases v with
  | null => exact carries.null
  | boolean b => exact carries.bool b
  | integer n => exact carries.natural n
  | float x => exact carries.float (within x rfl).1 (within x rfl).2
  | gravity g => exact carries.text g.name

/-- What is read in the end is what is read of the value that is carried. -/
theorem bind_of_carried {α : Type} {j k : Json} {read : Json → Except DecodeError α} {a : α}
    (carried : carry j = .ok k) (back : read k = .ok a) : (carry j >>= read) = .ok a := by
  rw [carried]
  exact back

/-- From its text, a value is read as it was written, unless it is a number and its text is read as
another one. -/
theorem decode_write {v : Value}
    (within : ∀ x, v = float x → x.isFinite = true ∧ Json.reread (.float x) = .ok (.float x)) :
    Json.decode ofJson v.toJson.write = .ok v := by
  rw [Json.decode_of_reread (carry_toJson Json.carries_reread within), v.ofJson_toJson]

/-- To read is to try the kinds in order until one will do. Of a value that was written and that the
text format carries, all kinds refuse that are tried before the value's own, and that one gives the
value back. So a value of any kind is read as it was written, but a number that is not finite is
read as null. Gravities, easings and directions are read as they were written. -/
theorem read_as_written (carries : Json.Carries carry numbers) :
    (∀ j, (ofJson j).toOption = Kind.all.findSome? fun k => (k.attempt j).toOption) ∧
    (∀ v : Value, (∀ x, v = float x → x.isFinite = true ∧ numbers x) →
      ∃ j, carry v.toJson = .ok j ∧ (∀ k ∈ v.kind.earlier, k.attempt j = .error .malformed) ∧
        v.kind.attempt j = .ok v ∧ ofJson j = .ok v) ∧
    (∀ x : Double, x.isFinite = false → (carry (float x).toJson >>= ofJson) = .ok null) ∧
    (∀ g : Gravity, (carry g.toJson >>= Gravity.ofJson) = .ok g) ∧
    (∀ easing : Easing, (carry easing.toJson >>= Easing.ofJson) = .ok easing) ∧
    ∀ d : Direction, (carry d.toJson >>= Direction.ofJson) = .ok d := by
  refine ⟨toOption_ofJson, fun v within => ?_, fun x beyond => ?_, fun g => ?_, fun easing => ?_,
    fun d => ?_⟩
  · exact ⟨v.toJson, carry_toJson carries within, fun _ => v.attempt_earlier, v.attempt_kind,
      v.ofJson_toJson⟩
  · exact bind_of_carried (carries.beyond beyond) rfl
  · exact bind_of_carried (carries.text g.name) g.ofJson_toJson
  · exact bind_of_carried (carries.text easing.name) easing.ofJson_toJson
  · exact bind_of_carried (carries.text d.name) d.ofJson_toJson

/-- Two ways to write one, the gravity that is none, and what is larger than all numbers. -/
theorem read_as_written_ones :
    (float 1).toJson.write = "1.0" ∧ (integer 1).toJson.write = "1" ∧
      (∃ j, Json.reread (float 1).toJson = .ok j ∧ ofJson j = .ok (float 1)) ∧
      (∃ j, Json.reread (integer 1).toJson = .ok j ∧ ofJson j = .ok (integer 1)) ∧
      (∃ j, Json.reread (gravity .none).toJson = .ok j ∧ ofJson j = .ok (gravity .none)) ∧
      (Json.reread (float (.infinite false)).toJson >>= ofJson) = .ok null := by
  obtain ⟨-, carried, beyond, -⟩ := read_as_written Json.carries_reread
  have back : Json.reread (.float 1) = .ok (.float 1) := by
    unfold Json.reread
    rfl
  refine ⟨by decide +kernel, by decide +kernel, ?_, ?_, ?_, beyond _ rfl⟩
  · obtain ⟨j, reread, -, -, read⟩ := carried (float 1) fun x same => by
      cases same
      exact ⟨rfl, back⟩
    exact ⟨j, reread, read⟩
  · obtain ⟨j, reread, -, -, read⟩ := carried (integer 1) fun _ => Value.noConfusion
    exact ⟨j, reread, read⟩
  · obtain ⟨j, reread, -, -, read⟩ := carried (gravity .none) fun _ => Value.noConfusion
    exact ⟨j, reread, read⟩

end Value

end Animation
