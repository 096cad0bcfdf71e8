import Mathlib.Data.List.Basic

/-!
# proto3 messages as JSON objects

A field without presence is left out at its zero value, a field with presence
where it is not set. A reader that takes a default for what is missing gives the
message back if each default is the zero value of its field.
-/

namespace ProtoJson

variable {E J α β : Type}

/-- The members of an object, from the message's fields in their order. -/
def members (fields : List (String × Option J)) : List (String × J) :=
  fields.filterMap fun field => field.2.map fun value => (field.1, value)

/-- What a field without presence holds. -/
def nonzero [DecidableEq α] (zero value : α) : Option α := if value = zero then none else some value

@[simp] theorem getD_nonzero [DecidableEq α] (zero value : α) : (nonzero zero value).getD zero = value := by
  unfold nonzero
  split
  · rename_i h
    rw [h, Option.getD_none]
  · rfl

theorem nonzero_of_ne [DecidableEq α] {zero value : α} (h : value ≠ zero) : nonzero zero value = some value := if_neg h

theorem lookup_members_cons {key name : String} {value : Option J} {fields : List (String × Option J)} :
    (members ((name, value) :: fields)).lookup key =
      if key = name then value.or ((members fields).lookup key) else (members fields).lookup key := by
  cases value with
  | none =>
    have hskip : members ((name, none) :: fields) = members fields := rfl
    rw [hskip, Option.none_or, ite_self]
  | some value =>
    have hcons : members ((name, some value) :: fields) = (name, value) :: members fields := rfl
    rw [hcons, List.lookup_cons]
    by_cases h : key = name
    · simp [h]
    · simp [h, beq_false_of_ne h]

theorem lookup_members_of_notMem {key : String} {fields : List (String × Option J)} (h : key ∉ fields.map (·.1)) :
    (members fields).lookup key = none := by
  induction fields with
  | nil => rfl
  | cons field fields ih =>
    obtain ⟨hne, hrest⟩ : key ≠ field.1 ∧ key ∉ fields.map (·.1) := by simpa using h
    rw [lookup_members_cons, if_neg hne, ih hrest]

/-- A member is what its field holds. -/
theorem lookup_members {fields : List (String × Option J)} (hnodup : (fields.map (·.1)).Nodup) (key : String)
    {value : Option J} (h : fields.lookup key = some value) : (members fields).lookup key = value := by
  induction fields with
  | nil => cases h
  | cons field fields ih =>
    obtain ⟨hnew, hrest⟩ := List.nodup_cons.mp hnodup
    rw [lookup_members_cons]
    rw [List.lookup_cons] at h
    by_cases hkey : key = field.1
    · have hvalue : field.2 = value := by simpa [hkey] using h
      rw [if_pos hkey, lookup_members_of_notMem (hkey ▸ hnew), hvalue, Option.or_none]
    · have hlater : fields.lookup key = some value := by simpa [beq_false_of_ne hkey] using h
      rw [if_neg hkey, ih hrest hlater]

/-- A list is read back if each of its elements is. -/
theorem mapM_encoded {encode : α → J} {decode : J → Except E β} {back : α → β} : ∀ {l : List α},
    (∀ a ∈ l, decode (encode a) = .ok (back a)) → (l.map encode).mapM decode = .ok (l.map back) := by
  intro l
  induction l with
  | nil => exact fun _ => rfl
  | cons a l ih =>
    intro h
    rw [List.map_cons, List.mapM_cons, h a (List.mem_cons_self ..), ih fun b hb => h b (List.mem_cons_of_mem _ hb)]
    rfl

end ProtoJson
