/-!
# Associations

Lists of values with keys, in the order in which the keys came.
-/

namespace GrowthGrammar

namespace Association

variable {κ : Type u} {α : Type v} [BEq κ]

/-- Put a value under a key. A key that is there already keeps its place. -/
def put (entries : List (κ × α)) (key : κ) (value : α) : List (κ × α) :=
  match entries with
  | [] => [(key, value)]
  | (other, old) :: rest =>
      if other == key then (key, value) :: rest else (other, old) :: put rest key value

theorem lookup_cons (key other : κ) (value : α) (entries : List (κ × α)) :
    ((key, value) :: entries).lookup other =
      if other == key then some value else entries.lookup other := by
  rw [List.lookup_cons]
  cases other == key <;> rfl

variable [LawfulBEq κ]

/-- Entries are kept by their keys. -/
theorem lookup_filter (keep : κ → Bool) (entries : List (κ × α)) (key : κ) :
    (entries.filter fun entry => keep entry.1).lookup key =
      if keep key then entries.lookup key else none := by
  induction entries with
  | nil => simp
  | cons entry rest induction =>
      rcases entry with ⟨head, value⟩
      by_cases found : key = head
      · subst found
        cases kept : keep key <;> simp [kept, induction]
      · have behind : (key == head) = false := beq_eq_false_iff_ne.mpr found
        cases kept : keep head <;> simp [kept, lookup_cons, behind, induction]

theorem lookup_put (entries : List (κ × α)) (key other : κ) (value : α) :
    (put entries key value).lookup other =
      if other == key then some value else entries.lookup other := by
  induction entries with
  | nil => rw [put, lookup_cons]
  | cons entry rest induction =>
      rcases entry with ⟨head, old⟩
      rw [put]
      split
      · next found =>
          obtain rfl : head = key := eq_of_beq found
          simp only [lookup_cons]
          split <;> rfl
      · next apart =>
          rw [lookup_cons, lookup_cons, induction]
          by_cases same : other = key
          · subst same
            have behind : (other == head) = false :=
              beq_eq_false_iff_ne.mpr fun equal => apart (beq_iff_eq.mpr equal.symm)
            rw [behind]
            simp
          · rw [beq_eq_false_iff_ne.mpr same]
            rfl

/-- Of two values that are put under one key the second counts. -/
theorem put_put (entries : List (κ × α)) (key : κ) (first second : α) :
    put (put entries key first) key second = put entries key second := by
  induction entries with
  | nil => simp [put]
  | cons entry rest induction =>
      rcases entry with ⟨head, old⟩
      by_cases found : head = key
      · simp [put, found]
      · simp [put, found, induction]

/-- It does not matter which of two values is put first when one of the keys is there already. -/
theorem put_comm {entries : List (κ × α)} {key other : κ} (apart : other ≠ key)
    (present : (entries.lookup key).isSome) (first second : α) :
    put (put entries key first) other second = put (put entries other second) key first := by
  induction entries with
  | nil => cases present
  | cons entry rest induction =>
      rcases entry with ⟨head, old⟩
      by_cases found : head = key
      · simp [put, found, apart.symm]
      · by_cases foundOther : head = other
        · simp [put, foundOther, apart]
        · have behind : (key == head) = false := beq_eq_false_iff_ne.mpr (Ne.symm found)
          have below : (rest.lookup key).isSome := by
            rw [lookup_cons, behind] at present
            exact present
          simp [put, found, foundOther, induction below]

end Association

end GrowthGrammar
