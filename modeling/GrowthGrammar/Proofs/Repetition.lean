import Mathlib.Data.List.Basic
import Mathlib.Data.List.Nodup

/-!
# Lists without repetitions

What is left of a list when each of its values is kept at its first place only.
-/

namespace GrowthGrammar

namespace Repetition

/-- Induction along the first value and those behind it that are kept, whichever these are. -/
theorem filter_induction {property : List α → Prop} (nil : property [])
    (cons : ∀ item items, (∀ keep, property (items.filter keep)) → property (item :: items))
    (items : List α) : property items := by
  induction size : items.length using Nat.strongRecOn generalizing items with
  | _ _ induction =>
      cases items with
      | nil => exact nil
      | cons item items =>
          refine cons item items fun keep => induction _ ?_ (items.filter keep) rfl
          rw [← size]
          exact Nat.lt_succ_of_le (List.length_filter_le keep items)

/-- When values are the same as their keys are, the keys of those that are kept are the keys that
are kept. -/
theorem map_eraseDupsBy [BEq α] (key : β → α) (items : List β) :
    (items.eraseDupsBy fun first second => key first == key second).map key =
      (items.map key).eraseDups := by
  induction items using filter_induction with
  | nil => rfl
  | cons item items induction =>
      have same : (fun other => decide ((key other == key item) = false)) =
          (fun other => !other == key item) ∘ key := by
        funext other
        simp
      rw [List.eraseDupsBy_cons, List.map_cons, List.map_cons, List.eraseDups_cons, induction,
        List.filter_map, same]

theorem mem_of_mem_eraseDupsBy {same : α → α → Bool} {items : List α} {item : α}
    (member : item ∈ items.eraseDupsBy same) : item ∈ items := by
  induction items using filter_induction with
  | nil => cases member
  | cons head items induction =>
      rw [List.eraseDupsBy_cons, List.mem_cons] at member
      rcases member with equal | member
      · exact equal ▸ List.mem_cons_self
      · exact List.mem_cons_of_mem head (List.mem_of_mem_filter (induction _ member))

/-- Keys that are all different find one item each. -/
theorem filter_eq_singleton [DecidableEq β] {key : α → β} {items : List α}
    (nodup : (items.map key).Nodup) {item : α} (member : item ∈ items) :
    items.filter (fun other => key other = key item) = [item] := by
  induction items with
  | nil => cases member
  | cons head items induction =>
      rw [List.map_cons, List.nodup_cons] at nodup
      rcases nodup with ⟨headKey, nodup⟩
      rcases List.mem_cons.mp member with rfl | member
      · have others : items.filter (fun other => key other = key item) = [] := by
          apply List.filter_eq_nil_iff.mpr
          intro other otherMember
          simpa using fun equal : key other = key item =>
            headKey (equal ▸ List.mem_map_of_mem otherMember)
        rw [List.filter_cons_of_pos (by simp), others]
      · have different : key head ≠ key item :=
          fun equal => headKey (equal ▸ List.mem_map_of_mem member)
        rw [List.filter_cons_of_neg (by simpa using different), induction nodup member]

/-- Values made for different items are different when they tell their items. -/
theorem nodup_flatMap_of_key (key : β → α) {items : List α} {values : α → List β}
    (nodup : items.Nodup) (each : ∀ item ∈ items, (values item).Nodup)
    (tells : ∀ item ∈ items, ∀ value ∈ values item, key value = item) :
    (items.flatMap values).Nodup := by
  refine List.nodup_flatMap.mpr ⟨each, nodup.imp_of_mem fun first second different => ?_⟩
  intro value inFirst inSecond
  exact different ((tells _ first value inFirst).symm.trans (tells _ second value inSecond))

/-- Items that are gathered by their keys, one key after the other, are all there. -/
theorem flatMap_filter_perm [DecidableEq β] (key : α → β) (items : List α) :
    ((items.map key).eraseDups.flatMap fun value => items.filter fun item => key item = value).Perm
      items := by
  induction items using filter_induction with
  | nil => exact .nil
  | cons item items induction =>
      -- What has the key of the first item is gathered at once, and the rest as if it were alone.
      let others := items.filter fun other => !decide (key other = key item)
      have keys_eq : ((item :: items).map key).eraseDups =
          key item :: (others.map key).eraseDups := by
        rw [List.map_cons, List.eraseDups_cons, List.filter_map]
        rfl
      have gathered : ∀ value ∈ (others.map key).eraseDups,
          (item :: items).filter (fun other => key other = value) =
            others.filter fun other => key other = value := by
        intro value member
        rcases List.mem_map.mp (List.mem_eraseDups.mp member) with ⟨other, otherMember, rfl⟩
        have different : key other ≠ key item := by simpa using (List.mem_filter.mp otherMember).2
        rw [List.filter_cons_of_neg (by simpa using different.symm), List.filter_filter]
        apply List.filter_congr
        intro third _
        by_cases equal : key third = key other <;> simp [equal, different]
      have behind : (item :: items).filter (fun other => !decide (key other = key item)) = others :=
        List.filter_cons_of_neg (by simp)
      rw [keys_eq, List.flatMap_cons, List.flatMap_congr gathered]
      refine ((induction _).append_left _).trans ?_
      have parts := List.filter_append_perm (fun other => key other = key item) (item :: items)
      rwa [behind] at parts

variable [BEq α] [LawfulBEq α]

theorem nodup_eraseDups (items : List α) : items.eraseDups.Nodup := by
  induction items using filter_induction with
  | nil => exact List.nodup_nil
  | cons item items induction =>
      rw [List.eraseDups_cons, List.nodup_cons]
      exact ⟨by simp, induction _⟩

/-- Values that are told apart in the same way are kept at the same places. -/
theorem eraseDups_map [BEq β] [LawfulBEq β] {change : α → β} {items : List α}
    (apart : ∀ first ∈ items, ∀ second ∈ items, change first = change second → first = second) :
    (items.map change).eraseDups = items.eraseDups.map change := by
  induction items using filter_induction with
  | nil => rfl
  | cons item items induction =>
      have same : items.filter ((fun other => !other == change item) ∘ change) =
          items.filter fun other => !other == item := by
        apply List.filter_congr
        intro other member
        have equal_iff : change other = change item ↔ other = item :=
          ⟨apart other (List.mem_cons_of_mem item member) item List.mem_cons_self,
            fun equal => equal ▸ rfl⟩
        by_cases equal : other = item <;> simp [equal, equal_iff]
      rw [List.map_cons, List.eraseDups_cons, List.eraseDups_cons, List.filter_map, same,
        List.map_cons, induction]
      intro first firstMember second secondMember
      exact apart first (List.mem_cons_of_mem item (List.mem_of_mem_filter firstMember)) second
        (List.mem_cons_of_mem item (List.mem_of_mem_filter secondMember))

theorem map_idxOf_of_nodup {items : List α} (nodup : items.Nodup) :
    items.map (items.idxOf ·) = List.range items.length := by
  apply List.ext_getElem
  · simp
  · intro place _ inside
    rw [List.getElem_map, List.getElem_range, nodup.idxOf_getElem]

/-- Places in the order of first use are in order themselves. -/
theorem eraseDups_map_idxOf (items : List α) :
    (items.map (items.eraseDups.idxOf ·)).eraseDups = List.range items.eraseDups.length := by
  rw [eraseDups_map, map_idxOf_of_nodup (nodup_eraseDups items)]
  intro first firstMember second _ equal
  exact (List.idxOf_inj (List.mem_eraseDups.mpr firstMember)).mp equal

end Repetition

end GrowthGrammar
