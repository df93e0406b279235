import GrowthGrammar.Turtle.Defaults
import Mathlib.Data.List.Induction

/-!
# Settings that were overridden

Values are given to settings again and again. Only the last value of each setting counts.
-/

namespace GrowthGrammar

namespace Defaults

theorem ext_get {first second : Defaults}
    (same : ∀ setting, first.get setting = second.get setting) : first = second := by
  rcases first with ⟨length, angle, radius, size⟩
  rcases second with ⟨otherLength, otherAngle, otherRadius, otherSize⟩
  obtain rfl : length = otherLength := same .length
  obtain rfl : angle = otherAngle := same .angle
  obtain rfl : radius = otherRadius := same .radius
  obtain rfl : size = otherSize := same .size
  rfl

theorem get_set (defaults : Defaults) (setting other : Setting) (value : Float) :
    (defaults.set setting value).get other =
      if other = setting then value else defaults.get other := by
  cases setting <;> cases other <;> rfl

theorem setNamed_append (defaults : Defaults) (first second : List (String × Float)) :
    defaults.setNamed (first ++ second) = (defaults.setNamed first).setNamed second := by
  simp only [setNamed, setAll, List.filterMap_append, List.foldl_append]

/-- The settings that were named, each with its last value. -/
def overrides (values : List (String × Float)) : List (String × Float) :=
  Setting.all.filterMap fun setting =>
    (values.reverse.lookup setting.name).map fun value => (setting.name, value)

end Defaults

theorem Setting.ofName?_name (setting : Setting) : ofName? setting.name = some setting := by
  cases setting <;> rfl

theorem Setting.name_of_ofName? {name : String} {setting : Setting}
    (found : ofName? name = some setting) : name = setting.name := by
  have same := List.find?_some found
  exact (of_decide_eq_true same).symm

theorem Setting.name_inj {first second : Setting} : first.name = second.name ↔ first = second := by
  constructor
  · intro same
    exact Option.some.inj (by rw [← first.ofName?_name, same, second.ofName?_name])
  · exact congrArg name

namespace Defaults

theorem get_setNamed_singleton (defaults : Defaults) (name : String) (value : Float)
    (setting : Setting) :
    (defaults.setNamed [(name, value)]).get setting =
      if setting.name = name then value else defaults.get setting := by
  have setNamed_eq : defaults.setNamed [(name, value)] =
      ((Setting.ofName? name).map fun other => defaults.set other value).getD defaults := by
    cases found : Setting.ofName? name <;> simp [setNamed, setAll, found]
  rw [setNamed_eq]
  cases found : Setting.ofName? name with
  | none =>
      have different : setting.name ≠ name := by
        rintro rfl
        rw [setting.ofName?_name] at found
        cases found
      rw [if_neg different]
      rfl
  | some other =>
      simp only [Option.map_some, Option.getD_some, get_set, Setting.name_of_ofName? found,
        Setting.name_inj]

/-- A setting has the last value under its name, if there is one. -/
theorem get_setNamed (defaults : Defaults) (values : List (String × Float)) (setting : Setting) :
    (defaults.setNamed values).get setting =
      (values.reverse.lookup setting.name).getD (defaults.get setting) := by
  induction values using List.reverseRecOn with
  | nil => rfl
  | append_singleton values pair induction =>
      rcases pair with ⟨name, value⟩
      rw [setNamed_append, get_setNamed_singleton, induction, List.reverse_append,
        List.reverse_singleton, List.singleton_append, List.lookup_cons]
      by_cases same : setting.name = name
      · rw [beq_iff_eq.mpr same, if_pos same]
        rfl
      · rw [beq_eq_false_iff_ne.mpr same, if_neg same]

theorem lookup_filterMap (value? : Setting → Option Float) (settings : List Setting)
    (setting : Setting) :
    (settings.filterMap fun other => (value? other).map fun value => (other.name, value)).lookup
      setting.name = if setting ∈ settings then value? setting else none := by
  induction settings with
  | nil => rfl
  | cons other settings induction =>
      rw [List.filterMap_cons]
      by_cases same : setting = other
      · subst same
        cases given : value? setting with
        | none => simpa [given] using induction
        | some value => simp
      · have apart : (setting.name == other.name) = false := by
          simpa [Setting.name_inj] using same
        cases given : value? other with
        | none => simpa [same] using induction
        | some value => simpa [same, List.lookup_cons, apart] using induction

theorem setNamed_overrides (defaults : Defaults) (values : List (String × Float)) :
    defaults.setNamed (overrides values) = defaults.setNamed values := by
  apply ext_get
  intro setting
  have known : setting ∈ Setting.all.reverse := by cases setting <;> decide
  rw [get_setNamed, get_setNamed, overrides, ← List.filterMap_reverse, lookup_filterMap,
    if_pos known]

end Defaults
end GrowthGrammar
