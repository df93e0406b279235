import Mathlib.Data.List.Forall2

/-!
# Computations that can fail

How the result of a compound computation comes apart into the results of its parts, and when a
computation with a state has a result from every state.
-/

namespace GrowthGrammar

namespace Fallible

/-! Results of computations without a state. -/

theorem ok_bind (first : α) (next : α → Except ε β) : (Except.ok first >>= next) = next first :=
  rfl

theorem bind_eq_ok_iff {action : Except ε α} {next : α → Except ε β} {value : β} :
    action >>= next = .ok value ↔ ∃ first, action = .ok first ∧ next first = .ok value := by
  cases action with
  | error error => simp [bind, Except.bind]
  | ok first => simp [bind, Except.bind]

theorem map_eq_ok_iff {action : Except ε α} {change : α → β} {value : β} :
    action.map change = .ok value ↔ ∃ first, action = .ok first ∧ change first = value := by
  cases action with
  | error error => simp [Except.map]
  | ok first => simp [Except.map]

theorem mapError_eq_ok_iff {action : Except ε α} {change : ε → ε'} {value : α} :
    action.mapError change = .ok value ↔ action = .ok value := by
  cases action with
  | error error => simp [Except.mapError]
  | ok first => simp [Except.mapError]

theorem mapError_bind (action : Except ε α) (next : α → Except ε β) (change : ε → ε') :
    (action >>= next).mapError change =
      action.mapError change >>= fun value => (next value).mapError change := by
  cases action <;> rfl

theorem mapM_mapError (read : α → Except ε β) (change : ε → ε') (items : List α) :
    (items.mapM fun item => (read item).mapError change) = (items.mapM read).mapError change := by
  induction items with
  | nil => rfl
  | cons item items induction =>
      rw [List.mapM_cons, List.mapM_cons, induction, mapError_bind]
      congr 1
      funext value
      rw [mapError_bind]
      rfl

theorem exists_ok_of_isOk {action : Except ε α} (accepted : action.isOk) :
    ∃ value, action = .ok value := by
  cases action with
  | error error => cases accepted
  | ok value => exact ⟨value, rfl⟩

theorem exists_mem_of_forall₂ {relation : α → β → Prop} {items : List α} {values : List β}
    (related : List.Forall₂ relation items values) {value : β} (member : value ∈ values) :
    ∃ item ∈ items, relation item value := by
  induction related with
  | nil => cases member
  | cons head _ induction =>
      rcases List.mem_cons.mp member with rfl | member
      · exact ⟨_, List.mem_cons_self, head⟩
      · rcases induction member with ⟨item, itemMember, holds⟩
        exact ⟨item, List.mem_cons_of_mem _ itemMember, holds⟩

/-- The values that are read from a list are those of its items, in order. -/
theorem forall₂_of_mapM_eq_ok {read : α → Except ε β} {items : List α} {values : List β}
    (read_eq : items.mapM read = .ok values) :
    List.Forall₂ (fun item value => read item = .ok value) items values := by
  induction items generalizing values with
  | nil =>
      cases read_eq
      exact .nil
  | cons item items induction =>
      rw [List.mapM_cons] at read_eq
      rcases bind_eq_ok_iff.mp read_eq with ⟨head, head_eq, read_eq⟩
      rcases bind_eq_ok_iff.mp read_eq with ⟨rest, rest_eq, read_eq⟩
      cases read_eq
      exact .cons head_eq (induction rest_eq)

/-- Every value that is read from a list is read from one of its items. -/
theorem exists_mem_of_mapM_eq_ok {read : α → Except ε β} {items : List α} {values : List β}
    (read_eq : items.mapM read = .ok values) {value : β} (member : value ∈ values) :
    ∃ item ∈ items, read item = .ok value :=
  exists_mem_of_forall₂ (forall₂_of_mapM_eq_ok read_eq) member

/-- Every item is read, and what is read is related to it. -/
theorem exists_mapM_eq_ok {read : α → Except ε β} {relation : α → β → Prop} {items : List α}
    (each : ∀ item ∈ items, ∃ value, read item = .ok value ∧ relation item value) :
    ∃ values, items.mapM read = .ok values ∧ List.Forall₂ relation items values := by
  induction items with
  | nil => exact ⟨[], rfl, .nil⟩
  | cons item items induction =>
      rcases List.forall_mem_cons.mp each with ⟨⟨value, value_eq, related⟩, others⟩
      rcases induction others with ⟨values, values_eq, allRelated⟩
      refine ⟨value :: values, ?_, .cons related allRelated⟩
      rw [List.mapM_cons, value_eq, values_eq]
      rfl

/-- Every item is changed and read, and what is read is related to it. -/
theorem exists_mapM_map_eq_ok {read : β → Except ε γ} {change : α → β} {relation : α → γ → Prop}
    {items : List α}
    (each : ∀ item ∈ items, ∃ value, read (change item) = .ok value ∧ relation item value) :
    ∃ values, (items.map change).mapM read = .ok values ∧ List.Forall₂ relation items values := by
  rw [List.mapM_map]
  exact exists_mapM_eq_ok each

/-- What is read back from each item is the list itself. -/
theorem mapM_map_eq_ok {read : β → Except ε α} {change : α → β} {items : List α}
    (read_eq : ∀ item ∈ items, read (change item) = .ok item) :
    (items.map change).mapM read = .ok items := by
  have each : ∀ item ∈ items, ∃ value, read (change item) = .ok value ∧ item = value :=
    fun item member => ⟨item, read_eq item member, rfl⟩
  rcases exists_mapM_map_eq_ok each with ⟨values, values_eq, equal⟩
  rw [List.forall₂_eq_eq_eq] at equal
  rw [values_eq, equal]

/-- What is the same of related items is the same of the lists. -/
theorem map_eq_map_of_forall₂ {relation : α → β → Prop} {first : α → γ} {second : β → γ}
    (same : ∀ item value, relation item value → second value = first item) {items : List α}
    {values : List β} (related : List.Forall₂ relation items values) :
    values.map second = items.map first := by
  induction related with
  | nil => rfl
  | cons head _ induction => rw [List.map_cons, List.map_cons, same _ _ head, induction]

theorem mapM_eq_some_map {read : α → Option β} {value : α → β} {items : List α}
    (read_eq : ∀ item ∈ items, read item = some (value item)) :
    items.mapM read = some (items.map value) := by
  induction items with
  | nil => rfl
  | cons item items induction =>
      rcases List.forall_mem_cons.mp read_eq with ⟨first, others⟩
      rw [List.mapM_cons, first, induction others]
      rfl

/-! Results of computations with a state. -/

theorem run_bind_eq_ok_iff {action : EStateM ε σ α} {next : α → EStateM ε σ β}
    {before after : σ} {value : β} :
    (action >>= next).run before = .ok value after ↔
      ∃ first between, action.run before = .ok first between ∧
        (next first).run between = .ok value after := by
  rw [EStateM.run_bind]
  cases action.run before with
  | error error between => simp
  | ok first between => simp

theorem run_bind_eq_error_iff {action : EStateM ε σ α} {next : α → EStateM ε σ β}
    {before after : σ} {error : ε} :
    (action >>= next).run before = .error error after ↔
      action.run before = .error error after ∨
        ∃ first between, action.run before = .ok first between ∧
          (next first).run between = .error error after := by
  rw [EStateM.run_bind]
  cases action.run before with
  | error error between => simp
  | ok first between => simp

theorem run_forM_append_eq_ok_iff {act : α → EStateM ε σ PUnit} {first second : List α}
    {before after : σ} :
    ((first ++ second).forM act).run before = .ok ⟨⟩ after ↔
      ∃ between, (first.forM act).run before = .ok ⟨⟩ between ∧
        (second.forM act).run between = .ok ⟨⟩ after := by
  change (forM (first ++ second) act).run before = .ok ⟨⟩ after ↔ _
  rw [List.forM_append, run_bind_eq_ok_iff]
  exact ⟨fun ⟨_, between, runs⟩ => ⟨between, runs⟩, fun ⟨between, runs⟩ => ⟨⟨⟩, between, runs⟩⟩

theorem run_forM_cons_eq_ok_iff {act : α → EStateM ε σ PUnit} {item : α} {items : List α}
    {before after : σ} :
    ((item :: items).forM act).run before = .ok ⟨⟩ after ↔
      ∃ between, (act item).run before = .ok ⟨⟩ between ∧
        (items.forM act).run between = .ok ⟨⟩ after := by
  change (act item >>= fun _ => items.forM act).run before = .ok ⟨⟩ after ↔ _
  rw [run_bind_eq_ok_iff]
  exact ⟨fun ⟨_, between, runs⟩ => ⟨between, runs⟩, fun ⟨between, runs⟩ => ⟨⟨⟩, between, runs⟩⟩

/-- A run over a list fails at the first item that fails. -/
theorem run_forM_error_iff {act : α → EStateM ε σ PUnit} {items : List α} {before : σ}
    {error : ε} :
    (∃ after, (items.forM act).run before = .error error after) ↔
      ∃ done item rest between after, items = done ++ item :: rest ∧
        (done.forM act).run before = .ok ⟨⟩ between ∧
        (act item).run between = .error error after := by
  constructor
  · rintro ⟨after, run⟩
    induction items generalizing before with
    | nil => cases run
    | cons item items induction =>
        change (act item >>= fun _ => items.forM act).run before = .error error after at run
        rcases run_bind_eq_error_iff.mp run with failed | ⟨⟨⟩, between, first, failed⟩
        · exact ⟨[], item, items, before, after, rfl, rfl, failed⟩
        · rcases induction failed with ⟨done, other, rest, last, after, rfl, runDone, failed⟩
          exact ⟨item :: done, other, rest, last, after, rfl,
            run_forM_cons_eq_ok_iff.mpr ⟨between, first, runDone⟩, failed⟩
  · rintro ⟨done, item, rest, between, after, rfl, runDone, failed⟩
    refine ⟨after, ?_⟩
    change (forM (done ++ item :: rest) act).run before = .error error after
    rw [List.forM_append, run_bind_eq_error_iff]
    refine .inr ⟨⟨⟩, between, runDone, ?_⟩
    rw [List.forM_cons, run_bind_eq_error_iff]
    exact .inl failed

/-- The state in which a run ends, with or without an error. -/
def stateOf : EStateM.Result ε σ α → σ
  | .ok _ after => after
  | .error _ after => after

def mapState (change : σ → σ') : EStateM.Result ε σ α → EStateM.Result ε σ' α
  | .ok value after => .ok value (change after)
  | .error error after => .error error (change after)

/-- Whether a run comes to its end without an error. -/
def isCompleted : EStateM.Result ε σ α → Bool
  | .ok _ _ => true
  | .error _ _ => false

theorem exists_ok_of_isCompleted {result : EStateM.Result ε σ α} (completed : isCompleted result) :
    ∃ value after, result = .ok value after := by
  cases result with
  | ok value after => exact ⟨value, after, rfl⟩
  | error error after => cases completed

/-- The error that a run ends with. -/
def errorOf? : EStateM.Result ε σ α → Option ε
  | .ok _ _ => none
  | .error error _ => some error

theorem errorOf?_eq_none_iff {result : EStateM.Result ε σ α} :
    errorOf? result = none ↔ ∃ value after, result = .ok value after := by
  cases result <;> simp [errorOf?]

theorem errorOf?_eq_some_iff {result : EStateM.Result ε σ α} {error : ε} :
    errorOf? result = some error ↔ ∃ after, result = .error error after := by
  cases result <;> simp [errorOf?]

theorem errorOf?_bind (action : EStateM ε σ α) (next : α → EStateM ε σ β) (before : σ) :
    errorOf? ((action >>= next).run before) =
      match action.run before with
      | .ok value between => errorOf? ((next value).run between)
      | .error error _ => some error := by
  rw [EStateM.run_bind]
  cases action.run before <;> rfl

/-! Computations that have a result from every state. -/

/-- From every state there is a result, and it has the property. -/
def Yields (action : EStateM ε σ α) (property : α → Prop) : Prop :=
  ∀ before, ∃ value after, action.run before = .ok value after ∧ property value

namespace Yields

theorem pure {property : α → Prop} {value : α} (holds : property value) :
    Yields (Pure.pure value : EStateM ε σ α) property :=
  fun before => ⟨value, before, rfl, holds⟩

theorem imp {action : EStateM ε σ α} {property weaker : α → Prop}
    (yields : Yields action property) (implies : ∀ value, property value → weaker value) :
    Yields action weaker := by
  intro before
  rcases yields before with ⟨value, after, run, holds⟩
  exact ⟨value, after, run, implies value holds⟩

theorem bind {action : EStateM ε σ α} {next : α → EStateM ε σ β} {first : α → Prop}
    {property : β → Prop} (yields : Yields action first)
    (continues : ∀ value, first value → Yields (next value) property) :
    Yields (action >>= next) property := by
  intro before
  rcases yields before with ⟨value, between, run, holds⟩
  rcases continues value holds between with ⟨result, after, runNext, holdsNext⟩
  exact ⟨result, after, run_bind_eq_ok_iff.mpr ⟨value, between, run, runNext⟩, holdsNext⟩

theorem adaptExcept {action : EStateM ε σ α} {property : α → Prop} (change : ε → ε')
    (yields : Yields action property) : Yields (action.adaptExcept change) property := by
  intro before
  rcases yields before with ⟨value, after, run, holds⟩
  exact ⟨value, after, by rw [EStateM.run_adaptExcept, run], holds⟩

theorem mapM {act : α → EStateM ε σ β} {relation : α → β → Prop} {items : List α}
    (each : ∀ item ∈ items, Yields (act item) (relation item)) :
    Yields (items.mapM act) (List.Forall₂ relation items) := by
  induction items with
  | nil => exact pure .nil
  | cons item items induction =>
      rw [List.mapM_cons]
      refine bind (each item List.mem_cons_self) fun value head => ?_
      have rest := induction fun other member => each other (List.mem_cons_of_mem item member)
      exact bind rest fun values tail => pure (.cons head tail)

/-- A computation that has results at all has those that it reaches from some state. -/
theorem reached {action : EStateM ε σ α} {property : α → Prop} (yields : Yields action property) :
    Yields action fun value => ∃ before after, action.run before = .ok value after := by
  intro before
  rcases yields before with ⟨value, after, run, _⟩
  exact ⟨value, after, run, before, after, run⟩

end Yields

/-! Computations that may fail, with a property of what they result in when they do not. -/

/-- Whenever there is a result, it has the property. -/
def Ensures (action : EStateM ε σ α) (property : α → Prop) : Prop :=
  ∀ before value after, action.run before = .ok value after → property value

namespace Ensures

theorem pure {property : α → Prop} {value : α} (holds : property value) :
    Ensures (Pure.pure value : EStateM ε σ α) property := by
  intro before other after run
  cases run
  exact holds

theorem trivial (action : EStateM ε σ α) : Ensures action fun _ => True :=
  fun _ _ _ _ => True.intro

theorem bind {action : EStateM ε σ α} {next : α → EStateM ε σ β} {first : α → Prop}
    {property : β → Prop} (ensures : Ensures action first)
    (continues : ∀ value, first value → Ensures (next value) property) :
    Ensures (action >>= next) property := by
  intro before result after run
  rcases run_bind_eq_ok_iff.mp run with ⟨value, between, runFirst, runNext⟩
  exact continues value (ensures before value between runFirst) between result after runNext

theorem adaptExcept {action : EStateM ε σ α} {property : α → Prop} (change : ε → ε')
    (ensures : Ensures action property) : Ensures (action.adaptExcept change) property := by
  intro before value after run
  rw [EStateM.run_adaptExcept] at run
  cases ended : action.run before with
  | error error between =>
      rw [ended] at run
      cases run
  | ok first between =>
      rw [ended] at run
      cases run
      exact ensures before value after ended

theorem mapM {act : α → EStateM ε σ β} {relation : α → β → Prop} {items : List α}
    (each : ∀ item ∈ items, Ensures (act item) (relation item)) :
    Ensures (items.mapM act) (List.Forall₂ relation items) := by
  induction items with
  | nil => exact pure .nil
  | cons item items induction =>
      rw [List.mapM_cons]
      refine bind (each item List.mem_cons_self) fun value head => ?_
      have rest := induction fun other member => each other (List.mem_cons_of_mem item member)
      exact bind rest fun values tail => pure (.cons head tail)

end Ensures

end Fallible

end GrowthGrammar
