import GrowthGrammar.Proofs.Fallible
import GrowthGrammar.Random.Source

/-!
# Records of draws

A source can be made to keep a record of what is drawn from it. An action draws the same from such a
source as from the plain one, so what it draws is said by the record.
-/

namespace GrowthGrammar

/-- What is asked of a source, together with its answer. -/
inductive Draw
  | uniform (value : Float)
  | index (bound : Nat) (answer : Except Number.TruncationError Int)

/-- The source with a record of all draws, the latest last. -/
def Source.recorded (source : Source σ) : Source (σ × List Draw) where
  uniform
    | (state, draws) =>
        let (value, state) := source.uniform state
        (value, (state, draws ++ [.uniform value]))
  index
    | bound, (state, draws) =>
        let (answer, state) := source.index bound state
        (answer, (state, draws ++ [.index bound answer]))

/-- What a run ends with, in a state. -/
def ending : Except ε α → σ → EStateM.Result ε σ α
  | .ok value, state => .ok value state
  | .error error, state => .error error state

/-- The item that an answer stands for. -/
def Source.answered (items : List α) : Except Number.TruncationError Int → Except DrawError α
  | .ok index =>
      match itemAt? items index with
      | some item => .ok item
      | none => .error .outOfRange
  | .error reason => .error (.noIndex reason)

theorem Source.mem_of_itemAt? {items : List α} {index : Int} {item : α}
    (found : itemAt? items index = some item) : item ∈ items := by
  rw [itemAt?] at found
  split at found
  · exact List.mem_of_getElem? found
  · split at found
    · exact List.mem_of_getElem? found
    · cases found

theorem Source.mem_of_answered {items : List α} {answer : Except Number.TruncationError Int}
    {item : α} (answered_eq : answered items answer = .ok item) : item ∈ items := by
  cases answer with
  | error reason => cases answered_eq
  | ok index =>
      cases found : itemAt? items index with
      | none => simp [answered, found] at answered_eq
      | some other =>
          simp only [answered, found, Except.ok.injEq] at answered_eq
          exact answered_eq ▸ mem_of_itemAt? found

theorem Source.run_choose (source : Source σ) (items : List α) (before : σ) :
    (source.choose items).run before =
      ending (answered items (source.index items.length before).1)
        (source.index items.length before).2 := by
  simp only [EStateM.run, choose]
  rcases source.index items.length before with ⟨reason | index, after⟩
  · rfl
  · simp only [answered]
    cases itemAt? items index <;> rfl

/-- With the plain source and with the recording one the action ends alike; the draws that are added
to the record and the end that it comes to are as told. The state is touched by draws only. -/
def Records (action : EStateM ε σ α) (recording : EStateM ε (σ × List Draw) α)
    (spends : List Draw → Except ε α → Prop) : Prop :=
  ∀ before earlier, ∃ draws outcome after,
    action.run before = ending outcome after ∧
      recording.run (before, earlier) = ending outcome (after, earlier ++ draws) ∧
      (draws = [] → after = before) ∧ spends draws outcome

/-- Items are dealt with one after the other, up to the first that fails. -/
inductive InTurn (one : α → List Draw → Except ε β → Prop) :
    List α → List Draw → Except ε (List β) → Prop
  | nil : InTurn one [] [] (.ok [])
  | stop {item : α} {items : List α} {draws : List Draw} {error : ε} :
      one item draws (.error error) → InTurn one (item :: items) draws (.error error)
  | cons {item : α} {items : List α} {first others : List Draw} {value : β}
      {outcome : Except ε (List β)} : one item first (.ok value) → InTurn one items others outcome →
      InTurn one (item :: items) (first ++ others) (outcome.map (value :: ·))

/-- Nothing is drawn, and there is one end only. -/
def SettlesTo (spends : List Draw → Except ε α → Prop) (outcome : Except ε α) : Prop :=
  ∀ draws other, spends draws other → draws = [] ∧ other = outcome

theorem SettlesTo.image {spends : List Draw → Except ε α → Prop} {outcome : Except ε α}
    (settles : SettlesTo spends outcome) (change : Except ε α → Except ε' β) :
    SettlesTo (fun draws other => ∃ first, spends draws first ∧ other = change first)
      (change outcome) := by
  rintro draws _ ⟨first, spent, rfl⟩
  rcases settles draws first spent with ⟨none, rfl⟩
  exact ⟨none, rfl⟩

theorem exists_settlesTo_inTurn {one : α → List Draw → Except ε β → Prop} {items : List α}
    (each : ∀ item ∈ items, ∃ outcome, SettlesTo (one item) outcome) :
    ∃ outcome, SettlesTo (InTurn one items) outcome := by
  induction items with
  | nil =>
      refine ⟨.ok [], fun draws other spent => ?_⟩
      cases spent
      exact ⟨rfl, rfl⟩
  | cons item items induction =>
      rcases List.forall_mem_cons.mp each with ⟨⟨first, settlesFirst⟩, others⟩
      rcases induction others with ⟨rest, settlesRest⟩
      refine ⟨first.bind fun value => rest.map (value :: ·), fun draws other spent => ?_⟩
      cases spent with
      | stop stopped =>
          rcases settlesFirst _ _ stopped with ⟨rfl, rfl⟩
          exact ⟨rfl, rfl⟩
      | cons spentFirst spentRest =>
          rcases settlesFirst _ _ spentFirst with ⟨rfl, rfl⟩
          rcases settlesRest _ _ spentRest with ⟨rfl, rfl⟩
          exact ⟨rfl, rfl⟩

namespace Records

variable {spends : List Draw → Except ε α → Prop}

theorem pure {value : α} (none : spends [] (.ok value)) :
    Records (Pure.pure value : EStateM ε σ α) (Pure.pure value) spends :=
  fun before _ =>
    ⟨[], .ok value, before, rfl, by rw [List.append_nil]; rfl, fun _ => rfl, none⟩

theorem imp {action : EStateM ε σ α} {recording : EStateM ε (σ × List Draw) α}
    {weaker : List Draw → Except ε α → Prop} (records : Records action recording spends)
    (implies : ∀ draws outcome, spends draws outcome → weaker draws outcome) :
    Records action recording weaker := by
  intro before earlier
  rcases records before earlier with ⟨draws, outcome, after, run, recorded, untouched, spent⟩
  exact ⟨draws, outcome, after, run, recorded, untouched, implies draws outcome spent⟩

/-- Where nothing is drawn every source comes to the same end, in the state it is in. -/
theorem run_of_settlesTo {action : EStateM ε σ α} {recording : EStateM ε (σ × List Draw) α}
    (records : Records action recording spends) {outcome : Except ε α}
    (settles : SettlesTo spends outcome) (before : σ) :
    action.run before = ending outcome before := by
  rcases records before [] with ⟨draws, other, after, run, _, untouched, spent⟩
  rcases settles draws other spent with ⟨none, rfl⟩
  rw [run, untouched none]

theorem bind {action : EStateM ε σ α} {recording : EStateM ε (σ × List Draw) α}
    {next : α → EStateM ε σ β} {nextRecording : α → EStateM ε (σ × List Draw) β}
    {whole : List Draw → Except ε β → Prop} (records : Records action recording spends)
    (stops : ∀ draws error, spends draws (.error error) → whole draws (.error error))
    (continues : ∀ draws value, spends draws (.ok value) →
      Records (next value) (nextRecording value) fun others => whole (draws ++ others)) :
    Records (action >>= next) (recording >>= nextRecording) whole := by
  intro before earlier
  rcases records before earlier with ⟨draws, outcome, between, run, recorded, untouched, spent⟩
  cases outcome with
  | error error =>
      refine ⟨draws, .error error, between, ?_, ?_, untouched, stops draws error spent⟩
      · rw [EStateM.run_bind, run]
        rfl
      · rw [EStateM.run_bind, recorded]
        rfl
  | ok value =>
      rcases continues draws value spent between (earlier ++ draws) with
        ⟨others, outcome, after, runNext, recordedNext, untouchedNext, spentNext⟩
      refine ⟨draws ++ others, outcome, after, ?_, ?_, ?_, spentNext⟩
      · rw [EStateM.run_bind, run]
        exact runNext
      · rw [EStateM.run_bind, recorded, ← List.append_assoc]
        exact recordedNext
      · intro none
        rcases List.append_eq_nil_iff.mp none with ⟨first, second⟩
        exact (untouchedNext second).trans (untouched first)

theorem adaptExcept {action : EStateM ε σ α} {recording : EStateM ε (σ × List Draw) α}
    (change : ε → ε') {changed : List Draw → Except ε' α → Prop}
    (records : Records action recording spends)
    (changes : ∀ draws outcome, spends draws outcome → changed draws (outcome.mapError change)) :
    Records (action.adaptExcept change) (recording.adaptExcept change) changed := by
  intro before earlier
  rcases records before earlier with ⟨draws, outcome, after, run, recorded, untouched, spent⟩
  refine ⟨draws, outcome.mapError change, after, ?_, ?_, untouched, changes draws outcome spent⟩
  · rw [EStateM.run_adaptExcept, run]
    cases outcome <;> rfl
  · rw [EStateM.run_adaptExcept, recorded]
    cases outcome <;> rfl

theorem mapM {act : α → EStateM ε σ β} {recordingAct : α → EStateM ε (σ × List Draw) β}
    {one : α → List Draw → Except ε β → Prop} {items : List α}
    (each : ∀ item ∈ items, Records (act item) (recordingAct item) (one item)) :
    Records (items.mapM act) (items.mapM recordingAct) (InTurn one items) := by
  induction items with
  | nil => exact pure .nil
  | cons item items induction =>
      rcases List.forall_mem_cons.mp each with ⟨first, others⟩
      rw [List.mapM_cons, List.mapM_cons]
      refine bind first (fun draws error => .stop) fun draws value spent => ?_
      refine bind (induction others) (fun rest error stopped => .cons spent stopped)
        fun rest values spentRest => pure ?_
      rw [List.append_nil]
      exact .cons spent spentRest

theorem draw (source : Source σ) :
    Records (source.draw : EStateM ε σ Float) source.recorded.draw fun draws outcome =>
      ∃ value, draws = [.uniform value] ∧ outcome = .ok value :=
  fun before _ =>
    ⟨[.uniform (source.uniform before).1], .ok (source.uniform before).1,
      (source.uniform before).2, rfl, rfl, (fun none => nomatch none), _, rfl, rfl⟩

/-- One index is drawn. It may be that of no item. -/
theorem choose (source : Source σ) (items : List α) :
    Records (source.choose items) (source.recorded.choose items) fun draws outcome =>
      ∃ answer, draws = [.index items.length answer] ∧ outcome = Source.answered items answer :=
  fun before earlier =>
    ⟨_, _, _, source.run_choose items before, source.recorded.run_choose items (before, earlier),
      (fun none => nomatch none), _, rfl, rfl⟩

end Records

end GrowthGrammar
