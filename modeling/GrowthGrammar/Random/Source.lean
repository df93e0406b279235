import GrowthGrammar.Number.Binary64

/-!
# Sources of random numbers

Everything random is drawn from a source that the caller gives, so that a run can be repeated. A
source draws numbers from `[0, 1)` and indices below a bound. A draw changes the state of the source
also when what follows it fails.
-/

namespace GrowthGrammar

/-- A source with states `σ`. An index may be out of range for a source that does not keep to its
bound; `Source.InRange` says that it does. -/
structure Source (σ : Type) where
  uniform : σ → Float × σ
  index : Nat → σ → Except Number.TruncationError Int × σ

/-- Drawing an item fails without a source, and for an index that is none of the items. -/
inductive DrawError
  | noSource
  | noIndex (reason : Number.TruncationError)
  | outOfRange
  deriving DecidableEq, Repr

def DrawError.message : DrawError → String
  | noSource => "no random source to draw from"
  | noIndex reason => reason.message
  | outOfRange => "list index out of range"

namespace Source

/-- Every index drawn is below its bound. -/
def InRange (source : Source σ) : Prop :=
  ∀ (bound : Nat) (state : σ), 0 < bound →
    ∃ index : Nat, index < bound ∧ (source.index bound state).1 = .ok index

def draw (source : Source σ) : EStateM ε σ Float :=
  fun state =>
    let (value, state) := source.uniform state
    .ok value state

/-- The item at an index; a negative index counts from the end. -/
def itemAt? (items : List α) (index : Int) : Option α :=
  if 0 ≤ index then items[index.toNat]?
  else if -index ≤ items.length then items[(items.length + index).toNat]?
  else none

/-- Draw one of several items. -/
def choose (source : Source σ) (items : List α) : EStateM DrawError σ α :=
  fun state =>
    match source.index items.length state with
    | (.ok index, state) =>
        match itemAt? items index with
        | some item => .ok item state
        | none => .error .outOfRange state
    | (.error reason, state) => .error (.noIndex reason) state

/-- Draw an integer between two bounds, both included. -/
def between (source : Source σ) (least greatest : Nat) : EStateM DrawError σ Int :=
  fun state =>
    match source.index (greatest + 1 - least) state with
    | (.ok index, state) => .ok (least + index) state
    | (.error reason, state) => .error (.noIndex reason) state

/-- Draw from the one or the other of two sources, whichever the state belongs to. -/
def either (first : Source σ) (second : Source τ) : Source (σ ⊕ τ) where
  uniform
    | .inl state => let (value, state) := first.uniform state; (value, .inl state)
    | .inr state => let (value, state) := second.uniform state; (value, .inr state)
  index
    | bound, .inl state => let (index, state) := first.index bound state; (index, .inl state)
    | bound, .inr state => let (index, state) := second.index bound state; (index, .inr state)

end Source

/-! A source that repeats a list of numbers. Its indices are the drawn number times the bound, cut
off at the point. -/

structure Script where
  numbers : Array Float
  next : Nat

namespace Script

def ofList (numbers : List Float) : Script :=
  { numbers := numbers.toArray, next := 0 }

def uniform (script : Script) : Float × Script :=
  ((script.numbers[script.next % script.numbers.size]?).getD 0,
    { script with next := script.next + 1 })

def index (bound : Nat) (script : Script) : Except Number.TruncationError Int × Script :=
  let (number, script) := script.uniform
  (Number.truncate (number * Number.ofInt bound), script)

def source : Source Script :=
  { uniform, index }

end Script

end GrowthGrammar
