import GrowthGrammar.Random.Source

/-!
# The Mersenne Twister

The generator MT19937 with 624 words of state, seeded by an integer of any size.
-/

namespace GrowthGrammar

/-- The words of the generator, and the place of the next one to give out. -/
structure Twister where
  words : Vector UInt32 624
  next : Nat

namespace Twister

/-! Words are addressed cyclically. -/

def word (words : Vector UInt32 624) (place : Nat) : UInt32 :=
  words.get ⟨place % 624, Nat.mod_lt _ (by decide)⟩

def setWord (words : Vector UInt32 624) (place : Nat) (value : UInt32) : Vector UInt32 624 :=
  words.set (place % 624) value (Nat.mod_lt _ (by decide))

/-! Seeding: the words of the seed are mixed into a fixed initial state. -/

def fold30 (value : UInt32) : UInt32 :=
  value ^^^ (value >>> 30)

def initialWords : Vector UInt32 624 :=
  (List.range 623).foldl
    (fun words place =>
      setWord words (place + 1) (1812433253 * fold30 (word words place) + .ofNat (place + 1)))
    (setWord (.replicate 624 0) 0 19650218)

/-- The place after one, with the first word overwritten by the last at the end of a round. -/
def advance (words : Vector UInt32 624) (place : Nat) : Vector UInt32 624 × Nat :=
  if place + 1 = 624 then (setWord words 0 (word words 623), 1) else (words, place + 1)

def mixKey (key : Array UInt32) (words : Vector UInt32 624) (place step : Nat) :
    Vector UInt32 624 × Nat :=
  let keyPlace := step % key.size
  let mixed := (word words place ^^^ (fold30 (word words (place - 1)) * 1664525)) +
    (key[keyPlace]?).getD 0 + .ofNat keyPlace
  advance (setWord words place mixed) place

def mixPlaces (words : Vector UInt32 624) (place : Nat) : Vector UInt32 624 × Nat :=
  let mixed := (word words place ^^^ (fold30 (word words (place - 1)) * 1566083941)) - .ofNat place
  advance (setWord words place mixed) place

def ofKey (key : Array UInt32) : Twister :=
  let (words, place) := (List.range (max 624 key.size)).foldl
    (fun (words, place) step => mixKey key words place step) (initialWords, 1)
  let (words, _) := (List.range 623).foldl
    (fun (words, place) _ => mixPlaces words place) (words, place)
  { words := setWord words 0 0x80000000, next := 624 }

/-- The words of a number, least significant first. -/
def keyOfNat (n : Nat) : List UInt32 :=
  if n < 0x100000000 then [.ofNat n]
  else .ofNat (n % 0x100000000) :: keyOfNat (n / 0x100000000)
termination_by n
decreasing_by omega

/-- The sign of a seed does not matter. -/
def ofSeed (seed : Int) : Twister :=
  ofKey (keyOfNat seed.natAbs).toArray

/-! Drawing words. -/

def twist (words : Vector UInt32 624) : Vector UInt32 624 :=
  (List.range 624).foldl
    (fun words place =>
      let joined := (word words place &&& 0x80000000) ||| (word words (place + 1) &&& 0x7fffffff)
      let mixed := word words (place + 397) ^^^ (joined >>> 1) ^^^
        (if joined &&& 1 = 0 then 0 else 0x9908b0df)
      setWord words place mixed)
    words

def temper (value : UInt32) : UInt32 :=
  let value := value ^^^ (value >>> 11)
  let value := value ^^^ ((value <<< 7) &&& 0x9d2c5680)
  let value := value ^^^ ((value <<< 15) &&& 0xefc60000)
  value ^^^ (value >>> 18)

def nextWord (twister : Twister) : UInt32 × Twister :=
  if twister.next < 624 then
    (temper (word twister.words twister.next), { twister with next := twister.next + 1 })
  else
    let words := twist twister.words
    (temper (word words 0), { words, next := 1 })

/-- A multiple of `2 ^ -53` from the upper 27 and 26 bits of two words. -/
def uniform (twister : Twister) : Float × Twister :=
  let (high, twister) := twister.nextWord
  let (low, twister) := twister.nextWord
  let numerator := (high >>> 5).toNat * 0x4000000 + (low >>> 6).toNat
  (Number.nearestFloat false numerator 0x20000000000000, twister)

/-- A number of the given count of bits: whole words from the least significant on, then the upper
bits of one more. -/
def bits (count : Nat) (twister : Twister) : Nat × Twister :=
  if count ≤ 32 then
    let (word, twister) := twister.nextWord
    (word.toNat >>> (32 - count), twister)
  else
    let (word, twister) := twister.nextWord
    let (rest, twister) := bits (count - 32) twister
    (word.toNat + 0x100000000 * rest, twister)
termination_by count

/-- Draw numbers of as many bits as the bound has until one is below it. Each draw succeeds with a
probability of at least one half; after `attempts` failures the answer is zero. -/
def belowWithin (attempts bound : Nat) (twister : Twister) : Nat × Twister :=
  match attempts with
  | 0 => (0, twister)
  | attempts + 1 =>
      let (number, twister) := twister.bits (bound.log2 + 1)
      if number < bound then (number, twister) else belowWithin attempts bound twister

def below (bound : Nat) (twister : Twister) : Nat × Twister :=
  belowWithin 4096 bound twister

def source : Source Twister :=
  { uniform
    index := fun bound twister =>
      let (number, twister) := twister.below bound
      (.ok number, twister) }

end Twister

end GrowthGrammar
