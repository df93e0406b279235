import GrowthGrammar.Proofs.Geometry.Rigid
import GrowthGrammar.Proofs.Number.Zeros

/-!
# Frames as keys

Frames are compared by their numbers and hashed by their bits. The two disagree just where a zero of
one frame faces the zero below zero of the other. No such zero is in a frame that is rotated and
moved, from the start on.
-/

namespace GrowthGrammar

open Number

/-! ## Numbers and bits -/

namespace Frame

/-- The position, then the rotation row by row. -/
def numbers (frame : Frame α) : List α :=
  (frame.position :: frame.rotation.rows).flatMap Vec3.toList

theorem numbers_eq (frame : Frame α) :
    frame.numbers = frame.position.toList ++ frame.rotation.first.toList ++
      frame.rotation.second.toList ++ frame.rotation.third.toList :=
  rfl

theorem numbers_injective : Function.Injective (numbers : Frame α → List α) := by
  intro a b equal
  obtain ⟨⟨_, _, _⟩, ⟨⟨_, _, _⟩, ⟨_, _, _⟩, ⟨_, _, _⟩⟩⟩ := a
  obtain ⟨⟨_, _, _⟩, ⟨⟨_, _, _⟩, ⟨_, _, _⟩, ⟨_, _, _⟩⟩⟩ := b
  simpa [numbers_eq, Vec3.toList, and_assoc] using equal

theorem bits_eq (frame : Frame Float) : frame.bits = frame.numbers.map Float.toBits := by
  rw [bits, numbers, List.map_flatMap]

theorem bits_inj {a b : Frame Float} : a.bits = b.bits ↔ a = b := by
  have injective : Function.Injective Float.toBits := fun _ _ => Float.toBits_inj.mp
  rw [bits_eq, bits_eq, (List.map_injective_iff.mpr injective).eq_iff, numbers_injective.eq_iff]

end Frame

/-! ## Equality -/

theorem Vec3.beq_eq (v w : Vec3 Float) :
    (v == w) = (v.x == w.x && (v.y == w.y && v.z == w.z)) :=
  rfl

theorem Matrix3.beq_eq (m n : Matrix3 Float) :
    (m == n) = (m.first == n.first && (m.second == n.second && m.third == n.third)) :=
  rfl

namespace Frame

theorem beq_eq (a b : Frame Float) : (a == b) = (a.numbers == b.numbers) := by
  have parts : (a == b) = (a.position == b.position && a.rotation == b.rotation) := rfl
  simp [parts, Matrix3.beq_eq, Vec3.beq_eq, numbers_eq, Vec3.toList, Bool.and_assoc]

/-- Somewhere a zero of one frame faces the zero below zero of the other. -/
def ZerosDiffer (a b : Frame Float) : Prop :=
  ∃ pair ∈ a.numbers.zip b.numbers, Number.ZerosDiffer pair.1 pair.2

theorem eq_iff_of_beq {a b : Frame Float} (equal : (a == b) = true) :
    a = b ↔ ¬a.ZerosDiffer b := by
  rw [beq_eq] at equal
  rw [← numbers_injective.eq_iff, eq_iff_of_list_beq equal]
  simp only [ZerosDiffer, not_exists, not_and]

theorem bits_eq_iff_of_beq {a b : Frame Float} (equal : (a == b) = true) :
    a.bits = b.bits ↔ ¬a.ZerosDiffer b :=
  bits_inj.trans (eq_iff_of_beq equal)

end Frame

/-! ## Frames on their way -/

namespace Frame

/-- A frame that some steps have led to, from one of the two that frames start as. -/
inductive Reached : Frame Float → Prop
  | initial : Reached initial
  | identity : Reached identity
  | step {frame : Frame Float} (change : Step Float) : Reached frame → Reached (frame.step change)

end Frame

theorem zero_ne_negativeZero : (Scalar.zero : Float) ≠ -0 := by
  decide

/-- Sums of products start from zero. -/
theorem Vec3.dot_ne_negativeZero (v w : Vec3 Float) : v.dot w ≠ -0 :=
  add_ne_negativeZero (add_ne_negativeZero (add_ne_negativeZero zero_ne_negativeZero _) _) _

namespace Frame

/-- None of the numbers is the zero below zero. -/
def HasPlainZeros (frame : Frame Float) : Prop :=
  ∀ x ∈ frame.numbers, x ≠ -0

theorem HasPlainZeros.step {frame : Frame Float} (plain : frame.HasPlainZeros)
    (change : Step Float) : (frame.step change).HasPlainZeros := by
  simp only [HasPlainZeros, numbers_eq, List.forall_mem_append] at plain ⊢
  rcases plain with ⟨⟨⟨position, first⟩, second⟩, third⟩
  cases change with
  | rotate axis degrees =>
      have row (v u s t : Vec3 Float) :
          ∀ x ∈ Vec3.toList ⟨v.dot u, v.dot s, v.dot t⟩, x ≠ -0 := by
        simp [Vec3.toList, Vec3.dot_ne_negativeZero]
      exact ⟨⟨⟨position, row _ _ _ _⟩, row _ _ _ _⟩, row _ _ _ _⟩
  | translate distance =>
      refine ⟨⟨⟨?_, first⟩, second⟩, third⟩
      simp only [Vec3.toList, List.forall_mem_cons] at position ⊢
      rcases position with ⟨x, y, z, rest⟩
      exact ⟨add_ne_negativeZero x _, add_ne_negativeZero y _, add_ne_negativeZero z _, rest⟩

theorem Reached.hasPlainZeros {frame : Frame Float} (reached : frame.Reached) :
    frame.HasPlainZeros := by
  induction reached with
  | initial => unfold HasPlainZeros; decide
  | identity => unfold HasPlainZeros; decide
  | step change _ plain => exact plain.step change

theorem HasPlainZeros.not_zerosDiffer {a b : Frame Float} (first : a.HasPlainZeros)
    (second : b.HasPlainZeros) : ¬a.ZerosDiffer b := by
  rintro ⟨⟨x, y⟩, member, ⟨_, negative⟩ | ⟨negative, _⟩⟩
  · exact second y (List.of_mem_zip member).2 negative
  · exact first x (List.of_mem_zip member).1 negative

theorem Reached.eq_of_beq {a b : Frame Float} (first : a.Reached) (second : b.Reached)
    (equal : (a == b) = true) : a = b :=
  (eq_iff_of_beq equal).mpr (first.hasPlainZeros.not_zerosDiffer second.hasPlainZeros)

end Frame

end GrowthGrammar
