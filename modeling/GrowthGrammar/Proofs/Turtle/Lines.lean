import GrowthGrammar.Proofs.Turtle.Brackets
import GrowthGrammar.Proofs.Turtle.Resources

/-!
# Lines that are being drawn

A line has a point for the place where it began and one for each move since then. It ends where the
turtle is, unless a closing bracket has taken the turtle to another place behind the beginning.
-/

namespace GrowthGrammar

open Fallible

/-- From one place to another. -/
abbrev Leg := Vec3 Float × Vec3 Float

/-- The legs of a line lead from each of its points to the next one. -/
def Stroke.legs (stroke : Stroke) : List Leg :=
  stroke.points.toList.zip stroke.points.toList.tail

/-- A symbol that moves the turtle forward. -/
def Symbol.moves (symbol : Symbol) : Bool :=
  symbol.name = "f" || symbol.name = "l"

namespace Turtle

def position (turtle : Turtle) : Vec3 Float :=
  turtle.pose.frame.position

/-- The turtle behind a word. A symbol that it fails to obey does not keep it from the next one. -/
def behindWord (turtle : Turtle) (word : List Symbol) : Turtle :=
  word.foldl (fun turtle symbol => turtle.behind (obey symbol)) turtle

/-- The legs of a run lead from where the turtle is in front of a move to where it is behind it. -/
def legs (turtle : Turtle) : List Symbol → List Leg
  | [] => []
  | symbol :: word =>
      let next := turtle.behind (obey symbol)
      (if symbol.moves then [(turtle.position, next.position)] else []) ++ next.legs word

theorem behindWord_concat (turtle : Turtle) (word : List Symbol) (symbol : Symbol) :
    turtle.behindWord (word ++ [symbol]) = (turtle.behindWord word).behind (obey symbol) :=
  List.foldl_concat _ _ _ _

theorem behindWord_append (turtle : Turtle) (first second : List Symbol) :
    turtle.behindWord (first ++ second) = (turtle.behindWord first).behindWord second :=
  List.foldl_append

theorem legs_concat (turtle : Turtle) (word : List Symbol) (symbol : Symbol) :
    turtle.legs (word ++ [symbol]) = turtle.legs word ++
      if symbol.moves then
        [((turtle.behindWord word).position, (turtle.behindWord (word ++ [symbol])).position)]
      else [] := by
  induction word generalizing turtle with
  | nil => simp [legs, behindWord]
  | cons first word induction =>
      rw [List.cons_append, legs, legs, induction, List.append_assoc]
      rfl

/-! What a symbol does to a line. -/

/-- A line is over, or is kept as it is, or goes on by a move, or begins where the turtle is in
front of the symbol. Behind a closing bracket the turtle may then be elsewhere. -/
inductive Draws (symbol : Symbol) (before after : Turtle) : Prop
  | ended : symbol.moves = false → after.stroke? = none → Draws symbol before after
  | kept : symbol.moves = false → after.stroke? = before.stroke? →
      after.position = before.position → Draws symbol before after
  | moved : symbol.moves = true →
      after.stroke? = before.stroke?.map (fun stroke => stroke.add after.position) →
      Draws symbol before after
  | begun : symbol.moves = false → after.stroke? = some (.start before.position) →
      (symbol.closes = false → after.position = before.position) → Draws symbol before after

end Turtle

def Command.moves : Command → Bool
  | .forward _ => true
  | .line _ _ _ => true
  | _ => false

theorem Symbol.moves_eq (symbol : Symbol) :
    symbol.moves = ((Command.ofSymbol? symbol).map Command.moves).getD false := by
  unfold Symbol.moves Command.ofSymbol?
  split <;> simp_all [Command.moves]

theorem Symbol.moves_eq_false_of_closes {symbol : Symbol} (closes : symbol.closes) :
    symbol.moves = false := by
  rw [symbol.moves_eq, Command.ofSymbol?_eq_pop_iff.mpr closes]
  rfl

theorem Frame.position_of_rotate? {frame turned : Frame Float} {axis : Axis} {degrees : Float}
    (rotated : frame.rotate? axis degrees = .ok turned) : turned.position = frame.position := by
  unfold rotate? at rotated
  split at rotated
  · cases rotated
    rfl
  · cases rotated

namespace Turtle

section

variable {symbol : Symbol} {before after : Turtle}

theorem startLine_stroke? {turtle : Turtle} (idle : turtle.stroke? = none) :
    turtle.startLine.stroke? = some (.start turtle.position) := by
  simp [startLine, isDrawing, idle, position]

theorem Breaks.line (breaks : Breaks before after) :
    after.stroke? = none ∨ after.stroke? = some (.start before.position) := by
  cases breaks with
  | idle idle => exact .inl idle
  | drawing =>
      rw [startLine_stroke? (withTube_stroke? before _), position, withTube_pose]
      exact .inr rfl

theorem draws_of_performs {command : Command} (reads : Command.ofSymbol? symbol = some command)
    (performs : Performs before command after) : Draws symbol before after := by
  have moves : symbol.moves = command.moves := by
    rw [symbol.moves_eq, reads]
    rfl
  cases performs with
  | forward | line => exact .moved moves rfl
  | rotate turned => exact .kept moves rfl (Frame.position_of_rotate? turned)
  | startLine =>
      have still : before.startLine.position = before.position :=
        congrArg (fun pose => pose.frame.position) before.startLine_pose
      cases drawing : before.stroke? with
      | none => exact .begun moves (startLine_stroke? drawing) fun _ => still
      | some stroke =>
          have kept : before.startLine = before := by simp [startLine, isDrawing, drawing]
          rw [kept]
          exact .kept moves rfl rfl
  | endLine ends =>
      cases ends with
      | idle idle => exact .ended moves idle
      | drawing => exact .ended moves (withTube_stroke? before _)
  | push breaks =>
      rcases breaks.line with idle | begun
      · exact .ended moves idle
      · exact .begun moves begun fun _ => congrArg (fun pose => pose.frame.position) breaks.pose
  | pop breaks =>
      have closes := Command.ofSymbol?_eq_pop_iff.mp reads
      rcases breaks.line with idle | begun
      · exact .ended moves ((restore_stroke? _).trans idle)
      · refine .begun moves ((restore_stroke? _).trans begun) fun notCloses => ?_
        rw [notCloses] at closes
        cases closes
  | sphere | box | cube | cone | radius | tension | material => exact .kept moves rfl rfl

/-- A move does not fail. -/
theorem moves_eq_false_of_failed {error : TurtleError}
    (run : (obey symbol).run before = .error error after) : symbol.moves = false := by
  rw [obey] at run
  rw [symbol.moves_eq]
  cases reads : Command.ofSymbol? symbol with
  | none => rfl
  | some command =>
      rw [reads] at run
      cases command with
      | forward | line => cases run
      | _ => rfl

theorem draws_of_obey (symbol : Symbol) (before : Turtle) :
    Draws symbol before (before.behind (obey symbol)) := by
  rw [behind]
  cases run : (obey symbol).run before with
  | ok value after =>
      rw [stateOf]
      cases reads : Command.ofSymbol? symbol with
      | none =>
          have still : symbol.moves = false := by
            rw [symbol.moves_eq, reads]
            rfl
          rw [eq_of_obey_unknown reads run]
          exact .kept still rfl rfl
      | some command => exact draws_of_performs reads (performs_of_obey reads run)
  | error error after =>
      have still := moves_eq_false_of_failed run
      rcases drops_of_obey run with rfl | rfl
      · exact .kept still rfl rfl
      · exact .ended still rfl

end

end Turtle

/-! Lines and their legs. -/

theorem zip_tail_concat (front : List α) (last next : α) :
    (front ++ [last] ++ [next]).zip (front ++ [last] ++ [next]).tail =
      (front ++ [last]).zip (front ++ [last]).tail ++ [(last, next)] := by
  induction front with
  | nil => rfl
  | cons first front induction =>
      cases front with
      | nil => rfl
      | cons second front =>
          simp only [List.cons_append, List.tail_cons, List.zip_cons_cons] at induction ⊢
          rw [induction]

namespace Stroke

variable {stroke : Stroke}

theorem legs_add {last : Vec3 Float} (ends : stroke.points.back? = some last)
    (point : Vec3 Float) : (stroke.add point).legs = stroke.legs ++ [(last, point)] := by
  rcases stroke with ⟨⟨points⟩⟩
  obtain ⟨front, rfl⟩ : ∃ front, points = front ++ [last] := by
    simpa [List.getLast?_eq_some_iff] using ends
  simpa [legs, add] using zip_tail_concat front last point

theorem back?_add (point : Vec3 Float) : (stroke.add point).points.back? = some point := by
  simp [add]

theorem legs_ne_nil (several : 2 ≤ stroke.points.size) : stroke.legs ≠ [] := by
  rcases stroke with ⟨⟨points⟩⟩
  match points, several with
  | first :: second :: rest, _ => exact List.cons_ne_nil _ _

end Stroke

namespace Turtle

/-- The closing bracket behind a word takes the turtle away from the point where its line begins
anew. -/
structure Tears (turtle : Turtle) (done : List Symbol) (symbol : Symbol) : Prop where
  closes : symbol.name = "]"
  drawing : (turtle.behindWord (done ++ [symbol])).isDrawing
  elsewhere : (turtle.behindWord (done ++ [symbol])).position ≠ (turtle.behindWord done).position

/-- The line ends where the turtle is, and its legs are the last ones of the run. -/
structure Follows (turtle : Turtle) (word : List Symbol) (stroke : Stroke) : Prop where
  last : stroke.points.back? = some (turtle.behindWord word).position
  legs : stroke.legs <:+ turtle.legs word

/-- The line has begun at a closing bracket that has torn the turtle away from it, and has one point
more for each move since then. -/
def IsTorn (turtle : Turtle) (word : List Symbol) (stroke : Stroke) : Prop :=
  ∃ done symbol rest, word = done ++ [symbol] ++ rest ∧ turtle.Tears done symbol ∧
    stroke.points.toList = (turtle.behindWord done).position ::
      ((turtle.behindWord (done ++ [symbol])).legs rest).map Prod.snd

/-- The line of a turtle behind a word. From its second point on it ends where the turtle is, and
all its legs but the first are legs of the run. -/
structure HasLine (turtle : Turtle) (word : List Symbol) (stroke : Stroke) : Prop where
  nonempty : 0 < stroke.points.size
  last : 2 ≤ stroke.points.size → stroke.points.back? = some (turtle.behindWord word).position
  legs : stroke.legs.tail <:+ turtle.legs word
  follows_or_torn : turtle.Follows word stroke ∨ turtle.IsTorn word stroke

section

variable {turtle : Turtle} {word : List Symbol} {stroke : Stroke} {symbol : Symbol}

theorem IsTorn.keep (torn : turtle.IsTorn word stroke) (still : symbol.moves = false) :
    turtle.IsTorn (word ++ [symbol]) stroke := by
  rcases torn with ⟨done, bracket, rest, rfl, tears, points⟩
  refine ⟨done, bracket, rest ++ [symbol], List.append_assoc _ _ _, tears, ?_⟩
  rw [points, legs_concat, still, if_neg Bool.false_ne_true, List.append_nil]

theorem IsTorn.move (torn : turtle.IsTorn word stroke) (moves : symbol.moves = true) :
    turtle.IsTorn (word ++ [symbol])
      (stroke.add (turtle.behindWord (word ++ [symbol])).position) := by
  rcases torn with ⟨done, bracket, rest, rfl, tears, points⟩
  refine ⟨done, bracket, rest ++ [symbol], List.append_assoc _ _ _, tears, ?_⟩
  rw [legs_concat, if_pos moves, List.map_append, ← List.cons_append, ← points,
    List.append_assoc (done ++ [bracket]), behindWord_append _ (done ++ [bracket])]
  exact Array.toList_push

/-- A symbol that moves no turtle adds no leg. -/
theorem HasLine.keep (line : turtle.HasLine word stroke) (still : symbol.moves = false)
    (same : (turtle.behindWord (word ++ [symbol])).position = (turtle.behindWord word).position) :
    turtle.HasLine (word ++ [symbol]) stroke := by
  have legs_eq : turtle.legs (word ++ [symbol]) = turtle.legs word := by
    simp [legs_concat, still]
  refine ⟨line.nonempty, ?_, ?_, ?_⟩
  · rw [same]
    exact line.last
  · rw [legs_eq]
    exact line.legs
  · rcases line.follows_or_torn with follows | torn
    · exact .inl ⟨same ▸ follows.last, legs_eq ▸ follows.legs⟩
    · exact .inr (torn.keep still)

theorem HasLine.move (line : turtle.HasLine word stroke) (moves : symbol.moves = true) :
    turtle.HasLine (word ++ [symbol])
      (stroke.add (turtle.behindWord (word ++ [symbol])).position) := by
  have legs_eq := turtle.legs_concat word symbol
  rw [if_pos moves] at legs_eq
  refine ⟨?_, fun _ => Stroke.back?_add _, ?_, ?_⟩
  · simp [Stroke.add]
  · by_cases several : 2 ≤ stroke.points.size
    · rw [Stroke.legs_add (line.last several), legs_eq,
        List.tail_append_of_ne_nil (Stroke.legs_ne_nil several)]
      exact List.suffix_append_self_iff.mpr line.legs
    · have single : stroke.points.size = 1 := by
        have nonempty := line.nonempty
        omega
      rcases stroke with ⟨⟨points⟩⟩
      obtain ⟨point, rfl⟩ := List.length_eq_one_iff.mp single
      exact List.nil_suffix
  · rcases line.follows_or_torn with follows | torn
    · refine .inl ⟨Stroke.back?_add _, ?_⟩
      rw [Stroke.legs_add follows.last, legs_eq]
      exact List.suffix_append_self_iff.mpr follows.legs
    · exact .inr (torn.move moves)

/-- A line that begins. When the turtle is elsewhere then, a closing bracket has torn it away. -/
theorem hasLine_begin
    (begun : (turtle.behindWord (word ++ [symbol])).stroke? =
      some (.start (turtle.behindWord word).position))
    (stays : symbol.closes = false →
      (turtle.behindWord (word ++ [symbol])).position = (turtle.behindWord word).position) :
    turtle.HasLine (word ++ [symbol]) (.start (turtle.behindWord word).position) := by
  refine ⟨Nat.one_pos, fun several => ?_, List.nil_suffix, ?_⟩
  · exact absurd several (by simp [Stroke.start])
  · by_cases same :
        (turtle.behindWord (word ++ [symbol])).position = (turtle.behindWord word).position
    · exact .inl ⟨congrArg some same.symm, List.nil_suffix⟩
    · have closes : symbol.name = "]" := by
        by_contra other
        exact same (stays (decide_eq_false other))
      have drawing : (turtle.behindWord (word ++ [symbol])).isDrawing := by
        rw [isDrawing, begun]
        rfl
      exact .inr ⟨word, symbol, [], (List.append_nil _).symm, ⟨closes, drawing, same⟩, rfl⟩

/-- One symbol. -/
theorem hasLine_concat
    (line : ∀ stroke, (turtle.behindWord word).stroke? = some stroke → turtle.HasLine word stroke)
    (drawn : (turtle.behindWord (word ++ [symbol])).stroke? = some stroke) :
    turtle.HasLine (word ++ [symbol]) stroke := by
  have draws := draws_of_obey symbol (turtle.behindWord word)
  rw [← behindWord_concat] at draws
  cases draws with
  | ended still idle =>
      rw [idle] at drawn
      cases drawn
  | kept still kept same => exact (line stroke (kept ▸ drawn)).keep still same
  | moved moves moved =>
      rw [moved] at drawn
      rcases Option.map_eq_some_iff.mp drawn with ⟨before, drawnBefore, rfl⟩
      exact (line before drawnBefore).move moves
  | begun still begun stays =>
      rw [begun] at drawn
      cases drawn
      exact hasLine_begin begun stays

theorem hasLine_of_idle (idle : turtle.stroke? = none)
    (drawn : (turtle.behindWord word).stroke? = some stroke) : turtle.HasLine word stroke := by
  induction word using List.reverseRecOn generalizing stroke with
  | nil =>
      rw [behindWord, List.foldl_nil, idle] at drawn
      cases drawn
  | append_singleton word symbol induction =>
      exact hasLine_concat (fun _ => induction) drawn

end

/-! Where tubes come from. -/

/-- A mesh with the tube of the line that the turtle draws. -/
def TubeOf (turtle : Turtle) (stroke : Stroke) (mesh : Mesh) : Prop :=
  turtle.stroke? = some stroke ∧
    stroke.tube? turtle.pose.radius turtle.pose.tension = .ok (some mesh.solid)

section

variable {before after : Turtle} {mesh : Mesh}

theorem mem_meshes_emit {kind : String} {solid : Solid Float} (noTube : kind ≠ "tube")
    (member : mesh ∈ (before.emit kind solid).scene.meshes) (tube : mesh.kind = "tube") :
    mesh ∈ before.scene.meshes := by
  rcases Array.mem_push.mp member with old | rfl
  · exact old
  · exact absurd tube noTube

theorem mem_meshes_withTube {stroke : Stroke} {solid? : Option (Solid Float)}
    (drawing : before.stroke? = some stroke)
    (made : stroke.tube? before.pose.radius before.pose.tension = .ok solid?)
    (member : mesh ∈ (before.withTube solid?).scene.meshes) :
    mesh ∈ before.scene.meshes ∨ ∃ stroke, before.TubeOf stroke mesh := by
  cases solid? with
  | none => exact .inl member
  | some solid =>
      rcases Array.mem_push.mp member with old | rfl
      · exact .inl old
      · exact .inr ⟨stroke, drawing, made⟩

theorem Ends.mem_meshes (ends : Ends before after) (member : mesh ∈ after.scene.meshes) :
    mesh ∈ before.scene.meshes ∨ ∃ stroke, before.TubeOf stroke mesh := by
  cases ends with
  | idle => exact .inl member
  | drawing drawing made => exact mem_meshes_withTube drawing made member

theorem Breaks.mem_meshes (breaks : Breaks before after) (member : mesh ∈ after.scene.meshes) :
    mesh ∈ before.scene.meshes ∨ ∃ stroke, before.TubeOf stroke mesh := by
  cases breaks with
  | idle => exact .inl member
  | drawing drawing made =>
      rw [startLine_scene] at member
      exact mem_meshes_withTube drawing made member

/-- A command makes a tube of no other line than the one in front of it. -/
theorem Performs.mem_meshes {command : Command} (performs : Performs before command after)
    (member : mesh ∈ after.scene.meshes) (tube : mesh.kind = "tube") :
    mesh ∈ before.scene.meshes ∨ ∃ stroke, before.TubeOf stroke mesh := by
  cases performs with
  | rotate | forward | radius | tension | material => exact .inl member
  | startLine =>
      rw [startLine_scene] at member
      exact .inl member
  | endLine ends => exact ends.mem_meshes member
  | push breaks => exact breaks.mem_meshes member
  | pop breaks =>
      rw [restore_scene] at member
      exact breaks.mem_meshes member
  | line | sphere | box | cube | cone =>
      exact .inl (mem_meshes_emit (by decide) member tube)

theorem mem_meshes_of_obey {symbol : Symbol}
    (member : mesh ∈ (before.behind (obey symbol)).scene.meshes) (tube : mesh.kind = "tube") :
    mesh ∈ before.scene.meshes ∨ ∃ stroke, before.TubeOf stroke mesh := by
  rw [behind] at member
  cases run : (obey symbol).run before with
  | ok value after =>
      rw [run, stateOf] at member
      cases reads : Command.ofSymbol? symbol with
      | none =>
          rw [eq_of_obey_unknown reads run] at member
          exact .inl member
      | some command => exact (performs_of_obey reads run).mem_meshes member tube
  | error error after =>
      rw [run, stateOf] at member
      rcases drops_of_obey run with rfl | rfl
      · exact .inl member
      · exact .inl member

/-- Each tube of a run is made of the line behind some part of it. -/
theorem exists_tubeOf {turtle : Turtle} {word : List Symbol} (clean : turtle.scene.meshes = #[])
    (member : mesh ∈ (turtle.behindWord word).scene.meshes) (tube : mesh.kind = "tube") :
    ∃ done stroke, done <+: word ∧ (turtle.behindWord done).TubeOf stroke mesh := by
  induction word using List.reverseRecOn with
  | nil =>
      rw [behindWord, List.foldl_nil, clean] at member
      cases Array.not_mem_empty mesh member
  | append_singleton word symbol induction =>
      rw [behindWord_concat] at member
      rcases mem_meshes_of_obey member tube with old | ⟨stroke, made⟩
      · rcases induction old with ⟨done, stroke, within, made⟩
        exact ⟨done, stroke, within.trans (List.prefix_append word [symbol]), made⟩
      · exact ⟨word, stroke, List.prefix_append word [symbol], made⟩

end

/-! Lines that follow the turtle. -/

/-- A line that is being drawn ends where the turtle is. -/
def EndsAtPosition (turtle : Turtle) : Prop :=
  ∀ stroke, turtle.stroke? = some stroke → stroke.points.back? = some turtle.position

section

variable {turtle : Turtle} {word : List Symbol}

theorem endsAtPosition_of_untorn (idle : turtle.stroke? = none)
    (untorn : ∀ done symbol, done ++ [symbol] <+: word → ¬ turtle.Tears done symbol) :
    (turtle.behindWord word).EndsAtPosition := by
  intro stroke drawn
  rcases (hasLine_of_idle idle drawn).follows_or_torn with
    follows | ⟨done, symbol, rest, word_eq, tears, _⟩
  · exact follows.last
  · exact absurd tears (untorn done symbol ⟨rest, word_eq.symm⟩)

/-- A line from which a closing bracket has torn the turtle away does not end where the turtle
is. -/
theorem Tears.not_endsAtPosition {done : List Symbol} {symbol : Symbol}
    (tears : turtle.Tears done symbol) :
    ¬ (turtle.behindWord (done ++ [symbol])).EndsAtPosition := by
  intro ends
  have drawing := tears.drawing
  have draws := draws_of_obey symbol (turtle.behindWord done)
  rw [← behindWord_concat] at draws
  have still : symbol.moves = false :=
    Symbol.moves_eq_false_of_closes (decide_eq_true tears.closes)
  cases draws with
  | ended _ idle =>
      rw [isDrawing, idle] at drawing
      cases drawing
  | kept _ _ same => exact tears.elsewhere same
  | moved moves =>
      rw [still] at moves
      cases moves
  | begun _ begun => exact tears.elsewhere (Option.some.inj (ends _ begun)).symm

/-- A line ends where the turtle is all along a run if, and only if, no closing bracket tears the
turtle away from it. Behind any word a line has at least its first point, and from the second one on
it ends where the turtle is. The tubes are made of such lines: the legs of a tube are moves of the
run, one for each, if the tube does not begin at a closing bracket that has torn the turtle away; if
it does, then all but its first leg are moves of the run. -/
theorem line_follows_unless_torn (turtle : Turtle) (word : List Symbol) :
    let start := turtle.reset
    ((∀ done, done <+: word → (start.behindWord done).EndsAtPosition) ↔
      ∀ done symbol, done ++ [symbol] <+: word → ¬ start.Tears done symbol) ∧
    (∀ stroke, (start.behindWord word).stroke? = some stroke → start.HasLine word stroke) ∧
    ∀ mesh ∈ (start.behindWord word).scene.meshes, mesh.kind = "tube" →
      ∃ done stroke, done <+: word ∧ (start.behindWord done).TubeOf stroke mesh ∧
        start.HasLine done stroke := by
  intro start
  have idle : start.stroke? = none := rfl
  refine ⟨⟨fun ends done symbol within tears => ?_, fun untorn done within => ?_⟩, ?_, ?_⟩
  · exact tears.not_endsAtPosition (ends (done ++ [symbol]) within)
  · exact endsAtPosition_of_untorn idle fun earlier symbol before =>
      untorn earlier symbol (before.trans within)
  · exact fun stroke drawn => hasLine_of_idle idle drawn
  · intro mesh member tube
    rcases exists_tubeOf rfl member tube with ⟨done, stroke, within, made⟩
    exact ⟨done, stroke, within, made, hasLine_of_idle idle made.1⟩

/-- Behind the bracket the line begins at the tip of the branch, and the turtle is back at the
origin. The next move leads away from the origin, but the leg that it adds to the line begins at the
tip. -/
theorem line_torn_behind_branch :
    let start := (new .standard).reset
    let branch : List Symbol := [⟨"[", []⟩, ⟨"f", [1]⟩, ⟨"s", []⟩, ⟨"]", []⟩]
    let word := branch ++ [⟨"f", [3]⟩]
    ¬ (start.behindWord branch).EndsAtPosition ∧
      (start.behindWord word).stroke?.map Stroke.legs = some [(⟨0, 1, 0⟩, ⟨0, 3, 0⟩)] ∧
      start.legs word = [(⟨0, 0, 0⟩, ⟨0, 1, 0⟩), (⟨0, 0, 0⟩, ⟨0, 3, 0⟩)] := by
  refine ⟨fun ends => ?_, ?_, ?_⟩
  · have ends := ends (.start ⟨0, 1, 0⟩) rfl
    revert ends
    decide +kernel
  · decide +kernel
  · decide +kernel

end

end Turtle

end GrowthGrammar
