import GrowthGrammar.Geometry.Frame
import GrowthGrammar.Grammar.Symbol

/-!
# Commands

Symbols that have a meaning for the turtle. Parameters that are missing are chosen by the turtle;
parameters beyond those a command takes are ignored.
-/

namespace GrowthGrammar

inductive Command
  | rotate (axis : Axis) (sign : Sign) (angle : Option Float)
  | forward (length : Option Float)
  | startLine
  | endLine
  | line (length startRadius endRadius : Option Float)
  | push
  | pop
  | sphere (radius widthSegments heightSegments : Option Float)
  | box (width height depth : Option Float)
  | cube (side : Option Float)
  | cone (radius height radialSegments : Option Float)
  | radius (radius : Option Float)
  | tension (tension : Option Float)
  | material (parameters : List Float)

namespace Command

def ofSymbol? (symbol : Symbol) : Option Command :=
  let first := symbol.parameters[0]?
  let second := symbol.parameters[1]?
  let third := symbol.parameters[2]?
  match symbol.name with
  | "+x" => some (rotate .x .plus first)
  | "-x" => some (rotate .x .minus first)
  | "+y" => some (rotate .y .plus first)
  | "-y" => some (rotate .y .minus first)
  | "+z" => some (rotate .z .plus first)
  | "-z" => some (rotate .z .minus first)
  | "f" => some (forward first)
  | "s" => some startLine
  | "e" => some endLine
  | "l" => some (line first second third)
  | "[" => some push
  | "]" => some pop
  | "sphere" => some (sphere first second third)
  | "box" => some (box first second third)
  | "cube" => some (cube first)
  | "cone" => some (cone first second third)
  | "r" => some (radius first)
  | "t" => some (tension first)
  | "m" => some (material symbol.parameters)
  | _ => none

end Command

end GrowthGrammar
