import GrowthGrammar.Text.Quoted

/-!
# Named grammars
-/

namespace GrowthGrammar

structure Preset where
  name : String
  start : String
  rules : String
  iterations : Nat
  deriving DecidableEq, Repr

namespace Preset

/-- A cherry tree: brown tapered branches that split in two at every level, with pink blossoms of
random size on the side shoots. The two rules for `l` stretch older segments in every pass. -/
def sakura : Preset :=
  { name := "sakura"
    start := "m\x7b0x594d30, 0.9, 0\x7d A\x7b0.2\x7d"
    rules :=
      "A\x7br\x7d -> l\x7b0.2, r, r\x7d +x +y +z [ [ A\x7br/2\x7d ] -x A\x7br/2\x7d ] -x -y -z " ++
      "l\x7b0.2, r, r\x7d [ -x l\x7b0.2, r, r/2\x7d A\x7br/2\x7d m\x7b0xf695c3, 0.7, 0\x7d " ++
      "sphere ] +x A\x7br/2\x7d\n" ++
      "l\x7ba, b, c\x7d -> l\x7ba*2.5, b, c\x7d\n" ++
      "l\x7ba, b, c\x7d -> l\x7ba*2, b, c\x7d\n" ++
      "sphere -> sphere\x7brandom()/7+0.1\x7d"
    iterations := 4 }

def all : List Preset :=
  [sakura]

/-- The lower case of a character, as far as it is an ASCII letter. Of all other characters only
the Kelvin sign has an ASCII letter as its lower case. -/
def lowerChar (c : Char) : Char :=
  if c = '\u212a' then 'k' else c.toLower

/-- Presets are found in any letter case. -/
def find? (name : String) : Option Preset :=
  let lower := name.toList.map lowerChar
  all.find? fun preset => preset.name.toList = lower

/-- The names of the presets, for messages. -/
def known : String :=
  ", ".intercalate (all.map name)

end Preset

end GrowthGrammar
