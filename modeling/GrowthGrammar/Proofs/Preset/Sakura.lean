import GrowthGrammar.Growth
import GrowthGrammar.Proofs.Rewrite.Descent
import GrowthGrammar.Proofs.Turtle.Painting
import GrowthGrammar.Proofs.Turtle.Steady
import Mathlib.Algebra.Group.Nat.Defs
import Mathlib.Data.List.Nodup

/-!
# The shape of sakura

Chance decides how long the segments of a cherry tree are and how large its blossoms, and nothing
else: after a number of passes the tree always has the same number of segments, all of the color of
the bark, and of blossoms, each of a color of its own.
-/

namespace GrowthGrammar

open Fallible Turtle GrowthGrammar.Derivation

namespace Sakura

/-! ## The grammar -/

/-- The names in the successor of the rule that grows. -/
def boughs : List String :=
  ["l", "+x", "+y", "+z", "[", "[", "A", "]", "-x", "A", "]", "-x", "-y", "-z", "l", "[", "-x", "l",
    "A", "m", "sphere", "]", "+x", "A"]

def turns : List String :=
  ["+x", "-x", "+y", "-y", "+z", "-z"]

/-- What the shape of the tree depends on: one rule grows, and all others keep the names of the
symbols. The paint of the bark is kept, blossoms are painted by the rule that grows, and turns are by
the standard angle. -/
structure Shapes (grammar : Grammar) : Prop where
  start : grammar.start.map (fun symbol => (symbol.name, symbol.parameters.length)) =
    [("m", 3), ("A", 1)]
  grows : (grammar.rules.candidates "A" 1).map
    (fun production => production.successor.map Template.name) = [boughs]
  keeps : ∀ production ∈ grammar.rules.productions, production.predecessor ≠ "A" →
    production.successor.map Template.name = [production.predecessor]
  unpainted : ∀ production ∈ grammar.rules.productions, production.predecessor ≠ "m"
  buds : ∀ production ∈ grammar.rules.productions, ∀ template ∈ production.successor,
    template.name = "A" → template.formulas.length = 1
  paints : ∀ production ∈ grammar.rules.productions, ∀ template ∈ production.successor,
    template.name = "m" → production ∈ grammar.rules.candidates "A" 1
  steady : ∀ production ∈ grammar.rules.productions, ∀ template ∈ production.successor,
    template.name ≠ "s" ∧ (template.name ∈ turns → template.formulas = [])

instance (grammar : Grammar) : Decidable (Shapes grammar) :=
  decidable_of_iff (_ ∧ _ ∧ _ ∧ _ ∧ _ ∧ _ ∧ _)
    ⟨fun ⟨start, grows, keeps, unpainted, buds, paints, steady⟩ =>
      ⟨start, grows, keeps, unpainted, buds, paints, steady⟩,
    fun ⟨start, grows, keeps, unpainted, buds, paints, steady⟩ =>
      ⟨start, grows, keeps, unpainted, buds, paints, steady⟩⟩

theorem exists_parse : ∃ grammar,
    Grammar.parse Preset.sakura.start (ruleLines Preset.sakura.rules) = .ok grammar ∧
      Shapes grammar := by
  have accepted : (Grammar.parse Preset.sakura.start
      (ruleLines Preset.sakura.rules)).toOption.any (fun grammar => decide (Shapes grammar)) =
        true := by
    decide +kernel
  cases parsed : Grammar.parse Preset.sakura.start (ruleLines Preset.sakura.rules) with
  | error error =>
      rw [parsed] at accepted
      cases accepted
  | ok grammar =>
      rw [parsed] at accepted
      exact ⟨grammar, rfl, of_decide_eq_true accepted⟩

/-! ## Names of a tree -/

/-- What a pass makes of a name. -/
def change (name : String) : List String :=
  if name = "A" then boughs else [name]

/-- The names of the symbols that a number of passes make of the one that grows. -/
def tree (passes : Nat) : List String :=
  descend change passes ["A"]

theorem tree_succ (passes : Nat) : tree (passes + 1) =
    ["l", "+x", "+y", "+z", "[", "["] ++ (tree passes ++ (["]", "-x"] ++ (tree passes ++
      (["]", "-x", "-y", "-z", "l", "[", "-x", "l"] ++ (tree passes ++
        (["m", "sphere", "]", "+x"] ++ tree passes)))))) := by
  have kept (name : String) (other : name ≠ "A") : descend change passes [name] = [name] :=
    descend_of_fixed (if_neg other) passes
  rw [tree, descend, List.flatMap_singleton, change, if_pos rfl, descend_eq_flatMap]
  simp [boughs, kept, tree]

/-- A symbol that grows has a width. -/
def Fits (symbol : Symbol) : Prop :=
  symbol.name = "A" → symbol.parameters.length = 1

section

variable {grammar : Grammar} (shapes : Shapes grammar) {source : Source σ}

include shapes

theorem Shapes.exists_growth : ∃ production, grammar.rules.candidates "A" 1 = [production] ∧
    production.successor.map Template.name = boughs := by
  rcases List.map_eq_singleton_iff.mp shapes.grows with ⟨production, candidates, names⟩
  exact ⟨production, candidates, names⟩

theorem Shapes.substitutes : Substitutes grammar.rules source Fits change := by
  rcases shapes.exists_growth with ⟨growth, candidates, names⟩
  constructor
  · intro symbol part fit becomes
    by_cases grows : symbol.name = "A"
    · have width := fit grows
      rw [change, if_pos grows]
      cases becomes with
      | kept nothing =>
          rw [grows, width, candidates] at nothing
          cases nothing
      | replaced choice instances =>
          rw [grows, width, candidates, List.mem_singleton] at choice
          rw [← names, ← choice]
          exact map_eq_map_of_forall₂ (fun _ _ stands => stands.name) instances
    · rw [change, if_neg grows]
      cases becomes with
      | kept => rfl
      | replaced choice instances =>
          have predecessor := RuleTable.predecessor_of_mem_candidates choice
          have successor := shapes.keeps _ (RuleTable.mem_candidates choice).1 (predecessor ▸ grows)
          rw [map_eq_map_of_forall₂ (fun _ _ stands => stands.name) instances, successor,
            predecessor]
  · intro symbol part fit becomes other member
    cases becomes with
    | kept => exact List.mem_singleton.mp member ▸ fit
    | replaced choice instances =>
        rcases exists_mem_of_forall₂ instances member with ⟨template, templateMember, stands⟩
        intro grows
        rw [← stands.parameters.length_eq]
        exact shapes.buds _ (RuleTable.mem_candidates choice).1 template templateMember
          (stands.name ▸ grows)

end

/-! ## Marks of a tree -/

/-- The number of blossoms of a tree. -/
def blossoms : Nat → Nat
  | 0 => 0
  | passes + 1 => 4 * blossoms passes + 1

theorem blossoms_eq (passes : Nat) : 3 * blossoms passes + 1 = 4 ^ passes := by
  induction passes with
  | zero => rfl
  | succ passes induction =>
      rw [blossoms, Nat.pow_succ, ← induction]
      omega

/-- All segments have one color, and each blossom has the next color that is made. -/
structure Decorates (ink made segments spheres : Nat) (marks : List Mark) : Prop where
  segments : marks.filter (·.kind = "line") = List.replicate segments ⟨"line", ink⟩
  spheres : marks.filter (·.kind = "sphere") = (List.range' made spheres).map (Mark.mk "sphere")
  kinds : ∀ mark ∈ marks, mark.kind = "line" ∨ mark.kind = "sphere"

namespace Decorates

variable {ink made segments spheres : Nat} {marks : List Mark}

theorem nil : Decorates ink made 0 0 [] :=
  ⟨rfl, rfl, List.forall_mem_nil _⟩

theorem segment : Decorates ink made 1 0 [⟨"line", ink⟩] :=
  ⟨rfl, rfl, List.forall_mem_singleton.mpr (.inl rfl)⟩

theorem sphere : Decorates ink made 0 1 [⟨"sphere", made⟩] :=
  ⟨rfl, rfl, List.forall_mem_singleton.mpr (.inr rfl)⟩

theorem append (first : Decorates ink made segments spheres marks)
    {otherSegments otherSpheres : Nat} {others : List Mark}
    (second : Decorates ink (made + spheres) otherSegments otherSpheres others) :
    Decorates ink made (segments + otherSegments) (spheres + otherSpheres) (marks ++ others) where
  segments := by
    rw [List.filter_append, first.segments, second.segments, List.replicate_append_replicate]
  spheres := by
    rw [List.filter_append, first.spheres, second.spheres, ← List.map_append,
      List.range'_append_1]
  kinds := List.forall_mem_append.mpr ⟨first.kinds, second.kinds⟩

end Decorates

/-- Names that take the one machine back to its start and the other one from `before` to `after`, and
leave segments of the one color and spheres of the next colors. -/
structure Paints (ink : Nat) (names : List String) (before after : Painter)
    (segments spheres : Nat) : Prop where
  emitter_eq : Emitter.start.after names = .start
  painter_eq : before.after names = after
  made_eq : after.made = before.made + spheres
  decorates : Decorates ink before.made segments spheres (before.marks .start names)

theorem Paints.append {ink segments spheres otherSegments otherSpheres : Nat}
    {first second : List String} {before between after : Painter}
    (paintsFirst : Paints ink first before between segments spheres)
    (paintsSecond : Paints ink second between after otherSegments otherSpheres) :
    Paints ink (first ++ second) before after (segments + otherSegments)
      (spheres + otherSpheres) where
  emitter_eq := by
    rw [Emitter.after_append, paintsFirst.emitter_eq, paintsSecond.emitter_eq]
  painter_eq := by
    rw [Painter.after_append, paintsFirst.painter_eq, paintsSecond.painter_eq]
  made_eq := by
    rw [paintsSecond.made_eq, paintsFirst.made_eq, Nat.add_assoc]
  decorates := by
    have others := paintsSecond.decorates
    rw [paintsFirst.made_eq] at others
    rw [Painter.marks_append, paintsFirst.painter_eq, paintsFirst.emitter_eq]
    exact paintsFirst.decorates.append others

/-- Behind a tree the color of the bark is in use again. Within it, each of the four smaller trees
stands between brackets that close what they open. -/
theorem paints_tree (ink : Nat) (saved : List Nat) (passes made : Nat) :
    Paints ink (tree passes) ⟨ink, saved, made⟩ ⟨ink, saved, made + blossoms passes⟩
      (3 * blossoms passes) (blossoms passes) := by
  induction passes generalizing saved made with
  | zero => exact ⟨rfl, rfl, rfl, .nil⟩
  | succ passes induction =>
      let count := blossoms passes
      have trunk : Paints ink ["l", "+x", "+y", "+z", "[", "["] ⟨ink, saved, made⟩
          ⟨ink, ink :: ink :: saved, made⟩ 1 0 :=
        ⟨rfl, rfl, rfl, .segment⟩
      have inner : Paints ink ["]", "-x"] ⟨ink, ink :: ink :: saved, made + count⟩
          ⟨ink, ink :: saved, made + count⟩ 0 0 :=
        ⟨rfl, rfl, rfl, .nil⟩
      have shoot : Paints ink ["]", "-x", "-y", "-z", "l", "[", "-x", "l"]
          ⟨ink, ink :: saved, made + count + count⟩
          ⟨ink, ink :: saved, made + count + count⟩ 2 0 :=
        ⟨rfl, rfl, rfl, .append .segment .segment⟩
      have blossom : Paints ink ["m", "sphere", "]", "+x"]
          ⟨ink, ink :: saved, made + count + count + count⟩
          ⟨ink, saved, made + count + count + count + 1⟩ 0 1 :=
        ⟨rfl, rfl, rfl, .sphere⟩
      have whole := trunk.append <| (induction _ _).append <| inner.append <|
        (induction _ _).append <| shoot.append <| (induction _ _).append <|
        blossom.append (induction _ _)
      rw [tree_succ]
      have made_eq : made + blossoms (passes + 1) =
          made + count + count + count + 1 + count := by
        simp only [blossoms, count]
        omega
      have segments_eq : 3 * blossoms (passes + 1) = 1 + (3 * count + (0 + (3 * count +
          (2 + (3 * count + (0 + 3 * count)))))) := by
        simp only [blossoms, count]
        omega
      have spheres_eq : blossoms (passes + 1) = 0 + (count + (0 + (count + (0 + (count +
          (1 + count)))))) := by
        simp only [blossoms, count]
        omega
      rw [made_eq, segments_eq, spheres_eq]
      exact whole

/-! ## Meshes of a tree -/

section

variable {palette : List (Tracked Material)} {marks : List Mark} {meshes : List Mesh}
  (carried : List.Forall₂ (Mark.Carried palette) marks meshes)

include carried

theorem carried_filter (kind : String) :
    List.Forall₂ (Mark.Carried palette) (marks.filter (·.kind = kind))
      (meshes.filter (·.kind = kind)) := by
  refine List.rel_filter (fun mark mesh carries => ?_) carried
  simp only [decide_eq_true_eq, carries.kind]

theorem countP_of_carried (kind : String) :
    meshes.countP (·.kind = kind) = (marks.filter (·.kind = kind)).length := by
  rw [List.countP_eq_length_filter, (carried_filter carried kind).length_eq]

variable {ink made segments spheres : Nat}
  (decorates : Decorates ink made segments spheres marks)

include decorates

theorem Decorates.kinds_of_carried :
    ∀ mesh ∈ meshes, mesh.kind = "line" ∨ mesh.kind = "sphere" := by
  intro mesh member
  rcases exists_mem_of_forall₂ carried member with ⟨mark, inside, carries⟩
  rw [carries.kind]
  exact decorates.kinds mark inside

theorem Decorates.material_of_segment {mesh : Mesh} (member : mesh ∈ meshes)
    (segment : mesh.kind = "line") : palette[ink]? = some mesh.material := by
  have filtered := carried_filter carried "line"
  rw [decorates.segments] at filtered
  have inside : mesh ∈ meshes.filter (·.kind = "line") := by simp [member, segment]
  rcases exists_mem_of_forall₂ filtered inside with ⟨mark, marked, carries⟩
  rw [List.eq_of_mem_replicate marked] at carries
  exact carries.material

theorem Decorates.material_of_sphere {mesh : Mesh} (member : mesh ∈ meshes)
    (sphere : mesh.kind = "sphere") :
    ∃ place, made ≤ place ∧ palette[place]? = some mesh.material := by
  have filtered := carried_filter carried "sphere"
  rw [decorates.spheres] at filtered
  have inside : mesh ∈ meshes.filter (·.kind = "sphere") := by simp [member, sphere]
  rcases exists_mem_of_forall₂ filtered inside with ⟨mark, marked, carries⟩
  rcases List.mem_map.mp marked with ⟨place, inRange, rfl⟩
  exact ⟨place, (List.mem_range'_1.mp inRange).1, carries.material⟩

/-- Different places of the palette hold different identities. -/
theorem Decorates.nodup_ids (nodup : (palette.map Tracked.id).Nodup) :
    ((meshes.filter (·.kind = "sphere")).map fun mesh => mesh.material.id).Nodup := by
  have filtered := carried_filter carried "sphere"
  rw [decorates.spheres, List.forall₂_map_left_iff] at filtered
  have places : List.Forall₂ (fun place id => (palette.map Tracked.id)[place]? = some id)
      (List.range' made spheres)
      ((meshes.filter (·.kind = "sphere")).map fun mesh => mesh.material.id) := by
    rw [List.forall₂_map_right_iff]
    refine filtered.imp fun place mesh carries => ?_
    rw [List.getElem?_map, carries.material]
    rfl
  refine (List.rel_nodup ⟨?_, ?_⟩ places).mp List.nodup_range'
  · intro first id second firstFound secondFound
    have inside := (List.getElem?_eq_some_iff.mp firstFound).1
    exact (List.getElem?_inj inside nodup).mp (firstFound.trans secondFound.symm)
  · intro place first second firstFound secondFound
    exact Option.some.inj (firstFound.symm.trans secondFound)

end

/-! ## Generations -/

/-- The meshes of a tree: segments with the material that the first command makes, and spheres with
materials of their own, each made by a paint that the rule that grows has written. -/
structure Blossoming (source : Source σ) (grammar : Grammar) (iterations : Nat) (before : Turtle)
    (commands : List Symbol) (meshes : List Mesh) : Prop where
  segments : meshes.countP (·.kind = "line") = 4 ^ iterations - 1
  spheres : meshes.countP (·.kind = "sphere") = (4 ^ iterations - 1) / 3
  kinds : ∀ mesh ∈ meshes, mesh.kind = "line" ∨ mesh.kind = "sphere"
  bark : ∃ paint rest, grammar.start.head? = some paint ∧ commands = paint :: rest ∧
    ∀ mesh ∈ meshes, mesh.kind = "line" → before.Creates [] paint mesh.material
  petals : ∀ mesh ∈ meshes, mesh.kind = "sphere" → ∃ done paint rest,
    commands = done ++ paint :: rest ∧ done ≠ [] ∧ before.Creates done paint mesh.material ∧
      ∃ production ∈ grammar.rules.candidates "A" 1, ∃ template ∈ production.successor,
        ∃ env, template.HasInstance env source paint
  apart : ((meshes.filter (·.kind = "sphere")).map fun mesh => mesh.material.id).Nodup

theorem turns_of_rotate {symbol : Symbol} {axis : Axis} {sign : Sign} {angle : Option Float}
    (reads : Command.ofSymbol? symbol = some (.rotate axis sign angle)) :
    symbol.name ∈ turns ∧ angle = symbol.parameters[0]? := by
  unfold Command.ofSymbol? at reads
  dsimp only at reads
  split at reads <;> cases reads
  all_goals
    next name_eq => exact ⟨by rw [name_eq]; decide, rfl⟩

theorem hasCosine_standard (sign : Sign) :
    Frame.hasCosine (signedAngle sign (Option.getD none Defaults.standard.angle)) = true := by
  cases sign <;> decide +kernel

section

variable {grammar : Grammar} (shapes : Shapes grammar) {source : Source σ}

include shapes

theorem Shapes.exists_start : ∃ paint bud, grammar.start = [paint, bud] ∧ paint.name = "m" ∧
    bud.name = "A" ∧ bud.parameters.length = 1 := by
  rcases List.map_eq_cons_iff.mp shapes.start with ⟨paint, others, start, paintShape, rest⟩
  rcases List.map_eq_singleton_iff.mp rest with ⟨bud, rfl, budShape⟩
  exact ⟨paint, bud, start, congrArg Prod.fst paintShape, congrArg Prod.fst budShape,
    congrArg Prod.snd budShape⟩

theorem Shapes.kept_paint {paint : Symbol} (paints : paint.name = "m") :
    grammar.rules.candidates paint.name paint.parameters.length = [] := by
  rw [paints, List.eq_nil_iff_forall_not_mem]
  intro production member
  exact shapes.unpainted production (RuleTable.mem_candidates member).1
    (RuleTable.predecessor_of_mem_candidates member)

/-- A derived word is the paint of the bark in front of a tree. -/
theorem Shapes.exists_commands {iterations : Nat} {commands : List Symbol}
    (reaches : Reaches grammar.rules source iterations grammar.start commands) :
    ∃ paint rest, grammar.start.head? = some paint ∧ paint.name = "m" ∧
      commands = paint :: rest ∧ rest.map Symbol.name = tree iterations ∧
      ∀ symbol ∈ rest, symbol.name = "A" ∨ grammar.rules.Writes source symbol := by
  rcases shapes.exists_start with ⟨paint, bud, start, paints, grows, width⟩
  rw [start] at reaches
  have whole : Reaches grammar.rules source iterations ([paint] ++ [bud]) commands := reaches
  rcases whole.append with ⟨front, rest, rfl, frontReaches, restReaches⟩
  rw [frontReaches.kept (shapes.kept_paint paints)]
  refine ⟨paint, rest, by rw [start]; rfl, paints, rfl, ?_, fun symbol member => ?_⟩
  · have fit : ∀ symbol ∈ [bud], Fits symbol := List.forall_mem_singleton.mpr fun _ => width
    rw [restReaches.names shapes.substitutes fit, List.map_singleton, grows]
    rfl
  · rcases restReaches.origin member with first | written
    · rw [List.mem_singleton.mp first]
      exact .inl grows
    · exact .inr written

theorem Shapes.steady_of_writes {symbol : Symbol}
    (written : grammar.rules.Writes source symbol) : symbol.Steady .standard := by
  rcases written with @⟨production, template, env, member, inside, stands⟩
  rcases shapes.steady production member template inside with ⟨noLine, turning⟩
  rw [← stands.name] at noLine turning
  refine ⟨noLine, fun reads => ?_⟩
  rcases turns_of_rotate reads with ⟨turn, angle_eq⟩
  have parameters := stands.parameters
  rw [turning turn] at parameters
  have straight : symbol.parameters = [] := List.forall₂_nil_left_iff.mp parameters
  rw [angle_eq, straight]
  exact hasCosine_standard _

theorem Shapes.exists_run {iterations : Nat} {commands : List Symbol}
    (reaches : Reaches grammar.rules source iterations grammar.start commands) {turtle : Turtle}
    (standard : turtle.defaults = .standard) :
    ∃ last, (commands.forM obey).run turtle.reset = .ok ⟨⟩ last := by
  refine exists_run_steady rfl fun symbol member => ?_
  change symbol.Steady turtle.defaults
  rw [standard]
  rcases reaches.origin member with first | written
  · rcases shapes.exists_start with ⟨paint, bud, start, paints, grows, _⟩
    rw [start, List.mem_cons, List.mem_singleton] at first
    rcases first with rfl | rfl
    · refine ⟨by rw [paints]; decide, fun reads => ?_⟩
      have turn := (turns_of_rotate reads).1
      rw [paints] at turn
      exact absurd turn (by decide)
    · refine ⟨by rw [grows]; decide, fun reads => ?_⟩
      have turn := (turns_of_rotate reads).1
      rw [grows] at turn
      exact absurd turn (by decide)
  · exact shapes.steady_of_writes written

/-- A paint that is no part of the start word is written by the rule that grows. -/
theorem Shapes.growth_of_paint {paint : Symbol} (paints : paint.name = "m")
    (written : paint.name = "A" ∨ grammar.rules.Writes source paint) :
    ∃ production ∈ grammar.rules.candidates "A" 1, ∃ template ∈ production.successor,
      ∃ env, template.HasInstance env source paint := by
  rcases written with grows | @⟨production, template, env, member, inside, stands⟩
  · rw [paints] at grows
    exact absurd grows (by decide)
  · have growth := shapes.paints production member template inside (stands.name ▸ paints)
    exact ⟨production, growth, template, inside, env, stands⟩

theorem Shapes.blossoming {iterations : Nat} {commands : List Symbol}
    (reaches : Reaches grammar.rules source iterations grammar.start commands)
    {turtle last : Turtle} (run : (commands.forM obey).run turtle.reset = .ok ⟨⟩ last) :
    last.stack = [] ∧ Blossoming source grammar iterations turtle.reset commands
      last.scene.meshes.toList := by
  rcases shapes.exists_commands reaches with ⟨paint, rest, head, paints, rfl, names, written⟩
  rcases run_forM_cons_eq_ok_iff.mp run with ⟨painted, runPaint, runRest⟩
  have tracks := (Painter.tracks_reset turtle).obey runPaint
  have emits := ((tracks_reset turtle).obey runPaint).tracks
  have painted_eq := setMaterial_of_obey paints runPaint
  rw [paints] at tracks emits
  rcases tracks.run emits runRest with ⟨tracksLast, meshes, scene, carried⟩
  rcases exists_creates runRest with ⟨created, palette_eq, creates⟩
  have meshes_eq : last.scene.meshes.toList = meshes := by
    rw [scene, painted_eq]
    rfl
  -- The palette holds the standard material, the paint of the bark, and those of the blossoms.
  have palette_last : last.palette =
      [turtle.reset.pose.material, painted.pose.material] ++ created := by
    rw [palette_eq, painted_eq, palette_setMaterial]
    rfl
  have paintsTree := paints_tree 1 [] iterations 2
  have decorates : Decorates 1 2 _ _ ((Painter.start.next "m").marks (Emitter.start.next "m") _) :=
    paintsTree.decorates
  have count := blossoms_eq iterations
  rw [names] at carried tracksLast
  rw [meshes_eq]
  constructor
  · have saved := tracksLast.saved
    have painter_eq : (Painter.start.next "m").after (tree iterations) = _ := paintsTree.painter_eq
    rw [painter_eq] at saved
    exact List.forall₂_nil_left_iff.mp saved
  constructor
  · rw [countP_of_carried carried, decorates.segments, List.length_replicate]
    omega
  · rw [countP_of_carried carried, decorates.spheres, List.length_map, List.length_range']
    omega
  · exact decorates.kinds_of_carried carried
  · refine ⟨paint, rest, head, rfl, fun mesh member segment => ?_⟩
    have found := decorates.material_of_segment carried member segment
    rw [palette_last] at found
    exact ⟨paints, turtle.reset, painted, rfl, runPaint, Option.some.inj found⟩
  · intro mesh member sphere
    rcases decorates.material_of_sphere carried member sphere with ⟨place, le, found⟩
    rw [palette_last, List.getElem?_append_right le] at found
    rcases creates _ (List.mem_of_getElem? found) with ⟨done, petal, others, rfl, created⟩
    have inside : petal ∈ done ++ petal :: others :=
      List.mem_append_right done List.mem_cons_self
    exact ⟨paint :: done, petal, others, rfl, List.cons_ne_nil _ _, created.cons runPaint,
      shapes.growth_of_paint created.paints (written petal inside)⟩
  · exact decorates.nodup_ids carried (Arena.nodup_materials _)

end

/-! ## Results -/

theorem run_grow_eq {start : String} {lines : List String} {iterations : Int} {source : Source σ}
    {limit : Option Int} {settings : List (String × Float)} {grammar : Grammar}
    {commands : List Symbol} {generation : Generation} {turtle after : Turtle} {before last : σ}
    (parsed : Grammar.parse start lines = .ok grammar)
    (derived : expand grammar.rules source limit iterations grammar.start before =
      (.ok commands, last))
    (generated : (generate commands settings).run turtle = .ok generation after) :
    (grow start lines iterations source limit settings).run (turtle, before) =
      .ok generation (after, last) := by
  refine run_bind_eq_ok_iff.mpr ⟨grammar, (turtle, before), by rw [parsed]; rfl, ?_⟩
  refine run_bind_eq_ok_iff.mpr ⟨(turtle, before), (turtle, before), rfl, ?_⟩
  dsimp only
  rw [derived]
  refine run_bind_eq_ok_iff.mpr ⟨⟨⟩, (turtle, last), rfl, ?_⟩
  refine run_bind_eq_ok_iff.mpr ⟨commands, (turtle, last), rfl, ?_⟩
  rw [generated]
  rfl

/-- Whatever is drawn, a turtle with the standard settings grows a tree with `4 ^ iterations - 1`
segments, all of the material that the first command makes, and a third as many blossoms, each of a
material that a paint of the growing rule makes; and no pose is saved behind it. -/
theorem grow_blossoming {source : Source σ} (inRange : source.InRange) (iterations : Nat)
    {turtle : Turtle} (standard : turtle.defaults = .standard) (state : σ) :
    ∃ grammar commands generation after last,
      Grammar.parse Preset.sakura.start (ruleLines Preset.sakura.rules) = .ok grammar ∧
      expand grammar.rules source none iterations grammar.start state = (.ok commands, last) ∧
      (Preset.sakura.grow iterations source).run (turtle, state) = .ok generation (after, last) ∧
      after.stack = [] ∧
      Blossoming source grammar iterations turtle.reset commands
        (after.sceneOf generation).meshes.toList := by
  rcases exists_parse with ⟨grammar, parsed, shapes⟩
  rcases expand_reaches (Grammar.parse_scoped parsed) inRange iterations grammar.start state with
    ⟨commands, derived, reaches⟩
  rcases shapes.exists_run reaches standard with ⟨last, run⟩
  rcases shapes.blossoming reaches run with ⟨stack, blossoming⟩
  have clean : (turtle.setDefaults []).reset = turtle.reset := rfl
  rw [← clean] at run
  rcases exists_generate_of_run run with ⟨generation, after, generated, stack_eq, scene_eq⟩
  have derived_eq : expand grammar.rules source none iterations grammar.start state =
      (.ok commands, (expand grammar.rules source none iterations grammar.start state).2) := by
    rw [← derived]
  refine ⟨grammar, commands, generation, after, _, parsed, derived_eq,
    run_grow_eq parsed derived_eq generated, stack_eq.trans stack, ?_⟩
  rw [scene_eq]
  exact blossoming

/-- A twister, and a turtle that has drawn something else before. -/
theorem grow_blossoming_of_seed :
    let turtle := ((Turtle.new .standard).move 1).save
    Twister.source.InRange ∧ turtle.defaults = .standard ∧
      ∃ grammar commands generation after last,
        Grammar.parse Preset.sakura.start (ruleLines Preset.sakura.rules) = .ok grammar ∧
        expand grammar.rules Twister.source none (3 : Nat) grammar.start (.ofSeed 9) =
          (.ok commands, last) ∧
        (Preset.sakura.grow (3 : Nat) Twister.source).run (turtle, .ofSeed 9) =
          .ok generation (after, last) ∧
        after.stack = [] ∧
        Blossoming Twister.source grammar 3 turtle.reset commands
          (after.sceneOf generation).meshes.toList := by
  intro turtle
  exact ⟨Twister.source_inRange, rfl,
    grow_blossoming Twister.source_inRange 3 (rfl : turtle.defaults = .standard) (.ofSeed 9)⟩

end Sakura

end GrowthGrammar
