import GrowthGrammar.Proofs.Config.Pieces
import GrowthGrammar.Proofs.Config.Reading
import GrowthGrammar.Proofs.Grammar.RuleList
import GrowthGrammar.Proofs.Rewrite.Completion

/-!
# Random configurations are usable

Whatever is drawn, a random configuration passes its own checks: each of its rules is parsed, and
each successor starts with a segment, grows on somewhere, and closes the branches that it opens.
-/

namespace GrowthGrammar

open Fallible RawSymbol Text

/-! ## Draws -/

theorem Source.draw_yields (source : Source σ) :
    Yields (source.draw : EStateM ε σ Float) fun _ => True :=
  fun before => ⟨(source.uniform before).1, (source.uniform before).2, rfl, trivial⟩

theorem Source.between_yields {source : Source σ} (inRange : source.InRange) {least greatest : Nat}
    (le : least ≤ greatest) :
    Yields (source.between least greatest) fun value =>
      ∃ n : Nat, value = n ∧ least ≤ n ∧ n ≤ greatest := by
  intro before
  rcases inRange (greatest + 1 - least) before (by omega) with ⟨index, below, drawn⟩
  refine ⟨least + index, (source.index (greatest + 1 - least) before).2, ?_,
    least + index, rfl, by omega, by omega⟩
  simp only [EStateM.run, between]
  split
  · next other after equal =>
      rw [equal] at drawn
      cases drawn
      rw [equal]
  · next reason after equal =>
      rw [equal] at drawn
      cases drawn

namespace RandomConfig

theorem isLiteral_of_span {text : String}
    (span : Token.spanNumber? text.toList = some (text.toList, [])) : IsLiteral text :=
  (Token.eq_of_spanNumber? span).2

section

variable {source : Source σ} (inRange : source.InRange)

include inRange

theorem drawTurn_yields : Yields (drawTurn source) Leaf := by
  refine .bind (source.choose_yields inRange (List.cons_ne_nil _ _)) fun sign isSign => ?_
  refine .bind (source.choose_yields inRange (List.cons_ne_nil _ _)) fun axis isAxis => ?_
  refine .bind source.draw_yields fun roll _ => ?_
  split
  · exact .pure (.turn isSign isAxis)
  · refine .bind (Source.between_yields inRange (by decide)) ?_
    rintro _ ⟨degrees, rfl, _⟩
    exact .pure (.turnBy degrees isSign isAxis)

variable {length shrink : String} (isLength : IsLiteral length) (isShrink : IsLiteral shrink)

include isLength isShrink

theorem drawLeaf_yields : Yields (drawLeaf source length shrink) Leaf := by
  refine .bind source.draw_yields fun roll _ => ?_
  split
  · exact .pure (.thinSegment isLength isShrink)
  · split
    · exact .pure (.growth isShrink)
    · exact drawTurn_yields inRange

theorem drawPieces_yields (count depth : Nat) :
    Yields (drawPieces source length shrink count depth) (Closes depth) := by
  induction count generalizing depth with
  | zero => exact .pure (closes_replicate depth)
  | succ count induction =>
      refine .bind source.draw_yields fun roll _ => ?_
      split
      · next opens =>
          have below : depth < maxDepth := by simpa using (Bool.and_eq_true_iff.mp opens).2
          exact .bind (induction (depth + 1)) fun pieces closes => .pure (.openBranch below closes)
      · split
        · next closes =>
            have positive : 0 < depth := by simpa using (Bool.and_eq_true_iff.mp closes).2
            refine .bind (induction (depth - 1)) fun pieces behind => .pure ?_
            have closed := Closes.closeBranch behind
            rwa [Nat.sub_add_cancel positive] at closed
        · exact .bind (drawLeaf_yields inRange isLength isShrink) fun piece leaf =>
            .bind (induction depth) fun pieces closes => .pure (.leaf leaf closes)

end

/-- A row of pieces that starts with a segment, grows on, and closes its branches. -/
structure Grows (pieces : List Piece) : Prop where
  starts : ∃ length shrink rest, pieces = .segment length shrink :: rest
  growth : ∃ shrink, .growth shrink ∈ pieces
  closes : Closes 0 pieces

theorem drawSuccessor_yields {source : Source σ} (inRange : source.InRange) (count : Nat) :
    Yields (drawSuccessor source count) Grows := by
  have lengths : ∀ text ∈ ["0.1", "0.2", "0.3"],
      Token.spanNumber? text.toList = some (text.toList, []) := by decide
  have shrinks : ∀ text ∈ ["0.5", "0.6", "0.7", "0.8"],
      Token.spanNumber? text.toList = some (text.toList, []) := by decide
  refine .bind (source.choose_yields inRange (List.cons_ne_nil _ _)) fun shrink drawn => ?_
  have isShrink := isLiteral_of_span (shrinks shrink drawn)
  refine .bind (source.choose_yields inRange (List.cons_ne_nil _ _)) fun length drawn => ?_
  have isLength := isLiteral_of_span (lengths length drawn)
  refine .bind (drawPieces_yields inRange isLength isShrink count 0) fun pieces closes => ?_
  have whole : Closes 0 (.segment length shrink :: pieces) :=
    .leaf (.segment isLength isShrink) closes
  refine .pure ?_
  by_cases grown : pieces.any Piece.isGrowth
  · rw [if_pos grown, List.append_nil]
    rcases List.any_eq_true.mp grown with ⟨piece, member, isGrowth⟩
    cases piece with
    | growth other =>
        exact ⟨⟨length, shrink, _, rfl⟩, ⟨other, List.mem_cons_of_mem _ member⟩, whole⟩
    | segment | thinSegment | turn | openBranch | closeBranch => cases isGrowth
  · rw [if_neg grown]
    exact ⟨⟨length, shrink, _, rfl⟩, ⟨shrink, by simp⟩, whole.concat (.growth isShrink)⟩

/-- The numbers of a plant are among those that are drawn from, and its successors grow. -/
structure Plant.Fit (plant : Plant) : Prop where
  iterations : 0 ≤ plant.iterations
  angle : plant.angle ∈ [15, 20, 25, 30, 45]
  radius : plant.radius ∈ ["0.05", "0.1", "0.2"]
  bark : plant.bark ∈ ["0x594d30", "0x6b4f2a", "0x3e3a2f"]
  leaf : plant.leaf ∈ ["0xf695c3", "0x7bc86c", "0xf2c94c"]
  successors : ∀ pieces ∈ plant.successors, Grows pieces

theorem drawGrowth_yields {source : Source σ} (inRange : source.InRange) :
    Yields (drawGrowth source) Grows :=
  .bind (Source.between_yields inRange (by decide)) fun count _ =>
    drawSuccessor_yields inRange count.toNat

theorem drawOthers_yields {source : Source σ} (inRange : source.InRange) :
    Yields (drawOthers source) fun others => ∀ pieces ∈ others, Grows pieces := by
  refine .bind source.draw_yields fun roll _ => ?_
  split
  · exact .bind (drawGrowth_yields inRange) fun pieces grows =>
      .pure (List.forall_mem_singleton.mpr grows)
  · exact .pure (List.forall_mem_nil _)

theorem draw_yields {source : Source σ} (inRange : source.InRange) :
    Yields (draw source) Plant.Fit := by
  refine .bind (Source.between_yields inRange (by decide)) ?_
  rintro _ ⟨iterations, rfl, _⟩
  refine .bind (source.choose_yields inRange (List.cons_ne_nil _ _)) fun angle isAngle => ?_
  refine .bind (source.choose_yields inRange (List.cons_ne_nil _ _)) fun radius isRadius => ?_
  refine .bind (source.choose_yields inRange (List.cons_ne_nil _ _)) fun bark isBark => ?_
  refine .bind (source.choose_yields inRange (List.cons_ne_nil _ _)) fun leaf isLeaf => ?_
  refine .bind (drawGrowth_yields inRange) fun successor grows => ?_
  refine .bind (drawOthers_yields inRange) fun others othersGrow => ?_
  refine .bind (Source.between_yields inRange (by decide)) fun seed _ => .pure ?_
  exact ⟨Int.natCast_nonneg iterations, isAngle, isRadius, isBark, isLeaf,
    List.forall_mem_cons.mpr ⟨grows, othersGrow⟩⟩

/-! ## Checks -/

/-- A line that starts with a visible character holds a rule, unless it is a comment. -/
theorem isRule_of_visible {line : String} {c : Char} {rest : List Char}
    (starts : line.toList = c :: rest) (visible : isBlank c = false) (notComment : c ≠ '#') :
    isRule line = true := by
  rcases exists_trim (c :: rest) with ⟨before, after, blankBefore, blankAfter, whole⟩
  have notBlank : ¬isBlank c = true := by simp [visible]
  rcases before with _ | ⟨first, before⟩
  · rw [isRule, starts]
    rcases trimmed : trim (c :: rest) with _ | ⟨first, others⟩
    · rw [trimmed, List.nil_append, List.nil_append] at whole
      exact absurd (blankAfter c (whole ▸ List.mem_cons_self)) notBlank
    · rw [trimmed, List.nil_append, List.cons_append] at whole
      simpa [← (List.cons.inj whole).1] using notComment
  · rw [List.append_assoc, List.cons_append] at whole
    exact absurd (blankBefore c ((List.cons.inj whole).1 ▸ List.mem_cons_self)) notBlank

/-- The production rewrites the one symbol that grows, and binds its width. -/
def RewritesGrowth (production : Production) : Prop :=
  production.predecessor = "A" ∧ production.bindings = ["r"]

instance (production : Production) : Decidable (RewritesGrowth production) :=
  inferInstanceAs (Decidable (_ ∧ _))

theorem parse_blossom {leaf : String} (isLeaf : leaf ∈ ["0xf695c3", "0x7bc86c", "0xf2c94c"])
    (line : Option Int) :
    ∃ production, parseProduction (ruleText (blossom leaf)) line = .ok production ∧
      RewritesGrowth production := by
  have all : ∀ leaf ∈ ["0xf695c3", "0x7bc86c", "0xf2c94c"],
      (parseProduction (ruleText (blossom leaf)) none).toOption.any
        (fun production => decide (RewritesGrowth production)) = true := by
    decide +kernel
  have parsed := all leaf isLeaf
  cases read : parseProduction (ruleText (blossom leaf)) none with
  | error error =>
      rw [read] at parsed
      cases parsed
  | ok production =>
      rw [read] at parsed
      exact ⟨_, parseProduction_elsewhere read line, of_decide_eq_true parsed⟩

theorem unbroken_blossom {leaf : String} (isLeaf : leaf ∈ ["0xf695c3", "0x7bc86c", "0xf2c94c"]) :
    ∀ c ∈ (blossom leaf).toList, endsLine c = false := by
  have all : ∀ leaf ∈ ["0xf695c3", "0x7bc86c", "0xf2c94c"],
      ((blossom leaf).toList.all fun c => !endsLine c) = true := by
    decide +kernel
  simpa using all leaf isLeaf

theorem unbroken_ruleText {successor : String}
    (unbroken : ∀ c ∈ successor.toList, endsLine c = false) :
    ∀ c ∈ (ruleText successor).toList, endsLine c = false := by
  have front : (("A" ++ braced "r" ++ " -> ").toList.all fun c => !endsLine c) = true := by
    decide +kernel
  have whole : (ruleText successor).toList =
      ("A" ++ braced "r" ++ " -> ").toList ++ successor.toList := by
    rw [ruleText, String.toList_append]
  rw [whole]
  refine List.forall_mem_append.mpr ⟨fun c member => ?_, unbroken⟩
  simpa using List.all_eq_true.mp front c member

theorem readSetting_angle {degrees : Int} {angle : Float}
    (angle_eq : Number.ofInt? degrees = some angle) :
    Config.readSetting "angle" (.int degrees) = .ok (.angle, angle) := by
  have found : Setting.ofName? "angle" = some .angle := rfl
  rw [Config.readSetting, found]
  simp only [Config.asNumber, angle_eq]
  rfl

namespace Plant.Fit

variable {plant : Plant} (fit : plant.Fit)

include fit

theorem rules_cases {rule : String} (member : rule ∈ plant.rules) :
    (∃ pieces, Grows pieces ∧ rule = ruleText (successorText pieces)) ∨
      rule = ruleText (blossom plant.leaf) := by
  rcases List.mem_append.mp member with grown | last
  · rcases List.mem_map.mp grown with ⟨pieces, piecesMember, rfl⟩
    exact .inl ⟨pieces, fit.successors pieces piecesMember, rfl⟩
  · exact .inr (List.mem_singleton.mp last)

/-- Each rule is parsed on every line. -/
theorem parse_rule {rule : String} (member : rule ∈ plant.rules) (line : Option Int) :
    ∃ production, parseProduction rule line = .ok production ∧ RewritesGrowth production := by
  rcases fit.rules_cases member with ⟨pieces, grows, rfl⟩ | rfl
  · rcases grows.starts with ⟨length, shrink, rest, starts⟩
    have nonempty : pieces ≠ [] := by simp [starts]
    exact ⟨_, parse_ruleText grows.closes.written nonempty line, rfl, rfl⟩
  · exact parse_blossom fit.leaf line

theorem isRule_rule {rule : String} (member : rule ∈ plant.rules) : isRule rule := by
  have starts (successor : String) : ∃ rest, (ruleText successor).toList = 'A' :: rest := by
    simp [ruleText]
  rcases fit.rules_cases member with ⟨pieces, _, rfl⟩ | rfl
  · exact isRule_of_visible (starts _).choose_spec (by decide) (by decide)
  · exact isRule_of_visible (starts _).choose_spec (by decide) (by decide)

theorem unbroken_rule {rule : String} (member : rule ∈ plant.rules) :
    ∀ c ∈ rule.toList, endsLine c = false := by
  rcases fit.rules_cases member with ⟨pieces, grows, rfl⟩ | rfl
  · exact unbroken_ruleText (unbroken_successorText grows.closes.written)
  · exact unbroken_ruleText (unbroken_blossom fit.leaf)

theorem parse_start : ∃ word, parseWord plant.start = .ok word := by
  have all : ∀ bark ∈ ["0x594d30", "0x6b4f2a", "0x3e3a2f"],
      ∀ radius ∈ ["0.05", "0.1", "0.2"],
        (parseWord (colored bark "0.9" ++ " A" ++ braced radius)).isOk = true := by
    decide +kernel
  exact exists_ok_of_isOk (all plant.bark fit.bark plant.radius fit.radius)

theorem visible_start : Text.isAllBlank plant.start.toList = false := by
  have all : ∀ bark ∈ ["0x594d30", "0x6b4f2a", "0x3e3a2f"],
      ∀ radius ∈ ["0.05", "0.1", "0.2"],
        Text.isAllBlank (colored bark "0.9" ++ " A" ++ braced radius).toList = false := by
    decide +kernel
  exact all plant.bark fit.bark plant.radius fit.radius

/-- All rules are parsed, one production from each. -/
theorem parse_rules : ∃ table, parseRuleLines plant.rules = .ok table ∧
    table.size = plant.rules.length ∧
      ∀ production ∈ table.productions, RewritesGrowth production := by
  have accepted : AllAccepted plant.rules := fun rule member _ =>
    (fit.parse_rule member none).imp fun _ => And.left
  have counted : (plant.rules.countP fun rule => HoldsRule rule) = plant.rules.length :=
    List.countP_eq_length.mpr fun rule member =>
      decide_eq_true (isRule_iff.mp (fit.isRule_rule member))
  refine ⟨_, parseRuleLines_of_allAccepted accepted,
    (length_productionsFrom accepted).trans counted, fun production member => ?_⟩
  rcases exists_line_of_mem_productionsFrom member with ⟨rule, ruleMember, parsed⟩
  rcases fit.parse_rule ruleMember production.line with ⟨other, otherParsed, rewrites⟩
  cases parsed.symm.trans otherParsed
  exact rewrites

theorem exists_ofInt? : ∃ angle, Number.ofInt? plant.angle = some angle := by
  have all : ∀ angle ∈ ([15, 20, 25, 30, 45] : List Int),
      (Number.ofInt? angle).isSome = true := by
    decide +kernel
  exact Option.isSome_iff_exists.mp (all plant.angle fit.angle)

theorem ofJson_json : ∃ config, Config.ofJson plant.json = .ok config ∧
    config.start = plant.start ∧ config.rules = "\n".intercalate plant.rules := by
  rcases fit.exists_ofInt? with ⟨angle, angle_eq⟩
  let config : Config :=
    { name := "Random L-System", start := plant.start, rules := "\n".intercalate plant.rules
      iterations := plant.iterations.toNat, seed := some plant.seed
      settings := [(.angle, angle)], precision := 5 }
  have settings_eq : [("angle", Json.int plant.angle)].mapM
      (fun entry => Config.readSetting entry.1 entry.2) = .ok config.settings := by
    change (Config.readSetting "angle" (.int plant.angle) >>= fun setting => _) = _
    rw [readSetting_angle angle_eq]
    rfl
  refine ⟨config, Config.ofJson_object_eq_ok_iff.mpr ?_, rfl, rfl⟩
  exact @Config.Reads.intro _ none _ (some plant.start) _ _ _ _ _ rfl rfl rfl
    (Config.asRules_array "rules" plant.rules) rfl fit.visible_start fit.iterations rfl settings_eq rfl

theorem check_json : ∃ grammar, check plant.json = .ok grammar ∧
    grammar.rules.size = plant.rules.length ∧
      ∀ production ∈ grammar.rules.productions, RewritesGrowth production := by
  rcases fit.ofJson_json with ⟨config, accepted, start_eq, rules_eq⟩
  rcases fit.parse_start with ⟨start, start_parsed⟩
  rcases fit.parse_rules with ⟨rules, rules_parsed, rewrite⟩
  have grammar_eq : config.grammar = .ok { start, rules } := by
    have block_parsed := (parseRules_intercalate fun rule => fit.unbroken_rule).trans rules_parsed
    rw [parseRules] at block_parsed
    rw [Config.grammar, start_eq, rules_eq, Grammar.parse, start_parsed, ok_bind, block_parsed,
      ok_bind]
    rfl
  refine ⟨{ start, rules }, ?_, rewrite⟩
  exact bind_eq_ok_iff.mpr ⟨config, mapError_eq_ok_iff.mpr accepted,
    mapError_eq_ok_iff.mpr grammar_eq⟩

end Plant.Fit

/-! ## Results -/

/-- A configuration with rules for the one symbol that grows: each of them is parsed, whatever line
it is put on, and the checks are passed with one production from each. -/
def Usable (value : Json) : Prop :=
  ∃ members rules grammar, value = .object members ∧
    Json.member? members "rules" = some (.array (List.map .string rules)) ∧ rules ≠ [] ∧
    (∀ rule ∈ rules, ∀ line, ∃ production,
      parseProduction rule line = .ok production ∧ RewritesGrowth production) ∧
    check value = .ok grammar ∧ grammar.rules.size = rules.length ∧
    ∀ production ∈ grammar.rules.productions, RewritesGrowth production

/-- Symbols that start with a segment, grow on by a width somewhere, use the one name `r`, and
close the branches that they open, of which never more than three are open. -/
structure Branches (templates : List Template) : Prop where
  starts : ∃ formulas rest, templates = { name := "l", formulas } :: rest
  growth : ∃ formula, { name := "A", formulas := [formula] } ∈ templates
  overWidth : ∀ template ∈ templates, ∀ formula ∈ template.formulas, OverWidth formula.tree
  balanced : Word.Balanced (templates.map Template.bare)
  within : Word.Within 3 0 (templates.map Template.bare)

theorem Plant.Fit.usable {plant : Plant} (fit : plant.Fit) : Usable plant.json := by
  rcases fit.check_json with ⟨grammar, checked, size_eq, rewrite⟩
  have nonempty : plant.rules ≠ [] := List.append_ne_nil_of_right_ne_nil _ (List.cons_ne_nil _ _)
  exact ⟨_, plant.rules, grammar, rfl, rfl, nonempty, fun rule => fit.parse_rule, checked, size_eq,
    rewrite⟩

theorem Grows.branches {pieces : List Piece} (grows : Grows pieces) :
    Branches (pieces.map Piece.template) := by
  rcases grows with ⟨⟨length, shrink, rest, starts⟩, ⟨growthShrink, member⟩, closes⟩
  refine ⟨?_, ?_, overWidth_templates closes.written, ⟨closes.covered, closes.closings⟩,
    closes.within (Nat.zero_le maxDepth)⟩
  · rw [starts]
    exact ⟨_, _, rfl⟩
  · exact ⟨_, List.mem_map.mpr ⟨_, member, rfl⟩⟩

theorem generate_yields {source : Source σ} (inRange : source.InRange) :
    Yields (generate source) Usable := by
  refine .bind (.adaptExcept _ (draw_yields inRange)) fun plant fit => ?_
  rcases fit.check_json with ⟨grammar, checked, _⟩
  rw [checked]
  exact .pure fit.usable

/-- Whatever is drawn, a random configuration is handed out, and it is usable; and however long a
random successor is to be, its text is parsed behind the arrow of a rule as symbols that branch. -/
theorem usable_of_inRange {source : Source σ} (inRange : source.InRange) :
    Yields (generate source) Usable ∧
      ∀ count, Yields (drawSuccessor source count) fun pieces => ∀ line, ∃ templates,
        parseProduction (ruleText (successorText pieces)) line =
            .ok { predecessor := "A", bindings := ["r"], successor := templates, line } ∧
          Branches templates := by
  refine ⟨generate_yields inRange, fun count => ?_⟩
  refine (drawSuccessor_yields inRange count).imp fun pieces grows line => ?_
  rcases grows.starts with ⟨length, shrink, rest, starts⟩
  have nonempty : pieces ≠ [] := by simp [starts]
  exact ⟨_, parse_ruleText grows.closes.written nonempty line, grows.branches⟩

/-- A twister from any seed hands out a usable configuration. -/
theorem usable_of_inRange_of_seed :
    Twister.source.InRange ∧
      ∃ value after, (generate Twister.source).run (.ofSeed 42) = .ok value after ∧
        Usable value :=
  ⟨Twister.source_inRange, (usable_of_inRange Twister.source_inRange).1 (.ofSeed 42)⟩

end RandomConfig

end GrowthGrammar
