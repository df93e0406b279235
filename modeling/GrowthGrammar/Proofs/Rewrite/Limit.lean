import GrowthGrammar.Proofs.Rewrite.Composition

/-!
# Derivations under a limit

A limit on the number of symbols only cuts a derivation short. Up to the first pass behind which a
word is too long, and to the end if there is none, the derivation is the one without a limit, with
the same draws from the source.
-/

namespace GrowthGrammar

namespace Derivation

/-- The generation is the first behind the start word with more symbols than the limit. -/
structure FirstBeyond (limit : Int) (generations : List (List Symbol)) (pass : Nat) : Prop where
  positive : 0 < pass
  beyond : ∃ word, generations[pass]? = some word ∧ limit < word.length
  within : ∀ earlier word, 0 < earlier → earlier < pass → generations[earlier]? = some word →
    word.length ≤ limit

/-- No generation behind the start word has more symbols than the limit. -/
def Within (limit : Int) (generations : List (List Symbol)) : Prop :=
  ∀ word ∈ generations.tail, word.length ≤ limit

theorem FirstBeyond.le {limit : Int} {generations : List (List Symbol)} {pass other : Nat}
    (first : FirstBeyond limit generations pass) (second : FirstBeyond limit generations other) :
    pass ≤ other := by
  by_contra later
  rcases second.beyond with ⟨word, found, beyond⟩
  have within := first.within other word second.positive (Nat.not_le.mp later) found
  exact absurd beyond (Int.not_lt.mpr within)

theorem FirstBeyond.unique {limit : Int} {generations : List (List Symbol)} {pass other : Nat}
    (first : FirstBeyond limit generations pass) (second : FirstBeyond limit generations other) :
    pass = other :=
  Nat.le_antisymm (first.le second) (second.le first)

theorem FirstBeyond.not_within {limit : Int} {generations : List (List Symbol)} {pass : Nat}
    (first : FirstBeyond limit generations pass) : ¬Within limit generations := by
  intro within
  rcases first.beyond with ⟨word, found, beyond⟩
  have tail_eq : generations.tail[pass - 1]? = some word := by
    rw [List.getElem?_tail, Nat.sub_add_cancel first.positive, found]
  exact absurd beyond (Int.not_lt.mpr (within word (List.mem_of_getElem? tail_eq)))

/-- Behind a word that is not too long the passes are counted on. -/
theorem FirstBeyond.cons {limit : Int} {next : List Symbol} {rest : List (List Symbol)}
    {pass : Nat} (first : FirstBeyond limit (next :: rest) pass) (fits : next.length ≤ limit)
    (word : List Symbol) : FirstBeyond limit (word :: next :: rest) (pass + 1) := by
  refine ⟨Nat.succ_pos pass, first.beyond, fun earlier other positive before found => ?_⟩
  rcases earlier with _ | _ | earlier
  · cases positive
  · cases found
    exact fits
  · exact first.within (earlier + 1) other (Nat.succ_pos earlier) (Nat.lt_of_succ_lt_succ before)
      found

section

variable {rules : RuleTable} {source : Source σ}

/-! What the first of several passes leads to. -/

theorem passesFrom_of_failed {word : List Symbol} {state after : σ} {error : RewriteError}
    (failed : rewriteOnce rules (some source) word state = .error error after)
    (limit : Option Int) (done passes : Nat) :
    passesFrom rules source limit done (passes + 1) word state =
      { generations := [word], error? := some (.rewrite error), state := after } := by
  simp only [passesFrom, failed]

theorem passesFrom_of_fits {limit : Option Int} {word next : List Symbol} {state after : σ}
    (rewritten : rewriteOnce rules (some source) word state = .ok next after)
    (fits : ∀ most ∈ limit, next.length ≤ most) (done passes : Nat) :
    passesFrom rules source limit done (passes + 1) word state =
      let rest := passesFrom rules source limit (done + 1) passes next after
      { rest with generations := word :: rest.generations } := by
  have fitting : exceeds limit next = none := by
    simpa [exceeds, Option.filter_eq_none_iff] using fits
  simp only [passesFrom, rewritten, fitting]

theorem passesFrom_of_exceeded {limit : Int} {word next : List Symbol} {state after : σ}
    (rewritten : rewriteOnce rules (some source) word state = .ok next after)
    (exceeded : limit < next.length) (done passes : Nat) :
    passesFrom rules source (some limit) done (passes + 1) word state =
      { generations := [word]
        error? := some (.expansion (.tooManySymbols limit (done + 1)))
        state := after } := by
  have exceeding : exceeds (some limit) next = some limit := by
    simp [exceeds, Option.filter, exceeded]
  simp only [passesFrom, rewritten, exceeding]

variable (rules source)

/-- Either no word is too long, or the derivation ends behind the pass that leaves the first. -/
theorem passesFrom_limited (limit : Int) (done passes : Nat) (word : List Symbol) (state : σ) :
    let free := passesFrom rules source none done passes word state
    let limited := passesFrom rules source (some limit) done passes word state
    Within limit free.generations ∧ limited = free ∨
      ∃ pass, FirstBeyond limit free.generations pass ∧
        limited =
          { generations := free.generations.take pass
            error? := some (.expansion (.tooManySymbols limit (done + pass)))
            state := (passesFrom rules source none done pass word state).state } := by
  induction passes generalizing done word state with
  | zero => exact .inl ⟨List.forall_mem_nil _, rfl⟩
  | succ passes induction =>
      cases rewritten : rewriteOnce rules (some source) word state with
      | error error after =>
          left
          simp only [passesFrom_of_failed rewritten, and_true]
          exact List.forall_mem_nil _
      | ok next after =>
          have unlimited : ∀ most ∈ (none : Option Int), (next.length : Int) ≤ most :=
            fun _ impossible => nomatch impossible
          have free_eq := passesFrom_of_fits rewritten unlimited done
          have begins :
              (passesFrom rules source none (done + 1) passes next after).generations.head? =
                some next :=
            head?_passesFrom (done + 1) passes next after
          rcases List.head?_eq_some_iff.mp begins with ⟨rest, generations_eq⟩
          by_cases exceeded : limit < next.length
          · refine .inr ⟨1, ⟨Nat.one_pos, ?_, ?_⟩, ?_⟩
            · exact ⟨next, by simp only [free_eq, generations_eq]; rfl, exceeded⟩
            · intro earlier _ positive before
              omega
            · rw [passesFrom_of_exceeded rewritten exceeded, free_eq, free_eq]
              rfl
          · have fits : (next.length : Int) ≤ limit := Int.not_lt.mp exceeded
            have fitting : ∀ most ∈ some limit, (next.length : Int) ≤ most := by simpa using fits
            have limited_eq := passesFrom_of_fits rewritten fitting done passes
            rcases induction (done + 1) next after with ⟨within, same⟩ | ⟨pass, first, cut⟩
            · left
              rw [generations_eq] at within
              simp only [limited_eq, free_eq, same, and_true]
              rw [Within, List.tail_cons, generations_eq]
              exact List.forall_mem_cons.mpr ⟨fits, within⟩
            · refine .inr ⟨pass + 1, ?_, ?_⟩
              · rw [generations_eq] at first
                simp only [free_eq, generations_eq]
                exact first.cons fits word
              · simp only [limited_eq, free_eq, cut, List.take_succ_cons]
                rw [Nat.add_assoc, Nat.add_comm 1 pass]

theorem run_limited (limit : Int) (passes : Nat) (start : List Symbol) (state : σ) :
    let free := run rules source none passes start state
    let limited := run rules source (some limit) passes start state
    Within limit free.generations ∧ limited = free ∨
      ∃ pass, FirstBeyond limit free.generations pass ∧
        limited =
          { generations := free.generations.take pass
            error? := some (.expansion (.tooManySymbols limit pass))
            state := (run rules source none pass start state).state } := by
  simp only [run_natCast]
  have split := passesFrom_limited rules source limit 0 passes start state
  simpa only [Nat.zero_add] using split

variable {rules source}

theorem run_of_negative {iterations : Int} (negative : iterations < 0) (limit : Option Int)
    (start : List Symbol) (state : σ) :
    run rules source limit iterations start state =
      { generations := []
        error? := some (.expansion (.negativeIterations iterations))
        state } := by
  rw [run, if_pos negative]

theorem run_of_uncut {limit : Option Int} {iterations : Int} {start : List Symbol} {state : σ}
    (uncut : (run rules source limit iterations start state).error? = none) :
    run rules source none iterations start state =
      run rules source limit iterations start state := by
  rcases limit with _ | limit
  · rfl
  · rcases iterations with passes | negative
    · rcases run_limited rules source limit passes start state with
        ⟨_, same⟩ | ⟨pass, _, cut⟩
      · exact same.symm
      · rw [Int.ofNat_eq_natCast, cut] at uncut
        cases uncut
    · rw [run_of_negative (Int.negSucc_lt_zero negative)] at uncut
      cases uncut

end

theorem error?_of_result {derivation : Derivation σ} {word : List Symbol}
    (result_eq : derivation.result = .ok word) : derivation.error? = none := by
  rw [result] at result_eq
  split at result_eq
  · cases result_eq
  · next ended => exact ended

end Derivation

/-- What is derived under a limit is derived without it, and from the same draws. -/
theorem expand_of_limited {rules : RuleTable} {source : Source σ} {limit : Option Int}
    {iterations : Int} {start word : List Symbol} {state : σ}
    (expanded : (expand rules source limit iterations start state).1 = .ok word) :
    expand rules source none iterations start state =
      expand rules source limit iterations start state := by
  have uncut := Derivation.error?_of_result expanded
  rw [expand, expand, Derivation.run_of_uncut uncut]

/-- With a limit a word is derived just if it is derived without one and no generation behind the
start word is too long, and then with the same draws. The first generation that is too long ends the
derivation with its number, behind the same earlier generations. A negative number of passes yields
no generation at all. -/
theorem limit_only_cuts (rules : RuleTable) (source : Source σ) (limit : Int)
    (start : List Symbol) (state : σ) :
    (∀ passes : Nat,
      let free := Derivation.run rules source none passes start state
      ((∃ word, (expand rules source (some limit) passes start state).1 = .ok word) ↔
        (∃ word, (expand rules source none passes start state).1 = .ok word) ∧
          Derivation.Within limit free.generations) ∧
      (Derivation.Within limit free.generations →
        Derivation.run rules source (some limit) passes start state = free ∧
          expand rules source (some limit) passes start state =
            expand rules source none passes start state) ∧
      ∀ pass, Derivation.FirstBeyond limit free.generations pass →
        Derivation.run rules source (some limit) passes start state =
          { generations := free.generations.take pass
            error? := some (.expansion (.tooManySymbols limit pass))
            state := (Derivation.run rules source none pass start state).state }) ∧
    ∀ (iterations : Int) (limit : Option Int), iterations < 0 →
      Derivation.run rules source limit iterations start state =
        { generations := []
          error? := some (.expansion (.negativeIterations iterations))
          state } := by
  refine ⟨fun passes => ?_, fun iterations limit negative =>
    Derivation.run_of_negative negative limit start state⟩
  rcases Derivation.run_limited rules source limit passes start state with
    ⟨within, same⟩ | ⟨pass, first, cut⟩
  · refine ⟨?_, fun _ => ⟨same, by rw [expand, expand, same]⟩, fun pass first => ?_⟩
    · rw [expand, expand, same, and_iff_left within]
    · exact absurd within first.not_within
  · refine ⟨⟨?_, ?_⟩, fun within => absurd within first.not_within, fun other second => ?_⟩
    · rintro ⟨word, expanded⟩
      rw [expand, cut] at expanded
      cases expanded
    · rintro ⟨_, within⟩
      exact absurd within first.not_within
    · rw [cut, first.unique second]

/-- The word grows to three symbols and vanishes in the next pass: a limit of two ends the derivation
behind the first pass, and one of three does not change it. -/
theorem limit_only_cuts_of_erasing :
    let start : List Symbol := [{ name := "A", parameters := [] }]
    let grown : List Symbol := .replicate 3 { name := "B", parameters := [] }
    let rules : RuleTable :=
      { productions :=
          [{ predecessor := "A"
             bindings := []
             successor := .replicate 3 { name := "B", formulas := [] }
             line := some 1 },
            { predecessor := "B", bindings := [], successor := [], line := some 2 }] }
    ∀ state : Script,
      let free := Derivation.run rules Script.source none (2 : Nat) start state
      free.generations = [start, grown, []] ∧
        Derivation.FirstBeyond 2 free.generations 1 ∧
        Derivation.run rules Script.source (some 2) (2 : Nat) start state =
          { generations := [start]
            error? := some (.expansion (.tooManySymbols 2 1))
            state } ∧
        Derivation.Within 3 free.generations ∧
        expand rules Script.source (some 3) (2 : Nat) start state = (.ok [], state) ∧
        (-1 : Int) < 0 ∧
        Derivation.run rules Script.source (some 3) (-1) start state =
          { generations := [], error? := some (.expansion (.negativeIterations (-1))), state } := by
  intro start grown rules state free
  have generations_eq : free.generations = [start, grown, []] := rfl
  have first : Derivation.FirstBeyond 2 free.generations 1 := by
    refine ⟨Nat.one_pos, ⟨grown, rfl, by decide⟩, fun earlier word positive before => ?_⟩
    omega
  have within : Derivation.Within 3 free.generations := by
    rw [generations_eq]
    exact List.forall_mem_cons.mpr ⟨by decide, List.forall_mem_singleton.mpr (by decide)⟩
  refine ⟨generations_eq, first,
    ((limit_only_cuts rules Script.source 2 start state).1 2).2.2 1 first, within, ?_, by decide,
    (limit_only_cuts rules Script.source 3 start state).2 (-1) (some 3) (by decide)⟩
  rw [(((limit_only_cuts rules Script.source 3 start state).1 2).2.1 within).2]
  rfl

end GrowthGrammar
