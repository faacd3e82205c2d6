import Scriptlet.Proofs.CheckOutcome
import Mathlib.Logic.Relation

/-! # The course of a check

A program is checked statement by statement, and what has been declared so far decides whether the
next declaration or condition can be checked at all. As for runs, the course of a check is given by
the jobs that it consists of (`Check.Starts`). A check ends with a result exactly if it comes to no
declaration and no condition that is not clean at that point
(`Check.program_returns_iff_allClean`); all that it leaves in the scopes are symbols.
-/
namespace Scriptlet.Check

/-! ## Jobs -/

/-- What a check has to do at some point. -/
inductive Job where
  /-- To check a program or block. -/
  | block (n : Node)
  /-- To check statements. -/
  | statements (i : ScopeId) (ss : List Node)
  /-- To check the branches of a conditional statement. -/
  | branches (i : ScopeId) (bs : List (Node × Node))
  /-- To check a condition. -/
  | condition (i : ScopeId) (c : Node)
  /-- To check the declaration of a variable. -/
  | declaration (i : ScopeId) (x type : String) (isMutable : Bool) (v : Node)

/-- Whether the checker has nothing to do for a statement. -/
def isPassedOver : Node → Bool
  | .declaration .. | .conditional .. => false
  | _ => true

/-- A job at some state of the check starts another one, at the state that it has come to. -/
inductive Starts : Job × CheckState → Job × CheckState → Prop
  | program {ss i s} : Starts (.block (.program ss i), s) (.statements i ss, s)
  | body {ss i s} : Starts (.block (.block ss i), s) (.statements i ss, s)
  | declared {i x t m v rest s} :
      Starts (.statements i (.declaration x t m v :: rest), s) (.declaration i x t m v, s)
  | afterDeclaration {i x t m v rest s s'}
      (h : Check.declaration i (.declaration x t m v) s = .ok () s') :
      Starts (.statements i (.declaration x t m v :: rest), s) (.statements i rest, s')
  | tried {i bs o rest s} :
      Starts (.statements i (.conditional bs o :: rest), s) (.branches i bs, s)
  | afterBranches {i bs o rest s s'} (h : Check.branches i bs s = .ok () s') :
      Starts (.statements i (.conditional bs o :: rest), s) (.statements i rest, s')
  | passedOver {i n rest s} (h : isPassedOver n = true) :
      Starts (.statements i (n :: rest), s) (.statements i rest, s)
  | tested {i c b rest s} : Starts (.branches i ((c, b) :: rest), s) (.condition i c, s)
  | branch {i c b rest s s'} (h : Check.condition i c s = .ok () s') :
      Starts (.branches i ((c, b) :: rest), s) (.block b, s')
  | otherBranches {i c b rest s s' s''} (h : Check.condition i c s = .ok () s')
      (hb : Check.program b s' = .ok () s'') :
      Starts (.branches i ((c, b) :: rest), s) (.branches i rest, s'')

/-- Whether a condition or declaration can be checked at the state that the check has come to. -/
def Job.isClean (s : CheckState) : Job → Bool
  | .condition i c => c.isPlaced && truthClean (typeSeen s.scopes i) c
  | .declaration i _ type _ v => initialClean (typeSeen s.scopes i) type v
  | _ => true

/-- All that the job leads to is clean. -/
def AllClean (q : Job × CheckState) : Prop :=
  ∀ job s, Relation.ReflTransGen Starts q (job, s) → job.isClean s = true

theorem allClean_iff {job : Job} {s : CheckState} :
    AllClean (job, s) ↔ job.isClean s = true ∧ ∀ q, Starts (job, s) q → AllClean q := by
  constructor
  · intro h
    exact ⟨h job s .refl, fun q hq job' s' hreach => h job' s' (.head hq hreach)⟩
  · rintro ⟨hjob, hnext⟩ job' s' hreach
    rcases Relation.ReflTransGen.cases_head hreach with heq | ⟨q, hq, hreach⟩
    · cases heq
      exact hjob
    · exact hnext q hq job' s' hreach

/-! ## How statements end -/

/-- From `s`, the check ends with a result, and with symbols in the scopes, if it is `clean`, and
else with a slip. -/
def Concludes (x : Check Unit) (s : CheckState) (clean : Prop) : Prop :=
  (clean → ∃ s', x s = .ok () s' ∧ s'.scopes.HoldsSymbols) ∧
  (¬clean → ∃ f s', x s = .error f s' ∧ f.isSlip = true)

variable {x y : Check Unit} {s : CheckState} {c : Prop}

theorem Ends.concludes {Q : Unit → Prop} (h : Ends s.scopes x c Q) (hs : s.scopes.HoldsSymbols) :
    Concludes x s c := by
  refine ⟨fun hc => ?_, (h s rfl).2⟩
  obtain ⟨⟨⟩, s', hx, hs', -⟩ := (h s rfl).1 hc
  exact ⟨s', hx, hs' ▸ hs⟩

/-- One check after the other: the second one has to be clean where the first one ends. -/
theorem Concludes.bind {e : CheckState → Prop} (hx : Concludes x s c)
    (hy : ∀ s', x s = .ok () s' → s'.scopes.HoldsSymbols → Concludes y s' (e s')) :
    Concludes (x >>= fun _ => y) s (c ∧ ∀ s', x s = .ok () s' → e s') := by
  by_cases hc : c
  · obtain ⟨s', hs', hsymbols⟩ := hx.1 hc
    have hsame : (c ∧ ∀ t, x s = .ok () t → e t) ↔ e s' := by
      refine ⟨fun h => h.2 s' hs', fun h => ⟨hc, fun t ht => ?_⟩⟩
      cases hs'.symm.trans ht
      exact h
    rw [hsame, Concludes, EStateM.bind_of_ok hs']
    exact hy s' hs' hsymbols
  · obtain ⟨f, s', hf, hslip⟩ := hx.2 hc
    rw [Concludes, EStateM.bind_of_error hf]
    exact ⟨fun h => absurd h.1 hc, fun _ => ⟨f, s', rfl, hslip⟩⟩

theorem declaration_eq {i : ScopeId} {name type : String} {isMutable : Bool} {v : Node}
    (htype : isChecked type) : declaration i (.declaration name type isMutable v) = (do
      let fits ← initial i type v
      if fits then define i name (.symbol ⟨type, isMutable, isEmpty v⟩) : Check Unit) := by
  rcases htype with rfl | rfl | rfl <;> rfl

theorem declaration_of_unchecked {i : ScopeId} {name type : String} {isMutable : Bool} {v : Node}
    (htype : ¬isChecked type) :
    declaration i (.declaration name type isMutable v) = (pure () : Check Unit) := by
  rw [isChecked] at htype
  show (if _ then _ else _ : Check Unit) = _
  rw [if_neg htype]

/-- A declaration records a symbol at most. -/
theorem concludes_declaration {i : ScopeId} {name type : String} {isMutable : Bool} {v : Node}
    (hs : s.scopes.HoldsSymbols) (hv : v.IsOperand) (hplaced : v.isPlaced = true) :
    Concludes (declaration i (.declaration name type isMutable v)) s
      (initialClean (typeSeen s.scopes i) type v = true) := by
  by_cases htype : isChecked type
  · rw [Concludes, declaration_eq htype]
    obtain ⟨hclean, hslip⟩ := ends_initial (i := i) hs htype hv hplaced s rfl
    refine ⟨fun h => ?_, fun h => ?_⟩
    · obtain ⟨fits, s', hfits, hs', -⟩ := hclean h
      rw [EStateM.bind_of_ok hfits]
      have hsymbols : s'.scopes.HoldsSymbols := hs' ▸ hs
      cases fits with
      | true => exact ⟨_, rfl, hsymbols.define i name _⟩
      | false => exact ⟨s', rfl, hsymbols⟩
    · obtain ⟨f, s', hf, hslips⟩ := hslip h
      exact ⟨f, s', EStateM.bind_of_error hf, hslips⟩
  · rw [Concludes, declaration_of_unchecked htype]
    have hclean : initialClean (typeSeen s.scopes i) type v = true := by
      rw [isChecked, not_or, not_or] at htype
      simp [initialClean, htype]
    exact ⟨fun _ => ⟨s, rfl, hs⟩, fun h => absurd hclean h⟩

theorem statements_of_passedOver {n : Node} (h : isPassedOver n = true) (i : ScopeId)
    (rest : List Node) : statements i (n :: rest) = statements i rest := by
  cases n with
  | declaration | conditional => cases h
  | _ =>
    rw [statements]
    all_goals exact nofun

/-! ## What the jobs of a check ask for -/

section clean

variable {i : ScopeId} {v b : Node} {x t : String} {m : Bool} {rest : List Node}

theorem allClean_declaration :
    AllClean (.statements i (.declaration x t m v :: rest), s) ↔
      initialClean (typeSeen s.scopes i) t v = true ∧
        ∀ s', declaration i (.declaration x t m v) s = .ok () s' →
          AllClean (.statements i rest, s') := by
  rw [allClean_iff]
  constructor
  · rintro ⟨-, hnext⟩
    exact ⟨(allClean_iff.mp (hnext _ .declared)).1, fun s' hs' => hnext _ (.afterDeclaration hs')⟩
  · rintro ⟨hclean, hrest⟩
    refine ⟨rfl, fun q hq => ?_⟩
    cases hq with
    | declared => exact allClean_iff.mpr ⟨hclean, nofun⟩
    | afterDeclaration hs' => exact hrest _ hs'
    | passedOver h => cases h

theorem allClean_conditional {bs : List (Node × Node)} {o : Node} :
    AllClean (.statements i (.conditional bs o :: rest), s) ↔
      AllClean (.branches i bs, s) ∧
        ∀ s', branches i bs s = .ok () s' → AllClean (.statements i rest, s') := by
  rw [allClean_iff]
  constructor
  · rintro ⟨-, hnext⟩
    exact ⟨hnext _ .tried, fun s' hs' => hnext _ (.afterBranches hs')⟩
  · rintro ⟨hbs, hrest⟩
    refine ⟨rfl, fun q hq => ?_⟩
    cases hq with
    | tried => exact hbs
    | afterBranches hs' => exact hrest _ hs'
    | passedOver h => cases h

/-- A job that is clean and starts only one other. -/
theorem allClean_iff_of_only {job : Job} {q : Job × CheckState} (hjob : job.isClean s = true)
    (h : ∀ q', Starts (job, s) q' ↔ q' = q) : AllClean (job, s) ↔ AllClean q := by
  rw [allClean_iff]
  constructor
  · rintro ⟨-, hnext⟩
    exact hnext q ((h q).mpr rfl)
  · intro hq
    refine ⟨hjob, fun q' hq' => ?_⟩
    cases (h q').mp hq'
    exact hq

theorem allClean_passedOver {n : Node} (hn : isPassedOver n = true) :
    AllClean (.statements i (n :: rest), s) ↔ AllClean (.statements i rest, s) := by
  refine allClean_iff_of_only rfl fun q => ⟨fun hq => ?_, fun hq => hq ▸ .passedOver hn⟩
  cases hq with
  | declared | afterDeclaration | tried | afterBranches => cases hn
  | passedOver => rfl

theorem allClean_block {ss : List Node} :
    AllClean (.block (.block ss i), s) ↔ AllClean (.statements i ss, s) := by
  refine allClean_iff_of_only rfl fun q => ⟨fun hq => ?_, fun hq => hq ▸ .body⟩
  cases hq
  rfl

theorem allClean_program {ss : List Node} :
    AllClean (.block (.program ss i), s) ↔ AllClean (.statements i ss, s) := by
  refine allClean_iff_of_only rfl fun q => ⟨fun hq => ?_, fun hq => hq ▸ .program⟩
  cases hq
  rfl

theorem allClean_branches {c : Node} {bs : List (Node × Node)} :
    AllClean (.branches i ((c, b) :: bs), s) ↔
      (c.isPlaced && truthClean (typeSeen s.scopes i) c) = true ∧
        ∀ s', condition i c s = .ok () s' →
          AllClean (.block b, s') ∧
            ∀ s'', program b s' = .ok () s'' → AllClean (.branches i bs, s'') := by
  rw [allClean_iff]
  constructor
  · rintro ⟨-, hnext⟩
    exact ⟨(allClean_iff.mp (hnext _ .tested)).1, fun s' hs' =>
      ⟨hnext _ (.branch hs'), fun s'' hs'' => hnext _ (.otherBranches hs' hs'')⟩⟩
  · rintro ⟨hclean, hrest⟩
    refine ⟨rfl, fun q hq => ?_⟩
    cases hq with
    | tested => exact allClean_iff.mpr ⟨hclean, nofun⟩
    | branch hs' => exact (hrest _ hs').1
    | otherBranches hs' hs'' => exact (hrest _ hs').2 _ hs''

end clean

variable {k : Nat}

mutual

/-- A block can be checked exactly if all that its check leads to is clean. -/
theorem concludes_program : ∀ {n : Node}, n.IsBlock k → ∀ s : CheckState, s.scopes.HoldsSymbols →
    Concludes (program n) s (AllClean (.block n, s))
  | .block ss i, ⟨_, hss⟩, s, hs => by
    rw [program, allClean_block]
    exact concludes_statements hss s hs

theorem concludes_statements {i : ScopeId} :
    ∀ {ss : List Node}, Node.AreStatements k ss → ∀ s : CheckState, s.scopes.HoldsSymbols →
      Concludes (statements i ss) s (AllClean (.statements i ss, s))
  | [], _, s, hs => by
    have hclean : AllClean (.statements i [], s) := allClean_iff.mpr ⟨rfl, nofun⟩
    exact ⟨fun _ => ⟨s, rfl, hs⟩, fun h => absurd hclean h⟩
  | .declaration x t m v :: rest, ⟨⟨hplaced, hv⟩, hrest⟩, s, hs => by
    rw [statements, allClean_declaration]
    exact (concludes_declaration hs hv hplaced).bind fun s' _ hs' =>
      concludes_statements hrest s' hs'
  | .conditional bs o :: rest, ⟨⟨hbs, _⟩, hrest⟩, s, hs => by
    rw [statements, allClean_conditional]
    exact (concludes_branches hbs s hs).bind fun s' _ hs' => concludes_statements hrest s' hs'
  | .assignment .. :: rest, ⟨_, hrest⟩, s, hs | .call .. :: rest, ⟨_, hrest⟩, s, hs
  | .breakLoop :: rest, ⟨_, hrest⟩, s, hs | .continueLoop :: rest, ⟨_, hrest⟩, s, hs
  | .loop .. :: rest, ⟨_, hrest⟩, s, hs => by
    rw [statements_of_passedOver rfl, allClean_passedOver rfl]
    exact concludes_statements hrest s hs

theorem concludes_branches {i : ScopeId} :
    ∀ {bs : List (Node × Node)}, Node.AreBranches k bs → ∀ s : CheckState, s.scopes.HoldsSymbols →
      Concludes (branches i bs) s (AllClean (.branches i bs, s))
  | [], _, s, hs => by
    have hclean : AllClean (.branches i [], s) := allClean_iff.mpr ⟨rfl, nofun⟩
    exact ⟨fun _ => ⟨s, rfl, hs⟩, fun h => absurd hclean h⟩
  | (c, b) :: rest, ⟨hc, hb, hrest⟩, s, hs => by
    rw [branches, allClean_branches]
    refine ((ends_condition hs hc).concludes hs).bind fun s' _ hs' => ?_
    exact (concludes_program hb s' hs').bind fun s'' _ hs'' => concludes_branches hrest s'' hs''

end

/-! ## Programs -/

theorem holdsSymbols_of_isFresh {σ : Scopes} (h : σ.IsFresh) : σ.HoldsSymbols := by
  intro i x v hv
  rw [h.bindings_eq_nil i] at hv
  cases hv

/-- A program that was read without a mistake can be checked exactly if all that its check leads to
is clean. -/
theorem concludes_of_isParsed {n : Node} {σ : Scopes} (hn : IsParsed n σ) :
    Concludes (program n) ⟨σ, []⟩ (AllClean (.block n, ⟨σ, []⟩)) := by
  obtain ⟨ss, rfl, hss, hσ⟩ := hn.exists_statements
  rw [program, allClean_program]
  exact concludes_statements hss ⟨σ, []⟩ (holdsSymbols_of_isFresh hσ)

/-- All that a check leaves in the scopes are symbols. -/
theorem holdsSymbols_of_isParsed {n : Node} {σ : Scopes} (hn : IsParsed n σ) {s : CheckState}
    (hs : program n ⟨σ, []⟩ = .ok () s) : s.scopes.HoldsSymbols := by
  obtain ⟨hclean, hslip⟩ := concludes_of_isParsed hn
  by_cases h : AllClean (.block n, ⟨σ, []⟩)
  · obtain ⟨t, ht, hsymbols⟩ := hclean h
    cases hs.symm.trans ht
    exact hsymbols
  · obtain ⟨f, t, hf, -⟩ := hslip h
    cases hs.symm.trans hf

/-- **When the checker gets through.** The check of a program that was read without a mistake
returns, whatever it reports, exactly if every declaration and every condition that it comes to is
clean, given the types that have been recorded by then. If it does not return, then it has asked for
a part that is missing, or used a type that it has not found out. -/
theorem program_returns_iff_allClean {n : Node} {σ : Scopes} (hn : IsParsed n σ) :
    ((∃ s, program n ⟨σ, []⟩ = .ok () s) ↔
      ∀ job s, Relation.ReflTransGen Starts (.block n, ⟨σ, []⟩) (job, s) → job.isClean s = true) ∧
    ∀ f s, program n ⟨σ, []⟩ = .error f s → f.isSlip = true := by
  obtain ⟨hclean, hslip⟩ := concludes_of_isParsed hn
  refine ⟨⟨fun hreturns => ?_, fun h => ?_⟩, fun f s hf => ?_⟩
  · obtain ⟨s, hs⟩ := hreturns
    refine Classical.byContradiction fun h => ?_
    obtain ⟨f, t, hf, -⟩ := hslip h
    cases hs.symm.trans hf
  · obtain ⟨s, hs, -⟩ := hclean h
    exact ⟨s, hs⟩
  · by_cases h : AllClean (.block n, ⟨σ, []⟩)
    · obtain ⟨t, ht, -⟩ := hclean h
      cases ht.symm.trans hf
    · obtain ⟨g, t, hg, hslips⟩ := hslip h
      cases hg.symm.trans hf
      exact hslips

/-- The outcome of the check of a source text, if it was read without a mistake. -/
def outcomeOf? (source : String) : Option (EStateM.Result Fault CheckState Unit) :=
  ((Reading.ofSource false [] source).program? false).map fun (n, σ) => program n ⟨σ, []⟩

/-- The checker gets through a declaration, and through a comparison of the variable that it has
recorded. -/
theorem sumComparison_returns :
    ∃ n σ s, IsParsed n σ ∧ program n ⟨σ, []⟩ = .ok () s ∧
      ∀ job s, Relation.ReflTransGen Starts (.block n, ⟨σ, []⟩) (job, s) →
        job.isClean s = true := by
  have hcheck : (outcomeOf? "var int x = 2 * 3 + 1\nif x == 7 \x7b\nx = 1\n\x7d\n").map fault? =
      some none := by
    decide +kernel
  rw [outcomeOf?, Option.map_map, Option.map_eq_some_iff] at hcheck
  obtain ⟨⟨n, σ⟩, hread, hfault⟩ := hcheck
  replace hfault : fault? (program n ⟨σ, []⟩) = none := hfault
  have hn : IsParsed n σ := isParsed_of_source hread
  cases hs : program n ⟨σ, []⟩ with
  | ok u s => exact ⟨n, σ, s, hn, hs, (program_returns_iff_allClean hn).1.mp ⟨s, hs⟩⟩
  | error f s =>
    rw [hs] at hfault
    cases hfault

/-- The product on the right is not looked at: in its place, the number on the left is checked as an
operation, and has no left side. -/
theorem sumOfProduct_stumbles :
    (outcomeOf? "var int x = 1 + 2 * 3\n").map fault? =
      some (some (.missingField "IntNode" "left")) := by
  decide +kernel

end Scriptlet.Check
