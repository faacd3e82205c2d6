import Scriptlet.Proofs.ChecksAlike

/-! # What the checker looks at

The checker goes into the blocks behind conditions, and into the blocks behind the conditions in
them. There it finds every declaration whose value is a literal of another type, and reports it
where the literal stands. It goes into no other block: what stands behind `else`, in the body of a
loop, or in any block inside of these could as well not be there.
-/
namespace Scriptlet.Check

variable {α : Type}

/-! ## Reports are only added -/

theorem relates_eq : Relates (· = ·) (fun _ => True) where
  read := by
    rintro x σ _ - rfl i
    rfl
  define := by
    rintro x σ _ - rfl i v
    rfl

/-- A check that never looks at the reports only adds to them. -/
theorem reports_prefix_of_alike {x : Check α} (hx : ∀ earlier, Alike (· = ·) earlier x) {a : α}
    {s s' : CheckState} (h : x s = .ok a s') : s.reports <+: s'.reports := by
  have hbeside : Beside (· = ·) s.reports ⟨s.scopes, []⟩ s := ⟨rfl, (List.append_nil _).symm⟩
  obtain ⟨t, -, ht⟩ := (hx s.reports hbeside).exists_ok h
  exact ⟨t.reports, ht.reports.symm⟩

theorem reports_prefix_statements {i : ScopeId} {ss : List Node} {s s' : CheckState}
    (h : statements i ss s = .ok () s') : s.reports <+: s'.reports :=
  reports_prefix_of_alike (fun _ => alike_statements relates_eq ss fun _ _ => trivial) h

theorem reports_prefix_branches {i : ScopeId} {bs : List (Node × Node)} {s s' : CheckState}
    (h : branches i bs s = .ok () s') : s.reports <+: s'.reports :=
  reports_prefix_of_alike (fun _ => alike_branches relates_eq bs fun _ _ => trivial) h

/-! ## One statement and one branch after the other -/

/-- Checks one statement. -/
def one (i : ScopeId) : Node → Check Unit
  | .conditional bs _ => branches i bs
  | .declaration x type isMutable v => declaration i (.declaration x type isMutable v)
  | _ => return

theorem statements_cons (i : ScopeId) (n : Node) (rest : List Node) :
    statements i (n :: rest) = (do one i n; statements i rest : Check Unit) := by
  by_cases hn : isPassedOver n = true
  · rw [statements_of_passedOver hn]
    cases n with
    | declaration | conditional => cases hn
    | _ => rfl
  · cases n with
    | declaration | conditional => rw [statements, one]
    | _ => exact absurd rfl hn

theorem statements_append (i : ScopeId) (ss ts : List Node) :
    statements i (ss ++ ts) = (do statements i ss; statements i ts : Check Unit) := by
  induction ss with
  | nil => rfl
  | cons n ss ih => rw [List.cons_append, statements_cons, statements_cons, ih, bind_assoc]

/-- Statements that are checked to the end were each checked, and nothing that was reported by then
is lost. -/
theorem exists_one_of_statements {i : ScopeId} {n : Node} {ss : List Node} {s s' : CheckState}
    (hn : n ∈ ss) (h : statements i ss s = .ok () s') :
    ∃ t t', one i n t = .ok () t' ∧ t'.reports <+: s'.reports := by
  obtain ⟨before, behind, rfl⟩ := List.append_of_mem hn
  rw [statements_append, statements_cons] at h
  obtain ⟨⟨⟩, t, -, hrest⟩ := EStateM.bind_eq_ok.mp h
  obtain ⟨⟨⟩, t', hone, hbehind⟩ := EStateM.bind_eq_ok.mp hrest
  exact ⟨t, t', hone, reports_prefix_statements hbehind⟩

/-- The same for the blocks of branches. -/
theorem exists_block_of_branches {i : ScopeId} {c b : Node} :
    ∀ {bs : List (Node × Node)} {s s' : CheckState}, (c, b) ∈ bs → branches i bs s = .ok () s' →
      ∃ t t', program b t = .ok () t' ∧ t'.reports <+: s'.reports
  | (c', b') :: rest, s, s', hmem, h => by
    rw [branches] at h
    obtain ⟨⟨⟩, t, -, hblocks⟩ := EStateM.bind_eq_ok.mp h
    obtain ⟨⟨⟩, t', hblock, hrest⟩ := EStateM.bind_eq_ok.mp hblocks
    rcases List.mem_cons.mp hmem with heq | hmem
    · cases heq
      exact ⟨t, t', hblock, reports_prefix_branches hrest⟩
    · exact exists_block_of_branches hmem hrest

/-! ## Declarations of literals -/

/-- A literal of another type is reported where it stands. -/
theorem reported_of_declaration {i : ScopeId} {x type : String} {isMutable : Bool}
    {kind : LiteralKind} {v : Value} {p : Pos} {s s' : CheckState} (htype : isChecked type)
    (hkind : kind.typeName? ≠ some type)
    (h : declaration i (.declaration x type isMutable (.literal kind v p)) s = .ok () s') :
    ∃ label, .typing (.initialExpression type label) p ∈ s'.reports := by
  have hother : initial i type (.literal kind v p) = initialOther type (.literal kind v p) := by
    rcases htype with rfl | rfl | rfl <;> cases kind <;> first | rfl | exact absurd rfl hkind
  rw [declaration_eq htype, hother, initialOther] at h
  cases kind with
  | plain => cases h
  | int | float | string | bool =>
    cases h
    exact ⟨_, List.mem_append_right _ (List.mem_singleton_self _)⟩

/-! ## What is looked at -/

/-- The statement is among those given, or in a block behind a condition among them, or in a block
behind a condition there, and so on. -/
inductive LooksAt (n : Node) : List Node → Prop
  | here {ss} (h : n ∈ ss) : LooksAt n ss
  | inBranch {ss bs o c body i} (hs : .conditional bs o ∈ ss) (hb : (c, .block body i) ∈ bs)
      (h : LooksAt n body) : LooksAt n ss

/-- A literal of another type is reported wherever the checker looks at its declaration. -/
theorem LooksAt.reported {ss : List Node} {x type : String} {isMutable : Bool}
    {kind : LiteralKind} {v : Value} {p : Pos} (htype : isChecked type)
    (hkind : kind.typeName? ≠ some type)
    (hlooks : LooksAt (.declaration x type isMutable (.literal kind v p)) ss) :
    ∀ {i : ScopeId} {s s' : CheckState}, statements i ss s = .ok () s' →
      ∃ label, .typing (.initialExpression type label) p ∈ s'.reports := by
  induction hlooks with
  | here hmem =>
    intro i s s' h
    obtain ⟨t, t', hone, hkept⟩ := exists_one_of_statements hmem h
    obtain ⟨label, hlabel⟩ := reported_of_declaration htype hkind hone
    exact ⟨label, hkept.subset hlabel⟩
  | inBranch hs hb _ ih =>
    intro i s s' h
    -- the block is checked at some point, and what is reported there is not lost behind it
    obtain ⟨t, t', hone, hkept⟩ := exists_one_of_statements hs h
    obtain ⟨u, u', hblock, hkept'⟩ := exists_block_of_branches hb hone
    rw [program] at hblock
    obtain ⟨label, hlabel⟩ := ih hblock
    exact ⟨label, hkept.subset (hkept'.subset hlabel)⟩

mutual

/-- A node without what the checker does not look at. -/
def seenPart : Node → Node
  | .block ss i => .block (seenStatements ss) i
  | .program ss i => .program (seenStatements ss) i
  | n => n

/-- The declarations among the statements, and the conditional statements without their last parts.
-/
def seenStatements : List Node → List Node
  | [] => []
  | .conditional bs _ :: rest =>
    .conditional (seenBranches bs) (.empty ⟨0, 0⟩) :: seenStatements rest
  | .declaration x type isMutable v :: rest =>
    .declaration x type isMutable v :: seenStatements rest
  | _ :: rest => seenStatements rest

/-- The conditions, with what is looked at of their blocks. -/
def seenBranches : List (Node × Node) → List (Node × Node)
  | [] => []
  | (c, b) :: rest => (c, seenPart b) :: seenBranches rest

end

mutual

/-- The check of a node is that of its part that is looked at. -/
theorem program_seenPart : ∀ n : Node, program (seenPart n) = program n
  | .block ss i | .program ss i => by
    rw [seenPart, program, program, statements_seenStatements]
  | .empty _ | .literal .. | .identifier .. | .signed .. | .negation _ | .logic .. | .comparison ..
  | .arithmetic .. | .assignment .. | .declaration .. | .call .. | .otherwise _ | .conditional ..
  | .loop .. | .breakLoop | .continueLoop | .bare | .raw _ => rfl

theorem statements_seenStatements (i : ScopeId) :
    ∀ ss : List Node, statements i (seenStatements ss) = statements i ss
  | [] => rfl
  | .conditional bs o :: rest => by
    rw [seenStatements, statements, statements, branches_seenBranches, statements_seenStatements]
  | .declaration x type isMutable v :: rest => by
    rw [seenStatements, statements, statements, statements_seenStatements]
  | .empty _ :: rest | .literal .. :: rest | .identifier .. :: rest | .signed .. :: rest
  | .negation _ :: rest | .logic .. :: rest | .comparison .. :: rest | .arithmetic .. :: rest
  | .assignment .. :: rest | .call .. :: rest | .otherwise _ :: rest | .loop .. :: rest
  | .block .. :: rest | .program .. :: rest | .breakLoop :: rest | .continueLoop :: rest
  | .bare :: rest | .raw _ :: rest => by
    rw [statements_of_passedOver rfl]
    exact statements_seenStatements i rest

theorem branches_seenBranches (i : ScopeId) :
    ∀ bs : List (Node × Node), branches i (seenBranches bs) = branches i bs
  | [] => rfl
  | (c, b) :: rest => by
    rw [seenBranches, branches, branches, program_seenPart, branches_seenBranches]

end

/-! ## Declarations anywhere -/

/-- The statement is among those given, or in any block among them, or in any block there, and so
on. -/
inductive StandsIn (n : Node) : List Node → Prop
  | here {ss} (h : n ∈ ss) : StandsIn n ss
  | inBranch {ss bs o c body i} (hs : .conditional bs o ∈ ss) (hb : (c, .block body i) ∈ bs)
      (h : StandsIn n body) : StandsIn n ss
  | inLastPart {ss bs body i} (hs : .conditional bs (.otherwise (.block body i)) ∈ ss)
      (h : StandsIn n body) : StandsIn n ss
  | inLoop {ss c body i} (hs : .loop c (.block body i) ∈ ss) (h : StandsIn n body) : StandsIn n ss

theorem mem_seenStatements {n : Node} {ss : List Node} : n ∈ seenStatements ss ↔
    (∃ x type isMutable v, n = .declaration x type isMutable v ∧ n ∈ ss) ∨
      ∃ bs o, n = .conditional (seenBranches bs) (.empty ⟨0, 0⟩) ∧ .conditional bs o ∈ ss := by
  induction ss with
  | nil => simp [seenStatements]
  | cons s ss ih => cases s <;> simp only [seenStatements, List.mem_cons, ih] <;> grind

theorem mem_seenBranches {c b : Node} : ∀ {bs : List (Node × Node)},
    (c, b) ∈ seenBranches bs ↔ ∃ b', b = seenPart b' ∧ (c, b') ∈ bs
  | [] => by simp [seenBranches]
  | (c', b') :: rest => by
    simp only [seenBranches, List.mem_cons, mem_seenBranches, Prod.mk.injEq]
    grind

theorem seenPart_eq_block {n : Node} {body : List Node} {i : ScopeId}
    (h : seenPart n = .block body i) : ∃ ss, n = .block ss i ∧ body = seenStatements ss := by
  cases n <;> cases h
  exact ⟨_, rfl, rfl⟩

/-- What is left of the statements holds exactly the declarations that are looked at. -/
theorem standsIn_seenStatements {ss : List Node} {x type : String} {isMutable : Bool} {v : Node} :
    StandsIn (.declaration x type isMutable v) (seenStatements ss) ↔
      LooksAt (.declaration x type isMutable v) ss := by
  constructor
  · intro h
    generalize hts : seenStatements ss = ts at h
    induction h generalizing ss with
    | here hmem =>
      subst hts
      rcases mem_seenStatements.mp hmem with ⟨_, _, _, _, -, hmem⟩ | ⟨_, _, hne, -⟩
      · exact .here hmem
      · cases hne
    | inBranch hs hb _ ih =>
      subst hts
      rcases mem_seenStatements.mp hs with ⟨_, _, _, _, hne, -⟩ | ⟨bs, o, heq, hmem⟩
      · cases hne
      · cases heq
        obtain ⟨b, hblock, hbranch⟩ := mem_seenBranches.mp hb
        obtain ⟨body, rfl, rfl⟩ := seenPart_eq_block hblock.symm
        exact .inBranch hmem hbranch (ih rfl)
    -- what is left has no last parts and no loops
    | inLastPart hs _ _ =>
      subst hts
      rcases mem_seenStatements.mp hs with ⟨_, _, _, _, hne, -⟩ | ⟨_, _, hne, -⟩ <;> cases hne
    | inLoop hs _ _ =>
      subst hts
      rcases mem_seenStatements.mp hs with ⟨_, _, _, _, hne, -⟩ | ⟨_, _, hne, -⟩ <;> cases hne
  · intro h
    induction h with
    | here hmem => exact .here (mem_seenStatements.mpr (.inl ⟨_, _, _, _, rfl, hmem⟩))
    | inBranch hs hb _ ih =>
      exact .inBranch (mem_seenStatements.mpr (.inr ⟨_, _, rfl, hs⟩))
        (mem_seenBranches.mpr ⟨_, by rw [seenPart], hb⟩) ih

/-! ## Programs -/

/-- **Where the checker finds a literal of another type.** Of every declaration that the checker
comes to through blocks behind conditions alone, it reports a literal of another type, at the place
of the literal. These declarations are all that is left of the program without its loops and last
parts of conditional statements, and without these the check does the very same. -/
theorem program_reports_literals_behind_conditions (ss : List Node) (i : ScopeId) :
    (∀ {x type isMutable kind v p} {σ : Scopes} {s : CheckState}, isChecked type →
      kind.typeName? ≠ some type →
      LooksAt (.declaration x type isMutable (.literal kind v p)) ss →
      program (.program ss i) ⟨σ, []⟩ = .ok () s →
        ∃ label, .typing (.initialExpression type label) p ∈ s.reports) ∧
    (∀ {x type isMutable v}, StandsIn (.declaration x type isMutable v) (seenStatements ss) ↔
      LooksAt (.declaration x type isMutable v) ss) ∧
    program (.program (seenStatements ss) i) = program (.program ss i) := by
  refine ⟨?_, standsIn_seenStatements, program_seenPart (.program ss i)⟩
  intro x type isMutable kind v p σ s htype hkind hlooks h
  rw [program] at h
  exact hlooks.reported htype hkind h

/-- `var int x = true` -/
def truthForNumber (p : Pos) : Node :=
  .declaration "x" "int" true (.literal .bool (.bool true) p)

/-- `true` -/
def always : Node :=
  .literal .bool (.bool true) ⟨1, 7⟩

set_option maxRecDepth 20000 in
/-- In a block behind a condition, a truth value for a number is reported where it stands. -/
theorem truthForNumber_reported_behind_condition :
    ∃ n σ s, IsParsed n σ ∧ program n ⟨σ, []⟩ = .ok () s ∧
      ∃ label, .typing (.initialExpression "int" label) ⟨2, 16⟩ ∈ s.reports := by
  let body : List Node := [truthForNumber ⟨2, 16⟩]
  let ss : List Node := [.conditional [(always, .block body 1)] (.empty ⟨3, 0⟩)]
  let σ : Scopes := ⟨#[{}, { parent := some Scopes.root }]⟩
  have hread : (Reading.ofSource false []
      "if true \x7b\nvar int x = true\n\x7d\n").program? false =
        some (.program ss Scopes.root, σ) := by
    with_unfolding_all rfl
  have hcheck : program (.program ss Scopes.root) ⟨σ, []⟩ =
      .ok () ⟨σ, [.typing (.initialExpression "int" "boolean value") ⟨2, 16⟩]⟩ := by
    with_unfolding_all rfl
  have hlooks : LooksAt (truthForNumber ⟨2, 16⟩) ss :=
    .inBranch (List.mem_singleton_self _) (List.mem_singleton_self _)
      (.here (List.mem_singleton_self _))
  exact ⟨_, σ, _, isParsed_of_source hread, hcheck,
    (program_reports_literals_behind_conditions ss Scopes.root).1 (.inl rfl) (by decide) hlooks
      hcheck⟩

set_option maxRecDepth 20000 in
/-- Behind `else` the same declaration is not looked at: the check returns without a report. -/
theorem truthForNumber_unreported_behind_else :
    ∃ ss σ, IsParsed (.program ss Scopes.root) σ ∧ StandsIn (truthForNumber ⟨3, 16⟩) ss ∧
      program (.program ss Scopes.root) ⟨σ, []⟩ = .ok () ⟨σ, []⟩ := by
  let ss : List Node :=
    [.conditional [(always, .block [] 1)] (.otherwise (.block [truthForNumber ⟨3, 16⟩] 2))]
  let σ : Scopes := ⟨#[{}, { parent := some Scopes.root }, { parent := some Scopes.root }]⟩
  have hread : (Reading.ofSource false []
      "if true \x7b\n\x7d else \x7b\nvar int x = true\n\x7d\n").program? false =
        some (.program ss Scopes.root, σ) := by
    with_unfolding_all rfl
  have hcheck : program (.program ss Scopes.root) ⟨σ, []⟩ = .ok () ⟨σ, []⟩ := by
    with_unfolding_all rfl
  exact ⟨ss, σ, isParsed_of_source hread,
    .inLastPart (List.mem_singleton_self _) (.here (List.mem_singleton_self _)), hcheck⟩

end Scriptlet.Check
