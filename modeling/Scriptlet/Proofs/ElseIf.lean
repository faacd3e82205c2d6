import Scriptlet.Proofs.FlatStore
import Scriptlet.Proofs.SideBySide

/-! # Branches inside `else`

A conditional statement with several branches is one with a single branch, if the others are put
into a conditional statement behind `else`. A block for that one comes with a scope of its own, but
then nothing is ever bound there.

One such replacement, anywhere in a program, is a step (`NestsElse`). It leaves a tree whose blocks
all have scopes, as a tree has that was read (`IsScoped`), so that steps can follow each other; and
the interpreter without scopes does the same before and behind it (`Flat.one_of_nests`).
-/
namespace Scriptlet

/-! ## Moving branches into `else` -/

/-- A statement that stands in the scope `i` is changed at one place. Of a conditional statement
with more than one branch, in the scope `p`, the first branch is left, and the others go into a
conditional statement behind `else`. The block around that one has the scope `k`. -/
inductive Node.Nests (k p : ScopeId) : ScopeId → Node → Node → Prop
  | here {c b c' b' o : Node} {bs : List (Node × Node)} :
      Nests k p p (.conditional ((c, b) :: (c', b') :: bs) o)
        (.conditional [(c, b)] (.otherwise (.block [.conditional ((c', b') :: bs) o] k)))
  | inBranch {i j : ScopeId} {c o s s' : Node} {ss ts : List Node} {bs bs' : List (Node × Node)}
      (h : Nests k p j s s') :
      Nests k p i (.conditional (bs ++ (c, .block (ss ++ s :: ts) j) :: bs') o)
        (.conditional (bs ++ (c, .block (ss ++ s' :: ts) j) :: bs') o)
  | inElse {i j : ScopeId} {s s' : Node} {ss ts : List Node} {bs : List (Node × Node)}
      (h : Nests k p j s s') :
      Nests k p i (.conditional bs (.otherwise (.block (ss ++ s :: ts) j)))
        (.conditional bs (.otherwise (.block (ss ++ s' :: ts) j)))
  | inLoop {i j : ScopeId} {c s s' : Node} {ss ts : List Node} (h : Nests k p j s s') :
      Nests k p i (.loop c (.block (ss ++ s :: ts) j)) (.loop c (.block (ss ++ s' :: ts) j))

/-- A program with its scopes is changed at one place: the branches behind the first one of a
conditional statement go behind `else`, into a new block. The scope of the block is opened in the
one that the conditional statement stands in. -/
inductive NestsElse : Node × Scopes → Node × Scopes → Prop
  | intro {σ : Scopes} {i p : ScopeId} {s s' : Node} {ss ts : List Node}
      (h : Node.Nests (σ.openIn p).2 p i s s') :
      NestsElse (.program (ss ++ s :: ts) i, σ) (.program (ss ++ s' :: ts) i, (σ.openIn p).1)

/-! ## Without scopes -/

namespace Flat

variable {budget : Nat}

theorem statements_congr {s s' : Node} (h : one budget s' = one budget s) (ss ts : List Node) :
    statements budget (ss ++ s' :: ts) = statements budget (ss ++ s :: ts) := by
  induction ss with
  | nil => rw [List.nil_append, List.nil_append, statements, statements, h]
  | cons t ss ih => rw [List.cons_append, List.cons_append, statements, statements, ih]

theorem block_congr {s s' : Node} (h : one budget s' = one budget s) (ss ts : List Node)
    (j : ScopeId) :
    block budget (.block (ss ++ s' :: ts) j) = block budget (.block (ss ++ s :: ts) j) := by
  rw [block, block]
  exact statements_congr h ss ts

theorem topStatements_congr {s s' : Node} (h : one budget s' = one budget s) (ss ts : List Node) :
    topStatements budget (ss ++ s' :: ts) = topStatements budget (ss ++ s :: ts) := by
  induction ss with
  | nil => rw [List.nil_append, List.nil_append, topStatements, topStatements, h]
  | cons t ss ih => rw [List.cons_append, List.cons_append, topStatements, topStatements, ih]

theorem branches_congr {b b' : Node} (h : block budget b' = block budget b) (c : Node)
    (bs bs' : List (Node × Node)) :
    branches budget (bs ++ (c, b') :: bs') = branches budget (bs ++ (c, b) :: bs') := by
  induction bs with
  | nil => rw [List.nil_append, List.nil_append, branches, branches, h]
  | cons t bs ih => rw [List.cons_append, List.cons_append, branches, branches, ih]

/-- A block of one statement ends as the statement does. -/
theorem statements_singleton (s : Node) : statements budget [s] = one budget s := by
  rw [statements]
  refine Eq.trans (bind_congr fun signal => ?_) (bind_pure (one budget s))
  cases signal <;> rfl

/-- Where the first condition is false, the statement does what it does without the first branch. -/
theorem one_conditional_cons (c b : Node) (bs : List (Node × Node)) (o : Node) :
    one budget (.conditional ((c, b) :: bs) o) = (do
      if ← holds c then block budget b else one budget (.conditional bs o)) := by
  rw [one, branches, bind_assoc]
  refine bind_congr fun go => ?_
  cases go with
  | true =>
    refine (bind_assoc _ _ _).trans (Eq.trans (bind_congr fun signal => ?_) (bind_pure _))
    rfl
  | false =>
    show _ = one budget (.conditional bs o)
    rw [one]
    rfl

/-- Where no branch is left, the statement does what stands behind `else`. -/
theorem one_else_singleton (s : Node) (k : ScopeId) :
    one budget (.conditional [] (.otherwise (.block [s] k))) = one budget s := by
  rw [one, branches, lastPart, block, statements_singleton, pure_bind]
  refine (bind_assoc _ _ _).trans (Eq.trans (bind_congr fun signal => ?_) (bind_pure _))
  rfl

/-- The branches that are moved do what they did. -/
theorem one_nested (c b : Node) (bs : List (Node × Node)) (o : Node) (k : ScopeId) :
    one budget (.conditional [(c, b)] (.otherwise (.block [.conditional bs o] k))) =
      one budget (.conditional ((c, b) :: bs) o) := by
  rw [one_conditional_cons, one_conditional_cons, one_else_singleton]

/-- The interpreter without scopes does the same before and behind a replacement. -/
theorem one_of_nests {k p i : ScopeId} {s s' : Node} (h : Node.Nests k p i s s') :
    one budget s' = one budget s := by
  induction h with
  | here => exact one_nested _ _ _ _ _
  | inBranch _ ih => rw [one, one, branches_congr (block_congr ih _ _ _)]
  | inElse _ ih => rw [one, one, lastPart, lastPart, block_congr ih]
  | inLoop _ ih => rw [one, one, block_congr ih]

end Flat

/-! ## Trees whose blocks have scopes -/

namespace Node

variable {k k' : Nat}

mutual

/-- A statement stays one when more scopes are opened. -/
theorem IsStatement.mono (hk : k ≤ k') : ∀ {s : Node}, s.IsStatement k → s.IsStatement k'
  | .assignment .., h | .declaration .., h => h
  | .call .., _ | .breakLoop, _ | .continueLoop, _ => trivial
  | .conditional .., ⟨hbs, ho⟩ => ⟨AreBranches.mono hk hbs, IsLastPart.mono hk ho⟩
  | .loop .., ⟨hc, hb⟩ => ⟨hc, IsBlock.mono hk hb⟩

theorem IsBlock.mono (hk : k ≤ k') : ∀ {b : Node}, b.IsBlock k → b.IsBlock k'
  | .block .., ⟨hi, hss⟩ => ⟨Nat.lt_of_lt_of_le hi hk, AreStatements.mono hk hss⟩

theorem IsLastPart.mono (hk : k ≤ k') : ∀ {o : Node}, o.IsLastPart k → o.IsLastPart k'
  | .otherwise _, hb => IsBlock.mono hk hb
  | .empty _, _ => trivial

theorem AreStatements.mono (hk : k ≤ k') :
    ∀ {ss : List Node}, AreStatements k ss → AreStatements k' ss
  | [], _ => trivial
  | _ :: _, ⟨hs, hss⟩ => ⟨IsStatement.mono hk hs, AreStatements.mono hk hss⟩

theorem AreBranches.mono (hk : k ≤ k') :
    ∀ {bs : List (Node × Node)}, AreBranches k bs → AreBranches k' bs
  | [], _ => trivial
  | (_, _) :: _, ⟨hc, hb, hbs⟩ => ⟨hc, IsBlock.mono hk hb, AreBranches.mono hk hbs⟩

end

theorem areStatements_append {ss ts : List Node} :
    AreStatements k (ss ++ ts) ↔ AreStatements k ss ∧ AreStatements k ts := by
  induction ss with
  | nil => exact ⟨fun h => ⟨trivial, h⟩, And.right⟩
  | cons s ss ih => rw [List.cons_append, AreStatements, AreStatements, ih, and_assoc]

theorem areBranches_append {bs bs' : List (Node × Node)} :
    AreBranches k (bs ++ bs') ↔ AreBranches k bs ∧ AreBranches k bs' := by
  induction bs with
  | nil => exact ⟨fun h => ⟨trivial, h⟩, And.right⟩
  | cons t bs ih =>
    obtain ⟨c, b⟩ := t
    rw [List.cons_append, AreBranches, AreBranches, ih, and_assoc, and_assoc]

/-- In a list of statements, one is replaced when another scope has been opened. -/
theorem AreStatements.replaced {s s' : Node} {ss ts : List Node}
    (h : AreStatements k (ss ++ s :: ts)) (hs' : s'.IsStatement (k + 1)) :
    AreStatements (k + 1) (ss ++ s' :: ts) := by
  obtain ⟨hss, -, hts⟩ := areStatements_append.mp h
  exact areStatements_append.mpr ⟨hss.mono (Nat.le_succ k), hs', hts.mono (Nat.le_succ k)⟩

/-- In a block, one statement is replaced when another scope has been opened. -/
theorem IsBlock.replaced {s s' : Node} {ss ts : List Node} {j : ScopeId}
    (h : (Node.block (ss ++ s :: ts) j).IsBlock k) (hs' : s'.IsStatement (k + 1)) :
    (Node.block (ss ++ s' :: ts) j).IsBlock (k + 1) :=
  ⟨Nat.lt_succ_of_lt h.1, h.2.replaced hs'⟩

theorem IsBlock.part {s : Node} {ss ts : List Node} {j : ScopeId}
    (h : (Node.block (ss ++ s :: ts) j).IsBlock k) : s.IsStatement k :=
  (areStatements_append.mp h.2).2.1

/-- Moving branches behind `else` leaves a statement, and happens in a scope that is there. -/
theorem Nests.isStatement {p i : ScopeId} {s s' : Node} (h : Nests k p i s s') (hi : i < k)
    (hs : s.IsStatement k) : p < k ∧ s'.IsStatement (k + 1) := by
  induction h with
  | here =>
    obtain ⟨⟨hc, hb, hbs⟩, ho⟩ := hs
    have hmoved : (Node.conditional (_ :: _) _).IsStatement k := ⟨hbs, ho⟩
    exact ⟨hi, ⟨hc, hb.mono (Nat.le_succ k), trivial⟩, Nat.lt_succ_self k,
      hmoved.mono (Nat.le_succ k), trivial⟩
  | inBranch _ ih =>
    obtain ⟨hbs, ho⟩ := hs
    obtain ⟨hbefore, hc, hb, hbehind⟩ := areBranches_append.mp hbs
    obtain ⟨hp, hs'⟩ := ih hb.1 hb.part
    exact ⟨hp, areBranches_append.mpr ⟨hbefore.mono (Nat.le_succ k), hc, hb.replaced hs',
      hbehind.mono (Nat.le_succ k)⟩, ho.mono (Nat.le_succ k)⟩
  | inElse _ ih =>
    obtain ⟨hbs, hb⟩ := hs
    obtain ⟨hp, hs'⟩ := ih hb.1 (IsBlock.part hb)
    exact ⟨hp, hbs.mono (Nat.le_succ k), IsBlock.replaced hb hs'⟩
  | inLoop _ ih =>
    obtain ⟨hc, hb⟩ := hs
    obtain ⟨hp, hs'⟩ := ih hb.1 hb.part
    exact ⟨hp, hc, hb.replaced hs'⟩

end Node

/-- The program consists of statements, all blocks in it have scopes, and the scopes are fresh. -/
def IsScoped (n : Node) (σ : Scopes) : Prop :=
  ∃ ss, n = .program ss Scopes.root ∧ Node.AreStatements σ.frames.size ss ∧ σ.IsFresh

/-- A run with scopes mirrors one without. -/
theorem IsScoped.mirrors {n : Node} {σ : Scopes} (h : IsScoped n σ) (budget : Nat) (f : Flat) :
    Mirrors (Flat.nested σ) (Flat.program budget n) (Run.program budget n) f := by
  obtain ⟨ss, rfl, hss, hσ⟩ := h
  exact Flat.mirrors_topStatements hσ hσ.size_pos hss f

/-- A step leaves the blocks with scopes, and the program without scopes does what it did. -/
theorem NestsElse.step {n n' : Node} {σ σ' : Scopes} (h : NestsElse (n, σ) (n', σ'))
    (hn : IsScoped n σ) :
    IsScoped n' σ' ∧ ∀ budget, Flat.program budget n' = Flat.program budget n := by
  obtain ⟨_, hroot, hss, hσ⟩ := hn
  cases h with
  | @intro _ i p s s' ss ts h =>
    cases hroot
    obtain ⟨hp, hs'⟩ := h.isStatement hσ.size_pos (Node.areStatements_append.mp hss).2.1
    refine ⟨⟨_, rfl, ?_, hσ.openIn hp⟩, fun budget => ?_⟩
    · show Node.AreStatements (σ.frames.push _).size _
      rw [Array.size_push]
      exact hss.replaced hs'
    · exact Flat.topStatements_congr (Flat.one_of_nests h) ss ts

/-- Steps one after the other. -/
theorem NestsElse.steps {q q' : Node × Scopes} (h : Relation.ReflTransGen NestsElse q q')
    (hn : IsScoped q.1 q.2) :
    IsScoped q'.1 q'.2 ∧ ∀ budget, Flat.program budget q'.1 = Flat.program budget q.1 := by
  induction h with
  | refl => exact ⟨hn, fun _ => rfl⟩
  | tail _ hstep ih =>
    obtain ⟨hscoped, hsame⟩ := hstep.step ih.1
    exact ⟨hscoped, fun budget => (hsame budget).trans (ih.2 budget)⟩

/-! ## Programs -/

/-- The same names have the same values in every scope. -/
def Scopes.BindSame (σ σ' : Scopes) : Prop :=
  ∀ i, σ'.bindings i = σ.bindings i

theorem Flat.beside_nested {σ σ' : Scopes} (hσ : σ.IsFresh) (hσ' : σ'.IsFresh) (f : Flat) :
    Run.Beside Scopes.BindSame (f.nested σ) (f.nested σ') := by
  refine ⟨⟨rfl, rfl, rfl⟩, fun i => ?_⟩
  by_cases hi : i = Scopes.root
  · rw [hi]
    exact (Scopes.bindings_withRoot_root hσ' f.store).trans
      (Scopes.bindings_withRoot_root hσ f.store).symm
  · exact (Scopes.bindings_withRoot_inner hσ' hi f.store).trans
      (Scopes.bindings_withRoot_inner hσ hi f.store).symm

/-- Computations that mirror the same one are related where the images of its states are. -/
theorem SameOutcome.of_onState {ε ρ σ τ α : Type} {R : σ → τ → Prop} {g : ρ → σ} {g' : ρ → τ}
    (hR : ∀ s, R (g s) (g' s)) (r : EStateM.Result ε ρ α) :
    SameOutcome R (onState g r) (onState g' r) := by
  cases r with
  | ok a s => exact ⟨rfl, hR s⟩
  | error e s => exact ⟨rfl, hR s⟩

/-- **`elif` is `else` with `if` in it.** Let a program have been read without a mistake. Let the
branches behind the first one of any conditional statement in it, at any depth, be put into a
conditional statement of their own behind `else`, in a new block whose scope is empty and lies in
the one around; and let this be done any number of times. From any state, and whatever the program's
scope binds, the program then ends with the same result or fault, or exhausts the same budgets if it
does not end. It writes, reads and reports the same, and leaves the same values in its scope and in
those of its blocks. -/
theorem program_nests_else {n n' : Node} {σ σ' : Scopes} (hn : IsParsed n σ)
    (h : Relation.ReflTransGen NestsElse (n, σ) (n', σ')) (budget : Nat) (b : Bindings)
    (m : Machine) :
    SameOutcome (Run.Beside Scopes.BindSame)
      (Run.program budget n (m.withScopes (σ.withRoot b)))
      (Run.program budget n' (m.withScopes (σ'.withRoot b))) := by
  have hscoped : IsScoped n σ := hn.exists_statements
  obtain ⟨hscoped', hsame⟩ := NestsElse.steps h hscoped
  -- both runs mirror the run without scopes, which is the same for the two programs
  let f : Flat := { store := b, input := m.input, output := m.output, reports := m.reports }
  have hrun : Run.program budget n (f.nested σ) =
      onState (Flat.nested σ) (Flat.program budget n f) :=
    hscoped.mirrors budget f
  have hrun' : Run.program budget n' (f.nested σ') =
      onState (Flat.nested σ') (Flat.program budget n f) := by
    rw [← hsame budget]
    exact hscoped'.mirrors budget f
  obtain ⟨-, -, -, hσ⟩ := hscoped
  obtain ⟨-, -, -, hσ'⟩ := hscoped'
  show SameOutcome _ (Run.program budget n (f.nested σ)) (Run.program budget n' (f.nested σ'))
  rw [hrun, hrun']
  exact .of_onState (Flat.beside_nested hσ hσ') _

/-- Sets `x` if `y` is true. -/
def setIfSecond : Node × Node :=
  (.identifier "y" ⟨2, 8⟩, .block [.assignment "x" (.literal .int (.int 1) ⟨3, 5⟩)] 2)

/-- `if x`, which does nothing, and `elif y` behind it. -/
def ifOrElif : Node :=
  .program [.conditional [(.identifier "x" ⟨1, 4⟩, .block [] 1), setIfSecond] (.empty ⟨4, 0⟩)]
    Scopes.root

/-- `if x`, which does nothing, and `if y` behind `else`. -/
def ifOrElse : Node :=
  .program [.conditional [(.identifier "x" ⟨1, 4⟩, .block [] 1)]
    (.otherwise (.block [.conditional [setIfSecond] (.empty ⟨4, 0⟩)] 3))] Scopes.root

/-- The scopes of the program and of its two blocks. -/
def ifOrElifScopes : Scopes :=
  ⟨#[{}, { parent := some Scopes.root }, { parent := some Scopes.root }]⟩

set_option maxRecDepth 20000 in
theorem ifOrElif_isParsed : IsParsed ifOrElif ifOrElifScopes :=
  have hread : (Reading.ofSource false []
      "if x \x7b\n\x7d elif y \x7b\nx = 1\n\x7d\n").program? false =
      some (ifOrElif, ifOrElifScopes) := by
    with_unfolding_all rfl
  isParsed_of_source hread

/-- A machine in which `x` is false and `y` is true. -/
def onlySecond (σ : Scopes) : Machine :=
  { scopes := σ.withRoot [("x", .bool false), ("y", .bool true)] }

/-- Where `x` is false and `y` is true, the program with `elif` sets `x`, for the one that it is
replaced by does. -/
theorem ifOrElif_nests_else :
    NestsElse (ifOrElif, ifOrElifScopes) (ifOrElse, (ifOrElifScopes.openIn Scopes.root).1) ∧
      ∃ m, Run.program 0 ifOrElif (onlySecond ifOrElifScopes) = .ok () m ∧
        m.scopes.bindings Scopes.root = [("x", .int 1), ("y", .bool true)] := by
  have hstep : NestsElse (ifOrElif, ifOrElifScopes)
      (ifOrElse, (ifOrElifScopes.openIn Scopes.root).1) :=
    @NestsElse.intro ifOrElifScopes Scopes.root Scopes.root _ _ [] [] .here
  obtain ⟨m', hrun', hbindings'⟩ : ∃ m',
      Run.program 0 ifOrElse (onlySecond (ifOrElifScopes.openIn Scopes.root).1) = .ok () m' ∧
        m'.scopes.bindings Scopes.root = [("x", .int 1), ("y", .bool true)] := by
    with_unfolding_all exact ⟨_, rfl, rfl⟩
  obtain ⟨m, hrun, hsame⟩ := (program_nests_else ifOrElif_isParsed (.single hstep) 0
    [("x", .bool false), ("y", .bool true)] {}).exists_ok hrun'
  exact ⟨hstep, m, hrun, (hsame.scopes Scopes.root).symm.trans hbindings'⟩

end Scriptlet
