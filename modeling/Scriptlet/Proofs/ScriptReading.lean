import Scriptlet.Proofs.Script
import Scriptlet.Proofs.StatementCompleteness
import Scriptlet.Source

/-! # Reading what was written

A script that is written down in the style of line breaks is read back as its tree: scanning finds
its words, normalizing ends its statements, and the grammar forms the tree from what is left.
Written with semicolons it is read in the same way, unless a statement ends with the word `none`:
the normalizer takes no semicolon behind that word (`Statements.EndsClear`).
-/
namespace Scriptlet.Script

/-! ## No call is exposed -/

mutual

theorem Operand.exposesCall_tree : ∀ e : Operand, e.tree.exposesCall = false
  | .integer _ | .fraction _ | .text _ | .truth _ | .nothing | .variable _ => by
    simp only [Operand.tree, Node.exposesCall]
  | .minus e | .not e => by
    simp only [Operand.tree, Node.exposesCall, e.isCall_tree, e.exposesCall_tree, Bool.or_self]
  | .binary op l r => by
    simp only [Operand.tree, op.exposesCall_node, l.isCall_tree, l.exposesCall_tree,
      r.exposesCall_tree, Bool.or_self]

theorem Operand.isCall_tree : ∀ e : Operand, e.tree.isCall = false
  | .integer _ | .fraction _ | .text _ | .truth _ | .nothing | .variable _ | .minus _ | .not _ => by
    simp only [Operand.tree, Node.isCall]
  | .binary op l r => by
    simp only [Operand.tree, op.isCall_node]

theorem Expr.exposesCall_tree : ∀ e : Expr, e.tree.exposesCall = false
  | .operand o => by simp only [Expr.tree, o.exposesCall_tree]
  | .call _ args => by simp only [Expr.tree, Node.exposesCall, args.exposesCall_trees]

theorem Args.exposesCall_trees : ∀ args : Args, Node.exposesCallAny args.trees = false
  | .last e => by simp only [Args.trees, Node.exposesCallAny, e.exposesCall_tree, Bool.or_self]
  | .more e rest => by
    simp only [Args.trees, Node.exposesCallAny, e.exposesCall_tree, rest.exposesCall_trees,
      Bool.or_self]

end

theorem Simple.exposesCall_tree (s : Simple) : s.tree.exposesCall = false := by
  cases s with
  | declare isMutable type x value =>
    cases value with
    | none => rfl
    | some v =>
      simp only [Simple.tree, Option.map_some, Option.getD_some, Node.exposesCall, v.isCall_tree,
        v.exposesCall_tree, Bool.or_self]
  | assign x v =>
    simp only [Simple.tree, Node.exposesCall, v.isCall_tree, v.exposesCall_tree, Bool.or_self]
  | call f args => exact (Expr.call f args).exposesCall_tree
  | breakLoop | continueLoop => rfl

mutual

theorem Statement.exposesCall_tree : ∀ (s : Statement) (scope : ScopeId) (σ : Scopes),
    (s.tree scope σ).1.exposesCall = false
  | .simple s, _, _ => s.exposesCall_tree
  | .conditional bs, scope, σ => by
    simp only [Statement.tree, Node.exposesCall, bs.exposesCall_trees, Bool.or_self]
  | .conditionalElse bs otherwise, scope, σ => by
    simp only [Statement.tree, Node.exposesCall, bs.exposesCall_trees, otherwise.exposesCall_trees,
      Bool.or_self]
  | .loop c body, scope, σ => by
    simp only [Statement.tree, Node.exposesCall, c.exposesCall_tree, body.exposesCall_trees,
      Bool.or_self]

theorem Branches.exposesCall_trees : ∀ (bs : Branches) (scope : ScopeId) (σ : Scopes),
    Node.exposesCallBranches (bs.trees scope σ).1 = false
  | .last c body, scope, σ => by
    simp only [Branches.trees, Node.exposesCallBranches, Node.exposesCall, c.exposesCall_tree,
      body.exposesCall_trees, Bool.or_self]
  | .more c body rest, scope, σ => by
    simp only [Branches.trees, Node.exposesCallBranches, Node.exposesCall, c.exposesCall_tree,
      body.exposesCall_trees, rest.exposesCall_trees, Bool.or_self]

theorem Statements.exposesCall_trees : ∀ (ss : Statements) (scope : ScopeId) (σ : Scopes),
    Node.exposesCallAny (ss.trees scope σ).1 = false
  | .nil, _, _ => rfl
  | .cons first rest, scope, σ => by
    simp only [Statements.trees, Node.exposesCallAny, first.exposesCall_tree,
      rest.exposesCall_trees, Bool.or_self]

end

/-! ## Expressions -/

/-- Wherever these words stand, the grammar derives the tree from them. -/
def DerivesTree (l : Level) (ws : List Word) (tree : Node) : Prop :=
  ∀ (before : Pos) ⦃seg : List Token⦄, seg.map Token.word = ws →
    ∃ e, Derives before seg (.expression l e) ∧ e.unplaced = tree

/-- Wherever these words stand, the grammar derives the trees from them as arguments. -/
def DerivesTrees (ws : List Word) (trees : List Node) : Prop :=
  ∀ (before : Pos) ⦃seg : List Token⦄, seg.map Token.word = ws →
    ∃ es, Derives before seg (.arguments es) ∧ Node.unplacedAll es = trees

/-- A token whose word is known. -/
theorem kind_of_word {t : Token} {k : TokenKind} {c : TokenContent} (h : t.word = ⟨k, c⟩) :
    t.kind = k ∧ t.content = c :=
  ⟨congrArg Word.kind h, congrArg Word.content h⟩

theorem exists_grouped {seg : List Token} {ws : List Word} (h : seg.map Token.word = grouped ws) :
    ∃ l inner r, seg = l :: (inner ++ [r]) ∧ l.kind = .leftParen ∧ r.kind = .rightParen ∧
      inner.map Token.word = ws := by
  obtain ⟨l, seg, rfl, hl, hseg⟩ := List.map_eq_cons_iff.mp h
  obtain ⟨inner, seg, rfl, hinner, hseg⟩ := List.map_eq_append_iff.mp hseg
  obtain ⟨r, rfl, hr⟩ := List.map_eq_singleton_iff.mp hseg
  exact ⟨l, inner, r, rfl, (kind_of_word hl).1, (kind_of_word hr).1, hinner⟩

variable {l m : Level} {ws vs : List Word} {tree tree' : Node}

namespace DerivesTree

/-- An expression where a weaker one may stand, or in parentheses. -/
theorem atLevel (h : DerivesTree l ws tree) : DerivesTree m (atLevel m l ws) tree := by
  intro before seg hseg
  rw [Script.atLevel] at hseg
  split at hseg
  · rename_i hm
    obtain ⟨e, he, htree⟩ := h before hseg
    exact ⟨e, he.weaken hm, htree⟩
  · obtain ⟨lp, inner, rp, rfl, hl, hr, hinner⟩ := exists_grouped hseg
    obtain ⟨e, he, htree⟩ := h lp.pos hinner
    have hm : m.rank ≤ Level.primitive.rank := m.rank_le_nine
    exact ⟨e, (Derives.group hl hr (he.weaken (Nat.zero_le _))).weaken hm, htree⟩

theorem minus (h : DerivesTree .sign ws tree) :
    DerivesTree .sign (Word.fixed .minus :: ws) (.signed .minus tree) := by
  intro before seg hseg
  obtain ⟨t, seg, rfl, ht, hseg⟩ := List.map_eq_cons_iff.mp hseg
  obtain ⟨e, he, htree⟩ := h t.pos hseg
  exact ⟨_, .sign (kind_of_word ht).1 he, by rw [Node.unplaced, htree]⟩

theorem not (h : DerivesTree .negation ws tree) :
    DerivesTree .negation (Word.fixed .notWord :: ws) (.negation tree) := by
  intro before seg hseg
  obtain ⟨t, seg, rfl, ht, hseg⟩ := List.map_eq_cons_iff.mp hseg
  obtain ⟨e, he, htree⟩ := h t.pos hseg
  exact ⟨_, .negation (kind_of_word ht).1 he, by rw [Node.unplaced, htree]⟩

theorem binary (op : Operator) (h : DerivesTree op.level.leftSide ws tree)
    (h' : DerivesTree op.level.rightSide vs tree') :
    DerivesTree op.level (ws ++ Word.fixed op.kind :: vs) (op.node tree tree') := by
  intro before seg hseg
  obtain ⟨left, seg, rfl, hleft, hseg⟩ := List.map_eq_append_iff.mp hseg
  obtain ⟨t, right, rfl, ht, hright⟩ := List.map_eq_cons_iff.mp hseg
  obtain ⟨a, ha, htree⟩ := h before hleft
  obtain ⟨b, hb, htree'⟩ := h' t.pos hright
  exact ⟨_, .join op ha (kind_of_word ht).1 hb, by rw [op.unplaced_node, htree, htree']⟩

theorem call (f : Name) {trees : List Node} (h : DerivesTrees ws trees) :
    DerivesTree .primitive (⟨.identifier, .text f.text⟩ :: grouped ws) (.call f.text trees) := by
  intro before seg hseg
  obtain ⟨t, seg, rfl, ht, hseg⟩ := List.map_eq_cons_iff.mp hseg
  obtain ⟨lp, inner, rp, rfl, hl, hr, hinner⟩ := exists_grouped hseg
  obtain ⟨es, hes, htrees⟩ := h lp.pos hinner
  exact ⟨_, .call (kind_of_word ht).1 (kind_of_word ht).2 hl hr hes, by rw [Node.unplaced, htrees]⟩

end DerivesTree

mutual

/-- The grammar derives the tree of an expression from its words. -/
theorem Operand.derives : ∀ e : Operand, DerivesTree e.level e.words e.tree
  | .integer n => by
    intro before seg hseg
    obtain ⟨t, rfl, ht⟩ := List.map_eq_singleton_iff.mp hseg
    exact ⟨_, .integer (kind_of_word ht).1 (kind_of_word ht).2, rfl⟩
  | .fraction x => by
    intro before seg hseg
    obtain ⟨t, rfl, ht⟩ := List.map_eq_singleton_iff.mp hseg
    exact ⟨_, .decimal (kind_of_word ht).1 (kind_of_word ht).2, rfl⟩
  | .text s => by
    intro before seg hseg
    obtain ⟨t, rfl, ht⟩ := List.map_eq_singleton_iff.mp hseg
    exact ⟨_, .text (kind_of_word ht).1 (kind_of_word ht).2, rfl⟩
  | .truth true => by
    intro before seg hseg
    obtain ⟨t, rfl, ht⟩ := List.map_eq_singleton_iff.mp hseg
    exact ⟨_, .truth (kind_of_word ht).1, rfl⟩
  | .truth false => by
    intro before seg hseg
    obtain ⟨t, rfl, ht⟩ := List.map_eq_singleton_iff.mp hseg
    exact ⟨_, .falsehood (kind_of_word ht).1, rfl⟩
  | .nothing => by
    intro before seg hseg
    obtain ⟨t, rfl, ht⟩ := List.map_eq_singleton_iff.mp hseg
    exact ⟨_, .nothing (kind_of_word ht).1, rfl⟩
  | .variable x => by
    intro before seg hseg
    obtain ⟨t, rfl, ht⟩ := List.map_eq_singleton_iff.mp hseg
    exact ⟨_, .name (kind_of_word ht).1 (kind_of_word ht).2, rfl⟩
  | .minus e => e.derives.atLevel.minus
  | .not e => e.derives.atLevel.not
  | .binary op l r => .binary op l.derives.atLevel r.derives.atLevel

theorem Expr.derives : ∀ e : Expr, DerivesTree e.level e.words e.tree
  | .operand o => o.derives
  | .call f args => .call f args.derives

theorem Args.derives : ∀ args : Args, DerivesTrees args.words args.trees
  | .last e => by
    intro before seg hseg
    obtain ⟨n, hn, htree⟩ := e.derives before hseg
    refine ⟨[n], .last (hn.weaken (Nat.zero_le _)), ?_⟩
    rw [Node.unplacedAll, htree]
    rfl
  | .more e rest => by
    intro before seg hseg
    obtain ⟨first, seg, rfl, hfirst, hseg⟩ := List.map_eq_append_iff.mp hseg
    obtain ⟨c, more, rfl, hc, hmore⟩ := List.map_eq_cons_iff.mp hseg
    obtain ⟨n, hn, htree⟩ := e.derives before hfirst
    obtain ⟨ns, hns, htrees⟩ := rest.derives c.pos hmore
    refine ⟨n :: ns, .more (hn.weaken (Nat.zero_le _)) (kind_of_word hc).1 hns, ?_⟩
    rw [Node.unplacedAll, htree, htrees]
    rfl

end

/-! ## Statements -/

theorem text_of_fixed {t : Token} {k : TokenKind} {x : String} (h : t.word = Word.fixed k)
    (hx : k.spelling? = some x) : t.text = x := by
  rw [Word.fixed_of_spelling hx] at h
  exact Token.text_of_content (kind_of_word h).2

/-- The grammar forms the tree of a statement without a block from its words. Where a terminator has
to follow, one can stand. -/
theorem Simple.forms (s : Simple) (scope : ScopeId) (σ : Scopes) {seg : List Token}
    (hseg : seg.map Token.word = s.words) :
    ∃ isBare n, Forms scope σ seg σ (.statement isBare [n]) ∧ n.unplaced = s.tree ∧
      (isBare = true → canEndBehind s.words = true) := by
  cases s with
  | declare isMutable type x value =>
    obtain ⟨k, seg, rfl, hk, hseg⟩ := List.map_eq_cons_iff.mp hseg
    obtain ⟨t, seg, rfl, ht, hseg⟩ := List.map_eq_cons_iff.mp hseg
    obtain ⟨v, seg, rfl, hv, hseg⟩ := List.map_eq_cons_iff.mp hseg
    -- the two keywords before the name
    have hmutable : (k.kind = .varWord ∨ k.kind = .letWord) ∧
        decide (k.kind ≠ .letWord) = isMutable := by
      rw [(kind_of_word hk).1]
      cases isMutable <;> decide
    have htype : t.kind ∈ [TokenKind.intWord, .floatWord, .stringWord, .boolWord] := by
      rw [(kind_of_word ht).1]
      cases type <;> decide
    have hname : t.text = type.name := by
      refine text_of_fixed ht ?_
      cases type <;> decide
    cases value with
    | none =>
      obtain rfl := List.map_eq_nil_iff.mp hseg
      refine ⟨true, _, .declaration hmutable.1 htype
        (.bare (kind_of_word hv).1 (kind_of_word hv).2), ?_, fun _ => rfl⟩
      rw [Node.unplaced, hmutable.2, hname]
      rfl
    | some o =>
      obtain ⟨a, seg, rfl, ha, hseg⟩ := List.map_eq_cons_iff.mp hseg
      obtain ⟨e, he, htree⟩ := o.derives a.pos hseg
      refine ⟨false, _, .declaration hmutable.1 htype
        (.initialised (kind_of_word hv).1 (kind_of_word hv).2 (kind_of_word ha).1
          (he.weaken (Nat.zero_le _))), ?_, nofun⟩
      rw [Node.unplaced, hmutable.2, hname, htree]
      rfl
  | assign x o =>
    obtain ⟨v, seg, rfl, hv, hseg⟩ := List.map_eq_cons_iff.mp hseg
    obtain ⟨a, seg, rfl, ha, hseg⟩ := List.map_eq_cons_iff.mp hseg
    obtain ⟨e, he, htree⟩ := o.derives a.pos hseg
    exact ⟨false, _, .assignment (kind_of_word hv).1 (kind_of_word hv).2 (kind_of_word ha).1
      (he.weaken (Nat.zero_le _)), by rw [Node.unplaced, htree]; rfl, nofun⟩
  | call f args =>
    obtain ⟨t, seg, rfl, ht, hseg⟩ := List.map_eq_cons_iff.mp hseg
    obtain ⟨lp, inner, rp, rfl, hl, hr, hinner⟩ := exists_grouped hseg
    obtain ⟨es, hes, htrees⟩ := args.derives lp.pos hinner
    exact ⟨false, _, .call (kind_of_word ht).1 (kind_of_word ht).2 hl hr hes,
      by rw [Node.unplaced, htrees]; rfl, nofun⟩
  | breakLoop =>
    obtain ⟨t, rfl, ht⟩ := List.map_eq_singleton_iff.mp hseg
    exact ⟨false, _, .breakLoop (kind_of_word ht).1, rfl, nofun⟩
  | continueLoop =>
    obtain ⟨t, rfl, ht⟩ := List.map_eq_singleton_iff.mp hseg
    exact ⟨false, _, .continueLoop (kind_of_word ht).1, rfl, nofun⟩

/-- The words of lines, as normalizing leaves them. -/
def normalWords (lines : List Line) : List Word :=
  (lines.map Line.words).flatMap terminated

theorem normalWords_append (ls ls' : List Line) :
    normalWords (ls ++ ls') = normalWords ls ++ normalWords ls' := by
  rw [normalWords, List.map_append, List.flatMap_append]
  rfl

theorem normalWords_cons (l : Line) (ls : List Line) :
    normalWords (l :: ls) = terminated l.words ++ normalWords ls := rfl

theorem terminated_opening (ws : List Word) :
    terminated (opening ws).words = ws ++ [Word.fixed .leftBrace] := by
  rw [terminated, opening, canEndBehind_concat]
  rfl

theorem terminated_closing : terminated closing.words = [Word.fixed .rightBrace] := rfl

/-- Wherever the words of these statements stand, the grammar forms their trees from them. -/
def FormsTrees (ss : Statements) : Prop :=
  ∀ (scope : ScopeId) (σ : Scopes) ⦃seg : List Token⦄, seg.map Token.word = normalWords ss.lines →
    ∃ ns, Forms scope σ seg (ss.trees scope σ).2 (.body ns) ∧
      Node.unplacedAll ns = (ss.trees scope σ).1

/-- The tree of a block inside a scope, and the scopes behind it. -/
def blockTree (scope : ScopeId) (σ : Scopes) (body : Statements) : Node × Scopes :=
  let (σ, inner) := σ.openIn scope
  let (ss, σ) := body.trees inner σ
  (.block ss inner, σ)

/-- Words, and a block behind them. -/
theorem exists_block {body : Statements} (h : FormsTrees body) (scope : ScopeId) (σ : Scopes)
    {seg : List Token} {ws : List Word} {ls : List Line}
    (hseg : seg.map Token.word = normalWords (opening ws :: (body.lines ++ closing :: ls))) :
    ∃ head block rest b, seg = head ++ (block ++ rest) ∧ head.map Token.word = ws ∧
      rest.map Token.word = normalWords ls ∧
      Forms scope σ block (blockTree scope σ body).2 (.block b) ∧
      b.unplaced = (blockTree scope σ body).1 := by
  rw [normalWords_cons, normalWords_append, normalWords_cons, terminated_opening,
    terminated_closing, List.append_assoc, List.singleton_append, List.singleton_append] at hseg
  obtain ⟨head, seg₁, rfl, hhead, hseg₁⟩ := List.map_eq_append_iff.mp hseg
  obtain ⟨lb, seg₂, rfl, hl, hseg₂⟩ := List.map_eq_cons_iff.mp hseg₁
  obtain ⟨inner, seg₃, rfl, hinner, hseg₃⟩ := List.map_eq_append_iff.mp hseg₂
  obtain ⟨rb, rest, rfl, hr, hrest⟩ := List.map_eq_cons_iff.mp hseg₃
  obtain ⟨ns, hns, htrees⟩ := h (σ.openIn scope).2 (σ.openIn scope).1 hinner
  refine ⟨head, lb :: (inner ++ [rb]), rest, _, by simp, hhead, hrest,
    .block (kind_of_word hl).1 (kind_of_word hr).1 hns, ?_⟩
  rw [Node.unplaced, htrees]
  rfl

/-- A statement without a block, with its terminator if it has one. -/
theorem Simple.forms_body (s : Simple) (scope : ScopeId) (σ : Scopes) {seg : List Token}
    (hseg : seg.map Token.word = terminated s.words) :
    ∃ n, n.unplaced = s.tree ∧ ∀ {rest : List Token} {σ' : Scopes} {ss : List Node},
      Forms scope σ rest σ' (.body ss) → Forms scope σ (seg ++ rest) σ' (.body (n :: ss)) := by
  rw [terminated] at hseg
  split at hseg
  · -- the terminator is read as an empty place between two statements
    obtain ⟨line, seg, rfl, hline, hseg⟩ := List.map_eq_append_iff.mp hseg
    obtain ⟨semi, rfl, hsemi⟩ := List.map_eq_singleton_iff.mp hseg
    obtain ⟨isBare, n, hn, htree, -⟩ := s.forms scope σ hline
    refine ⟨n, htree, fun hrest => ?_⟩
    rw [List.append_assoc]
    exact .cons hn (.semicolon (kind_of_word hsemi).1 hrest)
      fun _ => ⟨semi, _, rfl, (kind_of_word hsemi).1⟩
  · -- without one, the statement cannot be a declaration without a value
    rename_i hend
    obtain ⟨isBare, n, hn, htree, hbare⟩ := s.forms scope σ hseg
    exact ⟨n, htree, fun hrest => .cons hn hrest fun h => absurd (hbare h) hend⟩

mutual

/-- The grammar forms the tree of a statement from its words, before any further statements. -/
theorem Statement.forms : ∀ (s : Statement) (scope : ScopeId) (σ : Scopes) {seg : List Token},
    seg.map Token.word = normalWords s.lines →
    ∃ n, n.unplaced = (s.tree scope σ).1 ∧
      ∀ {rest : List Token} {σ' : Scopes} {ss : List Node},
        Forms scope (s.tree scope σ).2 rest σ' (.body ss) →
        Forms scope σ (seg ++ rest) σ' (.body (n :: ss))
  | .simple s, scope, σ, seg, hseg => by
    rw [Statement.lines, normalWords_cons] at hseg
    exact s.forms_body scope σ (hseg.trans (List.append_nil _))
  | .conditional branches, scope, σ, seg, hseg => by
    obtain ⟨t, seg, bs, rfl, ht, hbs, htrees⟩ := branches.forms .ifWord scope σ hseg
    -- the place of the missing last block is that of the brace before it
    obtain ⟨init, r, rfl⟩ := hbs.exists_concat
    refine ⟨_, ?_, fun hrest => .cons (.conditional ht hbs) hrest nofun⟩
    rw [Node.unplaced, htrees]
    rfl
  | .conditionalElse branches otherwise, scope, σ, seg, hseg => by
    rw [Statement.lines, normalWords_append] at hseg
    obtain ⟨first, last, rfl, hfirst, hlast⟩ := List.map_eq_append_iff.mp hseg
    obtain ⟨t, first, bs, rfl, ht, hbs, htrees⟩ := branches.forms .ifWord scope σ hfirst
    obtain ⟨head, block, rest, b, rfl, hhead, hrest, hb, htree⟩ :=
      exists_block otherwise.forms scope _ hlast
    obtain ⟨o, rfl, ho⟩ := List.map_eq_singleton_iff.mp hhead
    obtain rfl := List.map_eq_nil_iff.mp hrest
    refine ⟨.conditional bs (.otherwise b), ?_, fun hmore => ?_⟩
    · rw [Node.unplaced, Node.unplaced, htrees, htree]
      rfl
    · rw [List.append_nil, List.singleton_append, List.cons_append]
      exact .cons (.conditionalElse ht hbs (kind_of_word ho).1 hb) hmore nofun
  | .loop condition body, scope, σ, seg, hseg => by
    rw [Statement.lines] at hseg
    obtain ⟨head, block, rest, b, rfl, hhead, hrest, hb, htree⟩ :=
      exists_block body.forms scope σ hseg
    obtain ⟨t, cond, rfl, ht, hcond⟩ := List.map_eq_cons_iff.mp hhead
    obtain rfl := List.map_eq_nil_iff.mp hrest
    obtain ⟨c, hc, hctree⟩ := condition.derives t.pos hcond
    refine ⟨.loop c b, ?_, fun hmore => ?_⟩
    · rw [Node.unplaced, hctree, htree]
      rfl
    · rw [List.append_nil, List.cons_append]
      exact .cons (.loop (kind_of_word ht).1 (hc.weaken (Nat.zero_le _)) hb) hmore nofun

theorem Branches.forms : ∀ (bs : Branches) (k : TokenKind) (scope : ScopeId) (σ : Scopes)
    {seg : List Token}, seg.map Token.word = normalWords (bs.lines k) →
    ∃ t rest ns, seg = t :: rest ∧ t.kind = k ∧
      Forms scope σ rest (bs.trees scope σ).2 (.branches t.pos ns) ∧
      Node.unplacedBranches ns = (bs.trees scope σ).1
  | .last condition body, k, scope, σ, seg, hseg => by
    rw [Branches.lines] at hseg
    obtain ⟨head, block, rest, b, rfl, hhead, hrest, hb, htree⟩ :=
      exists_block body.forms scope σ hseg
    obtain ⟨t, cond, rfl, ht, hcond⟩ := List.map_eq_cons_iff.mp hhead
    obtain rfl := List.map_eq_nil_iff.mp hrest
    obtain ⟨c, hc, hctree⟩ := condition.derives t.pos hcond
    refine ⟨t, _, [(c, b)], rfl, (kind_of_word ht).1, ?_, ?_⟩
    · rw [List.append_nil]
      exact .branch (hc.weaken (Nat.zero_le _)) hb
    · rw [Node.unplacedBranches, hctree, htree]
      rfl
  | .more condition body rest, k, scope, σ, seg, hseg => by
    rw [Branches.lines] at hseg
    obtain ⟨head, block, more, b, rfl, hhead, hmore, hb, htree⟩ :=
      exists_block body.forms scope σ hseg
    obtain ⟨t, cond, rfl, ht, hcond⟩ := List.map_eq_cons_iff.mp hhead
    obtain ⟨c, hc, hctree⟩ := condition.derives t.pos hcond
    obtain ⟨o, more, bs, rfl, ho, hbs, htrees⟩ := rest.forms .elifWord scope _ hmore
    refine ⟨t, _, (c, b) :: bs, rfl, (kind_of_word ht).1,
      .branchMore (hc.weaken (Nat.zero_le _)) hb ho hbs, ?_⟩
    rw [Node.unplacedBranches, hctree, htree, htrees]
    rfl

theorem Statements.forms : ∀ ss : Statements, FormsTrees ss
  | .nil => by
    intro scope σ seg hseg
    obtain rfl := List.map_eq_nil_iff.mp hseg
    exact ⟨[], .nil, rfl⟩
  | .cons first rest => by
    intro scope σ seg hseg
    rw [Statements.lines, normalWords_append] at hseg
    obtain ⟨head, tail, rfl, hhead, htail⟩ := List.map_eq_append_iff.mp hseg
    obtain ⟨n, hn, hfirst⟩ := first.forms scope σ hhead
    obtain ⟨ns, hns, htrees⟩ := rest.forms scope _ htail
    refine ⟨n :: ns, hfirst hns, ?_⟩
    rw [Node.unplacedAll, hn, htrees]
    rfl

end

/-! ## Scripts -/

/-- A token whose word can be written says what tokens of its kind say. -/
theorem shaped_of_writable {t : Token} (h : t.word.Writable) : t.Shaped := by
  obtain ⟨kind, content, pos⟩ := t
  generalize hw : Token.word ⟨kind, content, pos⟩ = w at h
  cases h with
  | number n =>
    cases hw
    exact .inl ⟨_, rfl⟩
  | fraction h =>
    cases hw
    exact .inr ⟨_, rfl⟩
  | text h =>
    cases hw
    exact ⟨_, rfl⟩
  | name h =>
    cases hw
    exact ⟨_, rfl⟩
  | fixed h =>
    obtain ⟨x, hx⟩ := Option.isSome_iff_exists.mp h
    rw [Word.fixed_of_spelling hx] at hw
    cases hw
    exact (Token.Shaped.iff_of_spelling pos hx).mpr rfl

theorem Statements.writable (p : Statements) : ∀ w ∈ normalWords p.lines, w.Writable := by
  intro w hw
  obtain ⟨ws, hws, hmem⟩ := List.mem_flatMap.mp hw
  obtain ⟨l, hl, rfl⟩ := List.mem_map.mp hws
  have hline := p.isScriptLine l hl
  rw [terminated] at hmem
  split at hmem
  · rcases List.mem_append.mp hmem with hmem | hmem
    · exact hline.writable w hmem
    · rw [List.mem_singleton.mp hmem]
      exact .fixed (by decide)
  · exact hline.writable w hmem

/-- The program that is read from the words of a script, as normalizing leaves them. -/
theorem Statements.parseProgram_eq (p : Statements) {seg : List Token}
    (hseg : seg.map Token.word = normalWords p.lines) :
    ∃ n s, parseProgram (seg ++ [Token.endOfFile]) = .ok n s ∧ s.reports = [] ∧
      s.scopes = (p.trees Scopes.root {}).2 ∧
      n.unplaced = .program (p.trees Scopes.root {}).1 Scopes.root := by
  obtain ⟨ns, hns, htrees⟩ := p.forms Scopes.root {} hseg
  have hexposes : Node.exposesCallAny ns = false := by
    rw [← Node.exposesCallAny_unplaced, htrees]
    exact p.exposesCall_trees _ _
  have hshaped : ∀ t ∈ seg, t.Shaped := by
    intro t ht
    refine shaped_of_writable (p.writable _ ?_)
    rw [← hseg]
    exact List.mem_map_of_mem ht
  refine ⟨_, _, (parseProgram_becomes (hns.composes hshaped) rfl).eq hexposes, rfl, rfl, ?_⟩
  rw [Node.unplaced, htrees]

/-- The source text of a script in one of the two styles. -/
def Statements.source (p : Statements) (style : TerminatorStyle) : String :=
  sourceText (p.lines.map (Line.written style))

/-- The text of a script is scanned without a report or fault. -/
theorem Statements.exists_scan (p : Statements) (style : TerminatorStyle) :
    ∃ tokens : List Token, tokens.map Token.word =
        (p.lines.map (Line.written style)).flatMap (· ++ [Word.newline]) ∧
      Reading.scan [] (p.source style) = { tokens := tokens ++ [Token.endOfFile] } := by
  have hwritable : ∀ ws ∈ p.lines.map (Line.written style), ∀ w ∈ ws, w.Writable := by
    intro ws hws w hw
    obtain ⟨l, hl, rfl⟩ := List.mem_map.mp hws
    rw [Line.written] at hw
    split at hw
    · rcases List.mem_append.mp hw with hw | hw
      · exact (p.isScriptLine l hl).writable w hw
      · rw [List.mem_singleton.mp hw]
        exact .fixed (by decide)
    · exact (p.isScriptLine l hl).writable w hw
  obtain ⟨tokens, hwords, htokens, hreports, hfault⟩ := scan_sourceText hwritable
  refine ⟨tokens, hwords, ?_⟩
  rw [Reading.scan, Statements.source, htokens, hreports, hfault]
  rfl

/-- A step that nothing forbids is made. -/
theorem andThen_of_goesOn {r : Reading} {force : Bool} (h : r.goesOn force = true)
    (step : Reading → Reading) : r.andThen force step = step r :=
  if_pos h

/-- What reading the text of a script has to give: nothing is reported, no fault is met, and the
program is the tree of the script, up to the places of its nodes, with the scopes of its blocks. -/
structure Statements.IsReadBack (p : Statements) (r : Reading) : Prop where
  reports : r.reports = []
  fault : r.fault = none
  program : ∃ n, r.program = some (n, (p.trees Scopes.root {}).2) ∧
    n.unplaced = .program (p.trees Scopes.root {}).1 Scopes.root

/-- A script is read back once normalizing has left its words. -/
theorem Statements.isReadBack_of_normalize (p : Statements) {source : String}
    {tokens out : List Token} {i : Nat}
    (hscan : Reading.scan [] source = { tokens := tokens ++ [Token.endOfFile] })
    (hout : out.map Token.word = normalWords p.lines)
    (hnormalize : normalize (tokens ++ [Token.endOfFile]) =
      ⟨out ++ [Token.endOfFile], i, [], none⟩) :
    p.IsReadBack (Reading.ofSource false [] source) := by
  obtain ⟨n, s, hparse, hreports, hscopes, htree⟩ := p.parseProgram_eq hout
  have hnormal : Reading.ofTokens false [] source =
      { stage := .terminators, tokens := out ++ [Token.endOfFile] } := by
    rw [Reading.ofTokens, hscan, andThen_of_goesOn rfl, Reading.normalize, hnormalize]
    rfl
  rw [Reading.ofSource, hnormal, andThen_of_goesOn rfl, Reading.parse, hparse]
  exact ⟨hreports, rfl, n, congrArg (fun scopes => some (n, scopes)) hscopes, htree⟩

/-- No statement of the script ends with the word `none`. -/
def Statements.EndsClear (p : Statements) : Prop :=
  ∀ l ∈ p.lines, l.isStatement = true → l.words.getLast? ≠ some (Word.fixed .noneWord)

instance (p : Statements) : Decidable p.EndsClear :=
  inferInstanceAs (Decidable (∀ l ∈ p.lines, _))

/-- A script is read back if its style can end all of its statements. -/
theorem Statements.isReadBack (p : Statements) {style : TerminatorStyle}
    (h : style = .semicolons → p.EndsClear) :
    p.IsReadBack (Reading.ofSource false [] (p.source style)) := by
  obtain ⟨tokens, hwords, hscan⟩ := p.exists_scan style
  have hlast : Token.endOfFile.kind = .endOfFile := rfl
  have hlines : ∀ l ∈ p.lines, IsLine (l.words.map Word.kind) :=
    fun l hl => (p.isScriptLine l hl).isLine
  cases style with
  | newlines =>
    obtain ⟨out, i, hout, hnormalize⟩ := normalize_newlines hlast hlines hwords
    exact p.isReadBack_of_normalize hscan hout hnormalize
  | semicolons =>
    have hends : ∀ l ∈ p.lines, l.isStatement = canEndBehind l.words := by
      intro l hl
      rw [Bool.eq_iff_iff, (p.isScriptLine l hl).canEnd_iff]
      exact ⟨fun hs => ⟨hs, h rfl l hl hs⟩, And.left⟩
    obtain ⟨out, i, hout, hnormalize⟩ := normalize_semicolons hlast hlines hends hwords
    exact p.isReadBack_of_normalize hscan hout hnormalize

/-- What normalizing reports is reported to the end. -/
theorem reports_ofSource {source : String} {tokens : List Token}
    (hscan : Reading.scan [] source = { tokens := tokens })
    (h : (normalize tokens).reports ≠ []) :
    (Reading.ofSource false [] source).reports ≠ [] := by
  have hnormal : (Reading.ofTokens false [] source).reports ≠ [] := by
    rw [Reading.ofTokens, hscan, andThen_of_goesOn rfl]
    exact h
  -- the parser is not run, so nothing can take the reports away
  have hstop : (Reading.ofTokens false [] source).goesOn false = false := by
    rw [Reading.goesOn, Bool.false_or, List.isEmpty_eq_false_iff.mpr hnormal, Bool.and_false]
  rw [Reading.ofSource, Reading.andThen, if_neg (by rw [hstop]; exact Bool.false_ne_true)]
  exact hnormal

/-- A statement that ends with `none` and is followed by a semicolon is reported. -/
theorem Statements.reports_semicolons (p : Statements) (h : ¬p.EndsClear) :
    (Reading.ofSource false [] (p.source .semicolons)).reports ≠ [] := by
  obtain ⟨tokens, hwords, hscan⟩ := p.exists_scan .semicolons
  refine reports_ofSource hscan (normalize_semicolons_reports
    (fun l hl => (p.isScriptLine l hl).isLine)
    (fun l hl hend => ((p.isScriptLine l hl).canEnd_iff.mp hend).1) ?_ hwords)
  simp only [Statements.EndsClear, Classical.not_forall] at h
  obtain ⟨l, hl, hstatement, hnone⟩ := h
  refine ⟨l, hl, fun heq => hnone ?_⟩
  exact ((p.isScriptLine l hl).canEnd_iff.mp (heq ▸ hstatement)).2

/-- **A script that is written in the style of line breaks is read back**, whatever it is. -/
theorem Statements.isReadBack_newlines (p : Statements) :
    p.IsReadBack (Reading.ofSource false [] (p.source .newlines)) :=
  p.isReadBack fun h => nomatch h

/-- **The two styles agree on exactly the scripts without a statement that ends with `none`.** In
the style of line breaks every script is read back. In the style of semicolons something is
reported if a statement ends with `none`, and else the script is read back too, so that both texts
give one program. -/
theorem Statements.styles_agree_iff_endsClear (p : Statements) :
    let r := Reading.ofSource false [] (p.source .newlines)
    let r' := Reading.ofSource false [] (p.source .semicolons)
    p.IsReadBack r ∧ (r'.reports = [] ↔ p.EndsClear) ∧
      (p.EndsClear → p.IsReadBack r' ∧ ∃ n n' σ, r.program = some (n, σ) ∧
        r'.program = some (n', σ) ∧ n.unplaced = n'.unplaced) := by
  intro r r'
  have hnewlines : p.IsReadBack r := p.isReadBack fun h => nomatch h
  refine ⟨hnewlines, ⟨fun h => ?_, fun h => (p.isReadBack fun _ => h).reports⟩, fun h => ?_⟩
  · by_cases hclear : p.EndsClear
    · exact hclear
    · exact absurd h (p.reports_semicolons hclear)
  · have hsemicolons : p.IsReadBack r' := p.isReadBack fun _ => h
    obtain ⟨n, hn, htree⟩ := hnewlines.program
    obtain ⟨n', hn', htree'⟩ := hsemicolons.program
    exact ⟨hsemicolons, n, n', _, hn, hn', htree.trans htree'.symm⟩

/-- A script whose only statement ends with `none`. -/
def assignNone : Statements :=
  .cons
    (.simple (.assign ⟨"x", ⟨'x', [], rfl, by decide +kernel, by simp⟩, by decide⟩ .nothing)) .nil

/-- With a semicolon behind it, the assignment of `none` is reported. -/
theorem assignNone_reports :
    assignNone.source .semicolons = "x = none ;\n" ∧
      (Reading.ofSource false [] (assignNone.source .semicolons)).reports ≠ [] := by
  refine ⟨by decide, assignNone.reports_semicolons ?_⟩
  decide

end Scriptlet.Script
