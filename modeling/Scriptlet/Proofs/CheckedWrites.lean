import Mathlib.Data.List.Nodup
import Scriptlet.Proofs.ChecksAlike
import Scriptlet.Proofs.ReadTrees

/-! # What a check writes

The checker goes through the statements of a program, and through those of the blocks behind `if`
and `elif` in it: these are the *open* blocks. The blocks behind `else`, those of loops and all that
stands in them stay *closed*. In an open block, a declaration of a number or a truth value can be
recorded in the scope of that block. Nothing else is ever written, by no check of an expression and
at no point at which a check fails. So all states that a check comes to are reached by such writes
(`Check.Writes`), and what can be said of one write can be said of the whole check.
-/
namespace Scriptlet

namespace Node

/-! ## Open and closed blocks -/

mutual

/-- The open blocks, each with its statements and its scope: a program or block itself, and the
blocks of branches in it. -/
def openBlocks : Node → List (List Node × ScopeId)
  | block ss i => (ss, i) :: openBlocksAll ss
  | program ss i => (ss, i) :: openBlocksAll ss
  | conditional bs _ => openBlocksBranches bs
  | _ => []

/-- The open blocks in a list of statements. -/
def openBlocksAll : List Node → List (List Node × ScopeId)
  | [] => []
  | n :: rest => openBlocks n ++ openBlocksAll rest

/-- The open blocks in a list of branches. -/
def openBlocksBranches : List (Node × Node) → List (List Node × ScopeId)
  | [] => []
  | (_, b) :: rest => openBlocks b ++ openBlocksBranches rest

end

mutual

/-- The scopes of the closed blocks: those behind `else`, those of loops, and all below them. -/
def closedScopes : Node → List ScopeId
  | block ss _ => closedScopesAll ss
  | program ss _ => closedScopesAll ss
  | conditional bs o => closedScopesBranches bs ++ scopeIds o
  | otherwise b => scopeIds b
  | loop _ b => scopeIds b
  | _ => []

/-- The scopes of the closed blocks in a list of statements. -/
def closedScopesAll : List Node → List ScopeId
  | [] => []
  | n :: rest => closedScopes n ++ closedScopesAll rest

/-- The scopes of the closed blocks in a list of branches. -/
def closedScopesBranches : List (Node × Node) → List ScopeId
  | [] => []
  | (_, b) :: rest => closedScopes b ++ closedScopesBranches rest

end

/-- The scopes of open blocks. -/
def scopesOf (blocks : List (List Node × ScopeId)) : List ScopeId :=
  blocks.map Prod.snd

theorem perm_of_parts {opened opened' : List (List Node × ScopeId)}
    {closed closed' all all' : List ScopeId} (h : (scopesOf opened ++ closed).Perm all)
    (h' : (scopesOf opened' ++ closed').Perm all') :
    (scopesOf (opened ++ opened') ++ (closed ++ closed')).Perm (all ++ all') := by
  have hsplit : scopesOf (opened ++ opened') = scopesOf opened ++ scopesOf opened' :=
    List.map_append
  have hswap : (scopesOf opened' ++ (closed ++ closed')).Perm
      (closed ++ (scopesOf opened' ++ closed')) :=
    List.perm_append_comm_assoc ..
  rw [hsplit, List.append_assoc]
  refine (hswap.append_left (scopesOf opened)).trans ?_
  rw [← List.append_assoc]
  exact h.append h'

mutual

/-- **Every scope in a program is that of an open or of a closed block.** -/
theorem scopesOf_openBlocks_perm :
    ∀ n : Node, (scopesOf n.openBlocks ++ n.closedScopes).Perm n.scopeIds
  | .block ss i | .program ss i => (scopesOf_openBlocksAll_perm ss).cons i
  | .conditional bs o => by
    rw [closedScopes, ← List.append_assoc]
    exact (scopesOf_openBlocksBranches_perm bs).append_right o.scopeIds
  | .otherwise b | .loop _ b => .refl b.scopeIds
  | .empty _ | .literal .. | .identifier .. | .signed .. | .negation _ | .logic .. | .comparison ..
  | .arithmetic .. | .assignment .. | .declaration .. | .call .. | .breakLoop | .continueLoop
  | .bare | .raw _ => .nil

theorem scopesOf_openBlocksAll_perm :
    ∀ ss : List Node, (scopesOf (openBlocksAll ss) ++ closedScopesAll ss).Perm (scopeIdsAll ss)
  | [] => .nil
  | n :: rest => perm_of_parts (scopesOf_openBlocks_perm n) (scopesOf_openBlocksAll_perm rest)

theorem scopesOf_openBlocksBranches_perm : ∀ bs : List (Node × Node),
    (scopesOf (openBlocksBranches bs) ++ closedScopesBranches bs).Perm (scopeIdsBranches bs)
  | [] => .nil
  | (_, b) :: rest =>
    perm_of_parts (scopesOf_openBlocks_perm b) (scopesOf_openBlocksBranches_perm rest)

end

mutual

/-- In the order of the text, the scope of an open block stands before those of the blocks in it. -/
theorem sublist_of_mem_openBlocks {ss : List Node} {j : ScopeId} :
    ∀ {n : Node}, (ss, j) ∈ n.openBlocks → (j :: scopeIdsAll ss).Sublist n.scopeIds
  | .block ts i, h | .program ts i, h => by
    rcases List.mem_cons.mp h with heq | hmem
    · cases heq
      exact .refl _
    · exact (sublist_of_mem_openBlocksAll hmem).cons i
  | .conditional bs o, h =>
    (sublist_of_mem_openBlocksBranches h).trans (List.sublist_append_left ..)

theorem sublist_of_mem_openBlocksAll {ss : List Node} {j : ScopeId} :
    ∀ {ts : List Node}, (ss, j) ∈ openBlocksAll ts → (j :: scopeIdsAll ss).Sublist (scopeIdsAll ts)
  | n :: rest, h => by
    rcases List.mem_append.mp h with hmem | hmem
    · exact (sublist_of_mem_openBlocks hmem).trans (List.sublist_append_left ..)
    · exact (sublist_of_mem_openBlocksAll hmem).trans (List.sublist_append_right ..)

theorem sublist_of_mem_openBlocksBranches {ss : List Node} {j : ScopeId} :
    ∀ {bs : List (Node × Node)}, (ss, j) ∈ openBlocksBranches bs →
      (j :: scopeIdsAll ss).Sublist (scopeIdsBranches bs)
  | (_, b) :: rest, h => by
    rcases List.mem_append.mp h with hmem | hmem
    · exact (sublist_of_mem_openBlocks hmem).trans (List.sublist_append_left ..)
    · exact (sublist_of_mem_openBlocksBranches hmem).trans (List.sublist_append_right ..)

end

/-- What a statement can put into the scope of its block: the symbol of a declared number or truth
value. -/
def recorded? : Node → Option (String × Value)
  | .declaration x type isMutable v =>
    if type = "int" ∨ type = "float" ∨ type = "bool" then
      some (x, .symbol ⟨type, isMutable, Check.isEmpty v⟩)
    else none
  | _ => none

/-- What the statements of a block, not counting the blocks in it, can put into its scope. -/
def recordings (ss : List Node) : List (String × Value) :=
  ss.filterMap recorded?

theorem mem_recordings {ss : List Node} {x type : String} {isMutable : Bool} {v : Node}
    (h : .declaration x type isMutable v ∈ ss) (htype : Check.isChecked type) :
    (x, .symbol ⟨type, isMutable, Check.isEmpty v⟩) ∈ recordings ss :=
  List.mem_filterMap.mpr ⟨_, h, if_pos htype⟩

/-! ## Expressions only read -/

mutual

theorem IsOperand.isRead : ∀ {e : Node}, e.IsOperand → ∀ a ∈ e.mentions, ∃ x, a = .read x
  | .identifier x _, _, _, ha => ⟨x, List.mem_singleton.mp ha⟩
  | .signed .., ⟨_, ho⟩, a, ha | .negation _, ⟨_, ho⟩, a, ha => IsOperand.isRead ho a ha
  | .logic .., ⟨_, hl, hr⟩, a, ha | .comparison .., ⟨_, hl, hr⟩, a, ha
  | .arithmetic .., ⟨_, hl, hr⟩, a, ha =>
    (List.mem_append.mp ha).elim (IsOperand.isRead hl a) (IsOperand.isRead hr a)
  | .call .., ⟨_, hes⟩, a, ha => AreOperands.isRead hes a ha

theorem AreOperands.isRead :
    ∀ {es : List Node}, AreOperands es → ∀ a ∈ mentionsAll es, ∃ x, a = .read x
  | _ :: _, ⟨he, hes⟩, a, ha =>
    (List.mem_append.mp ha).elim (IsOperand.isRead he a) (AreOperands.isRead hes a)

end

end Node

namespace Check

variable {α β : Type} {blocks : List (List Node × ScopeId)} {σ σ' : Scopes} {i j : ScopeId}
  {x : String}

/-! ## Writes -/

/-- One write: what a declaration in an open block says is recorded in the scope of that block. -/
inductive Records (blocks : List (List Node × ScopeId)) : Scopes → Scopes → Prop
  | define {σ : Scopes} {ss : List Node} {j : ScopeId} {x : String} {v : Value}
      (hblock : (ss, j) ∈ blocks) (hx : (x, v) ∈ Node.recordings ss) :
      Records blocks σ (σ.define j x v)

/-- The second scopes are reached from the first ones by writes in open blocks. -/
def Writes (blocks : List (List Node × ScopeId)) : Scopes → Scopes → Prop :=
  Relation.ReflTransGen (Records blocks)

/-- Where scopes lie does not change. -/
theorem Writes.parent?_eq (h : Writes blocks σ σ') (j : ScopeId) : σ'.parent? j = σ.parent? j := by
  induction h with
  | refl => rfl
  | tail _ hwrite ih =>
    cases hwrite
    rw [Scopes.parent?_define, ih]

/-- A scope that belongs to no open block stays as it is. -/
theorem Writes.bindings_eq (h : Writes blocks σ σ') (hj : j ∉ Node.scopesOf blocks) :
    σ'.bindings j = σ.bindings j := by
  induction h with
  | refl => rfl
  | tail _ hwrite ih =>
    cases hwrite with
    | define hblock =>
      have hne : _ ≠ j := fun heq => hj (heq ▸ List.mem_map_of_mem hblock)
      rw [Scopes.bindings_define_ne hne, ih]

/-- What a scope binds a name to is what it bound it to at first, or what a declaration in its block
says. -/
theorem Writes.get?_bindings (h : Writes blocks σ σ') (j : ScopeId) (x : String) :
    (σ'.bindings j).get? x = (σ.bindings j).get? x ∨
      ∃ ss v, (ss, j) ∈ blocks ∧ (x, v) ∈ Node.recordings ss ∧
        (σ'.bindings j).get? x = some v := by
  induction h with
  | refl => exact .inl rfl
  | @tail τ _ _ hwrite ih =>
    cases hwrite with
    | @define ss k y v hblock hy =>
      by_cases hkj : k = j
      · subst hkj
        by_cases hk : k < τ.frames.size
        · rw [Scopes.bindings_define_self hk, Bindings.get?_put]
          split
          · rename_i hxy
            exact .inr ⟨ss, v, hblock, hxy ▸ hy, rfl⟩
          · exact ih
        · rw [Scopes.define_of_size_le (Nat.le_of_not_lt hk)]
          exact ih
      · rw [Scopes.bindings_define_ne hkj]
        exact ih

/-- A name that no open block along the chain of a scope declares is seen from there as it was. -/
theorem Writes.get?_eq (h : Writes blocks σ σ')
    (hx : ∀ k ∈ σ.chain j, ∀ ss v, (ss, k) ∈ blocks → (x, v) ∉ Node.recordings ss) :
    σ'.get? j x = σ.get? j x := by
  refine (Scopes.get?_congr (fun k => (h.parent?_eq k).symm) fun k hk => ?_).symm
  refine ((h.get?_bindings k x).resolve_right ?_).symm
  rintro ⟨ss, v, hblock, hv, -⟩
  exact hx k hk ss v hblock hv

/-! ## Checks that write nothing -/

/-- A check that depends on the scopes only by the names that it reads leaves them as they are, also
where it fails. -/
theorem scopes_of_alike {y : Check α}
    (hy : ∀ S, Relates S (fun a => ∃ x, a = .read x) → Alike S [] y) (s : CheckState) :
    (lastState (y s)).scopes = s.scopes := by
  -- the scopes at the start stand beside themselves, and beside no others
  have hrelates : Relates (fun σ σ' => σ = s.scopes ∧ σ' = s.scopes) fun a => ∃ x, a = .read x := {
    read := fun _ hσ _ => by rw [hσ.1, hσ.2]
    define := fun hread => by
      obtain ⟨_, heq⟩ := hread
      cases heq }
  have hbeside : Beside (fun σ σ' => σ = s.scopes ∧ σ' = s.scopes) [] s s := ⟨⟨rfl, rfl⟩, rfl⟩
  have hsame := hy _ hrelates hbeside
  cases hys : y s with
  | ok | error =>
    rw [hys] at hsame
    exact hsame.2.scopes.1

theorem scopes_condition {c : Node} (hc : c.IsOperand) (s : CheckState) :
    (lastState (condition i c s)).scopes = s.scopes :=
  scopes_of_alike (fun _ h => alike_condition h hc.isRead) s

theorem scopes_initial {v : Node} (hv : v.IsOperand) (type : String) (s : CheckState) :
    (lastState (initial i type v s)).scopes = s.scopes :=
  scopes_of_alike (fun _ h => .ite (alike_initialNumber h _ _ hv.isRead)
    (.ite (alike_initialNumber h _ _ hv.isRead) (alike_initialTruth h hv.isRead))) s

/-! ## What the checks of statements write -/

/-- From `s`, the check reaches its last state by writes in open blocks, whether it ends with a
result or with a fault. -/
def WritesFrom (blocks : List (List Node × ScopeId)) (s : CheckState) (y : Check α) : Prop :=
  Writes blocks s.scopes (lastState (y s)).scopes

theorem writesFrom_of_scopes {y : Check α} {s : CheckState}
    (h : (lastState (y s)).scopes = s.scopes) : WritesFrom blocks s y := by
  rw [WritesFrom, h]
  exact .refl

theorem WritesFrom.of_ok {y : Check α} {s s' : CheckState} {a : α} (h : WritesFrom blocks s y)
    (hy : y s = .ok a s') : Writes blocks s.scopes s'.scopes := by
  rwa [WritesFrom, hy] at h

/-- One check after the other. -/
theorem WritesFrom.bind {y : Check α} {f : α → Check β} {s : CheckState}
    (hy : WritesFrom blocks s y)
    (hf : ∀ a s', y s = .ok a s' → WritesFrom blocks s' (f a)) : WritesFrom blocks s (y >>= f) := by
  cases hys : y s with
  | ok a s' =>
    rw [WritesFrom, EStateM.bind_of_ok hys]
    exact (hy.of_ok hys).trans (hf a s' hys)
  | error fault s' =>
    rw [WritesFrom, EStateM.bind_of_error hys]
    rwa [WritesFrom, hys] at hy

/-- **A declaration writes at most what it says**, into the scope of its block. -/
theorem writesFrom_declaration {ss : List Node} {type : String} {isMutable : Bool} {v : Node}
    (hblock : (ss, i) ∈ blocks) (hmem : .declaration x type isMutable v ∈ ss) (hv : v.IsOperand)
    (s : CheckState) : WritesFrom blocks s (declaration i (.declaration x type isMutable v)) := by
  by_cases htype : isChecked type
  · rw [declaration_eq htype]
    refine (writesFrom_of_scopes (scopes_initial hv type s)).bind fun fits s' _ => ?_
    cases fits with
    | true => exact .single (.define hblock (Node.mem_recordings hmem htype))
    | false => exact writesFrom_of_scopes rfl
  · rw [declaration_of_unchecked htype]
    exact writesFrom_of_scopes rfl

mutual

theorem writesFrom_program {scope : ScopeId} : ∀ {b : Node}, b.FormedBlock σ scope →
    b.openBlocks ⊆ blocks → ∀ s : CheckState, WritesFrom blocks s (program b)
  | .block ss i, ⟨_, hss⟩, hopen, s => by
    obtain ⟨hblock, hinner⟩ := List.cons_subset.mp hopen
    rw [program]
    exact writesFrom_statements hblock (List.Subset.refl ss) hss hinner s

/-- **The statements of a block, from any of them on, write only what declarations in open blocks
say.** -/
theorem writesFrom_statements {i : ScopeId} {ss : List Node} (hblock : (ss, i) ∈ blocks) :
    ∀ {rest : List Node}, rest ⊆ ss → Node.FormedAll σ i rest → Node.openBlocksAll rest ⊆ blocks →
      ∀ s : CheckState, WritesFrom blocks s (statements i rest)
  | [], _, _, _, s => writesFrom_of_scopes rfl
  | .declaration x t m v :: rest, hsub, ⟨⟨_, hv⟩, hrest⟩, hopen, s => by
    obtain ⟨hmem, hsub⟩ := List.cons_subset.mp hsub
    rw [statements]
    exact (writesFrom_declaration hblock hmem hv s).bind fun _ s' _ =>
      writesFrom_statements hblock hsub hrest hopen s'
  | .conditional bs o :: rest, hsub, ⟨⟨_, hbs, _⟩, hrest⟩, hopen, s => by
    obtain ⟨-, hsub⟩ := List.cons_subset.mp hsub
    obtain ⟨hbranches, hopen⟩ := List.append_subset.mp hopen
    rw [statements]
    exact (writesFrom_branches hbs hbranches s).bind fun _ s' _ =>
      writesFrom_statements hblock hsub hrest hopen s'
  | .assignment .. :: rest, hsub, ⟨_, hrest⟩, hopen, s
  | .call .. :: rest, hsub, ⟨_, hrest⟩, hopen, s
  | .breakLoop :: rest, hsub, ⟨_, hrest⟩, hopen, s
  | .continueLoop :: rest, hsub, ⟨_, hrest⟩, hopen, s
  | .loop .. :: rest, hsub, ⟨_, hrest⟩, hopen, s => by
    rw [statements_of_passedOver rfl]
    exact writesFrom_statements hblock (List.cons_subset.mp hsub).2 hrest hopen s

theorem writesFrom_branches {i : ScopeId} : ∀ {bs : List (Node × Node)},
    Node.FormedBranches σ i bs → Node.openBlocksBranches bs ⊆ blocks →
      ∀ s : CheckState, WritesFrom blocks s (branches i bs)
  | [], _, _, s => writesFrom_of_scopes rfl
  | (c, b) :: rest, ⟨hc, hb, hrest⟩, hopen, s => by
    obtain ⟨hblock, hopen⟩ := List.append_subset.mp hopen
    rw [branches]
    refine (writesFrom_of_scopes (scopes_condition hc s)).bind fun _ s' _ => ?_
    exact (writesFrom_program hb hblock s').bind fun _ s'' _ =>
      writesFrom_branches hrest hopen s''

end

/-! ## The states that a check comes to -/

/-- The blocks that the job has to do with are among the open ones. -/
def Job.IsAmong (blocks : List (List Node × ScopeId)) (σ : Scopes) : Job → Prop
  | .block n => ∃ ss i, (n = .program ss i ∨ n = .block ss i) ∧ Node.FormedAll σ i ss ∧
      n.openBlocks ⊆ blocks
  | .statements i rest => ∃ ss, (ss, i) ∈ blocks ∧ rest ⊆ ss ∧ Node.FormedAll σ i rest ∧
      Node.openBlocksAll rest ⊆ blocks
  | .branches i bs => Node.FormedBranches σ i bs ∧ Node.openBlocksBranches bs ⊆ blocks
  | .condition .. | .declaration .. => True

/-- A job that starts another one has only written in open blocks until then. -/
theorem Starts.writes {q q' : Job × CheckState} (h : Starts q q') (hq : q.1.IsAmong blocks σ) :
    q'.1.IsAmong blocks σ ∧ Writes blocks q.2.scopes q'.2.scopes := by
  cases h with
  | program | body =>
    obtain ⟨ss, i, heq, hss, hopen⟩ := hq
    obtain ⟨hblock, hinner⟩ := List.cons_subset.mp hopen
    rcases heq with heq | heq <;> cases heq
    exact ⟨⟨_, hblock, List.Subset.refl _, hss, hinner⟩, .refl⟩
  | declared | tested => exact ⟨trivial, .refl⟩
  | afterDeclaration hs' =>
    obtain ⟨ss, hblock, hsub, ⟨⟨_, hv⟩, hrest⟩, hopen⟩ := hq
    obtain ⟨hmem, hsub⟩ := List.cons_subset.mp hsub
    exact ⟨⟨ss, hblock, hsub, hrest, hopen⟩, (writesFrom_declaration hblock hmem hv _).of_ok hs'⟩
  | tried =>
    obtain ⟨ss, hblock, hsub, ⟨⟨_, hbs, _⟩, hrest⟩, hopen⟩ := hq
    exact ⟨⟨hbs, (List.append_subset.mp hopen).1⟩, .refl⟩
  | afterBranches hs' =>
    obtain ⟨ss, hblock, hsub, ⟨⟨_, hbs, _⟩, hrest⟩, hopen⟩ := hq
    obtain ⟨hbranches, hopen⟩ := List.append_subset.mp hopen
    exact ⟨⟨ss, hblock, (List.cons_subset.mp hsub).2, hrest, hopen⟩,
      (writesFrom_branches hbs hbranches _).of_ok hs'⟩
  | passedOver =>
    obtain ⟨ss, hblock, hsub, ⟨_, hrest⟩, hopen⟩ := hq
    exact ⟨⟨ss, hblock, (List.cons_subset.mp hsub).2, hrest, (List.append_subset.mp hopen).2⟩,
      .refl⟩
  | @branch _ _ b _ _ _ hs' =>
    obtain ⟨⟨hc, hb, -⟩, hopen⟩ := hq
    refine ⟨?_, (writesFrom_of_scopes (scopes_condition hc _)).of_ok hs'⟩
    cases b with
    | block ss i => exact ⟨ss, i, .inr rfl, hb.2, (List.append_subset.mp hopen).1⟩
    | _ => cases hb
  | otherBranches hs' hs'' =>
    obtain ⟨⟨hc, hb, hrest⟩, hopen⟩ := hq
    obtain ⟨hblock, hopen⟩ := List.append_subset.mp hopen
    refine ⟨⟨hrest, hopen⟩, ?_⟩
    exact ((writesFrom_of_scopes (scopes_condition hc _)).of_ok hs').trans
      ((writesFrom_program hb hblock _).of_ok hs'')

/-- All that a job leads to starts at a state that was reached by writes in open blocks. -/
theorem writes_of_starts {q q' : Job × CheckState} (h : Relation.ReflTransGen Starts q q')
    (hq : q.1.IsAmong blocks σ) :
    q'.1.IsAmong blocks σ ∧ Writes blocks q.2.scopes q'.2.scopes := by
  induction h with
  | refl => exact ⟨hq, .refl⟩
  | tail _ hstep ih =>
    obtain ⟨hjob, hwrites⟩ := hstep.writes ih.1
    exact ⟨hjob, ih.2.trans hwrites⟩

/-- From `s`, the check of the program comes to the state `t`: some job starts at it, or the check
ends in it, with a result or a fault. -/
def ComesTo (n : Node) (s t : CheckState) : Prop :=
  (∃ job, Relation.ReflTransGen Starts (.block n, s) (job, t)) ∨ t = lastState (program n s)

/-- Every state that the check of a program comes to is reached by writes in open blocks. -/
theorem ComesTo.writes {n : Node} (hn : IsParsed n σ) {s t : CheckState} (h : ComesTo n s t) :
    Writes n.openBlocks s.scopes t.scopes := by
  obtain ⟨tokens, p, hparse, hquiet, rfl⟩ := hn
  obtain ⟨ss, rfl, ⟨hss, -⟩, -⟩ := Parse.formed_of_parseProgram hparse hquiet
  rcases h with ⟨job, hstarts⟩ | rfl
  · exact (writes_of_starts hstarts ⟨ss, _, .inl rfl, hss, List.Subset.refl _⟩).2
  · rw [program]
    exact writesFrom_statements (List.mem_cons_self ..) (List.Subset.refl ss) hss
      (List.subset_cons_self ..) s

/-- In the order of the text, the scopes of a program have ascending numbers. -/
theorem scopeIds_pairwise_lt {n : Node} (hn : IsParsed n σ) : n.scopeIds.Pairwise (· < ·) := by
  obtain ⟨tokens, p, hparse, hquiet, rfl⟩ := hn
  obtain ⟨ss, rfl, ⟨-, hids, -⟩, -⟩ := Parse.formed_of_parseProgram hparse hquiet
  have hnumbers : (Node.program ss Scopes.root).scopeIds =
      List.range' 0 ((Node.scopeIdsAll ss).length + 1) := by
    rw [List.range'_succ]
    exact congrArg (Scopes.root :: ·) hids
  rw [hnumbers]
  exact List.pairwise_lt_range'

/-- No two open blocks share a scope, and no open block shares one with a closed one. -/
theorem scopes_of_blocks_nodup {n : Node} (hn : IsParsed n σ) :
    (Node.scopesOf n.openBlocks ++ n.closedScopes).Nodup :=
  (Node.scopesOf_openBlocks_perm n).nodup_iff.mpr
    ((scopeIds_pairwise_lt hn).imp fun hlt => Nat.ne_of_lt hlt)

/-- **What the checker may write.** Let a program be read without a report, and let its check, from
any scopes, come to some state. In the scope of an open block, each name is bound as it was at
first, or to the symbol of a declaration that stands directly in the block. The scopes of closed
blocks are as they were, and no scope lies in another one than before. So a name that only blocks
inside of an open block declare is seen from the open block as it was. -/
theorem check_writes_declarations {n : Node} (hn : IsParsed n σ) {s t : CheckState}
    (ht : ComesTo n s t) :
    (∀ ss j, (ss, j) ∈ n.openBlocks → ∀ x,
      (t.scopes.bindings j).get? x = (s.scopes.bindings j).get? x ∨
        ∃ v, (x, v) ∈ Node.recordings ss ∧ (t.scopes.bindings j).get? x = some v) ∧
    (∀ j ∈ n.closedScopes, t.scopes.bindings j = s.scopes.bindings j) ∧
    (∀ j, t.scopes.parent? j = s.scopes.parent? j) ∧
    (∀ ss j, (ss, j) ∈ n.openBlocks → ∀ x,
      (∀ ss' k v, (ss', k) ∈ n.openBlocks → (x, v) ∈ Node.recordings ss' →
        k ∈ Node.scopeIdsAll ss) →
      t.scopes.get? j x = s.scopes.get? j x) := by
  have hwrites := ht.writes hn
  obtain ⟨hopen, -, hdisjoint⟩ := List.nodup_append.mp (scopes_of_blocks_nodup hn)
  refine ⟨fun ss j hblock x => ?_, fun j hj => ?_, hwrites.parent?_eq, fun ss j hblock x hx => ?_⟩
  · refine (hwrites.get?_bindings j x).imp_right ?_
    rintro ⟨ss', v, hblock', hv, hx⟩
    cases List.inj_on_of_nodup_map hopen hblock hblock' rfl
    exact ⟨v, hv, hx⟩
  · exact hwrites.bindings_eq fun hmem => hdisjoint _ hmem _ hj rfl
  · refine hwrites.get?_eq fun k hk ss' v hblock' hv => ?_
    have hinside := hx ss' k v hblock' hv
    have hbefore := (scopeIds_pairwise_lt hn).sublist (Node.sublist_of_mem_openBlocks hblock)
    exact Nat.not_lt_of_le (Scopes.le_of_mem_chain hk) (List.rel_of_pairwise_cons hbefore hinside)

/-- Of each open block the number of its scope, the names that it can record, and the numbers of the
scopes in it. -/
def outlineOf (n : Node) : List (ScopeId × List String × List ScopeId) :=
  n.openBlocks.map fun block =>
    (block.2, (Node.recordings block.1).map Prod.fst, Node.scopeIdsAll block.1)

/-- A declaration, one more behind `if`, and one behind `else`. -/
def branchAndElse : String :=
  "var int x = 1\nif x == 1 \x7b\nvar int y = 2\n\x7d else \x7b\nvar int z = 3\n\x7d\n"

/-- After the check, `y` is bound in the block behind `if`, and seen from the program as before. The
block behind `else` is closed, and its scope has not changed. -/
theorem branchAndElse_writes :
    ∃ n σ, IsParsed n σ ∧
      ((lastState (program n ⟨σ, []⟩)).scopes.bindings 1).binds "y" = true ∧
      (lastState (program n ⟨σ, []⟩)).scopes.get? Scopes.root "y" = σ.get? Scopes.root "y" ∧
      n.closedScopes = [2] ∧
      (lastState (program n ⟨σ, []⟩)).scopes.bindings 2 = σ.bindings 2 := by
  have hread : ((Reading.ofSource false [] branchAndElse).program? false).map (fun p =>
      (outlineOf p.1, p.1.closedScopes,
        ((lastState (program p.1 ⟨p.2, []⟩)).scopes.bindings 1).binds "y")) =
      some ([(0, ["x"], [1, 2]), (1, ["y"], [])], [2], true) := by
    decide +kernel
  obtain ⟨p, hp, hsummary⟩ := Option.map_eq_some_iff.mp hread
  have houtline : outlineOf p.1 = [(0, ["x"], [1, 2]), (1, ["y"], [])] :=
    congrArg Prod.fst hsummary
  have hclosed : p.1.closedScopes = [2] := congrArg (fun q => q.2.1) hsummary
  have hbound := congrArg (fun q => q.2.2) hsummary
  have hparsed : IsParsed p.1 p.2 := isParsed_of_source hp
  obtain ⟨-, hkept, -, hseen⟩ :=
    check_writes_declarations hparsed (s := ⟨p.2, []⟩) (.inr rfl)
  refine ⟨p.1, p.2, hparsed, hbound, ?_, hclosed, hkept 2 (hclosed ▸ List.mem_singleton_self 2)⟩
  have hroot : (0, ["x"], [1, 2]) ∈ outlineOf p.1 := houtline ▸ List.mem_cons_self ..
  obtain ⟨⟨ss, j⟩, hblock, heq⟩ := List.mem_map.mp hroot
  have hj : j = 0 := congrArg Prod.fst heq
  have hids : Node.scopeIdsAll ss = [1, 2] := congrArg (fun q => q.2.2) heq
  subst hj
  refine hseen ss 0 hblock "y" fun ss' k v hblock' hy => ?_
  have hname : "y" ∈ (Node.recordings ss').map Prod.fst := List.mem_map_of_mem hy
  have hmem : (k, (Node.recordings ss').map Prod.fst, Node.scopeIdsAll ss') ∈ outlineOf p.1 :=
    List.mem_map_of_mem hblock'
  rw [houtline] at hmem
  rcases List.mem_cons.mp hmem with hfirst | hrest
  · have hnames : (Node.recordings ss').map Prod.fst = ["x"] := congrArg (fun q => q.2.1) hfirst
    rw [hnames] at hname
    exact absurd hname (by decide)
  · have hk : k = 1 := congrArg Prod.fst (List.mem_singleton.mp hrest)
    rw [hk, hids]
    decide

end Check

end Scriptlet
