import Scriptlet.Proofs.StatementSoundness

/-! # Recovery after a mistake

Reading a program is local. If a program ends with a semicolon, then what stands behind it is read as
if it stood alone; and if tokens in between make no sense, then they are passed over as a whole, with
one report and one empty node in their place (`parseProgram_recovers`).

The nodes of the second program are those that are read without the first one, with the same places.
Only the numbers of its scopes differ, since scopes are numbered in the order of the text: they go on
behind those of the first program, and both programs share the outermost one.
-/
namespace Scriptlet

open ParseState Parse

/-! ## Scopes that are opened later -/

/-- A scope, with the number of the one that it lies in changed. -/
def Frame.renumbered (f : ScopeId → ScopeId) (frame : Frame) : Frame :=
  { frame with parent := frame.parent.map f }

namespace Scopes

/-- The number that a scope gets if its program stands behind one with the scopes `base`. -/
def renumber (base : Scopes) (i : ScopeId) : ScopeId :=
  if i = root then root else i + (base.frames.size - 1)

/-- The scopes of two programs one behind the other. The outermost scope is shared. -/
def followedBy (base σ : Scopes) : Scopes :=
  ⟨(base.frames.toList ++ (σ.frames.toList.drop 1).map (Frame.renumbered base.renumber)).toArray⟩

variable {base σ : Scopes}

/-- Behind a program, no scope has been opened at first. -/
theorem followedBy_empty (base : Scopes) : base.followedBy {} = base := by
  simp [followedBy]

/-- **Opening a scope behind a program** opens it under its new number. -/
theorem openIn_followedBy (hbase : 0 < base.frames.size) (hσ : 0 < σ.frames.size) (scope : ScopeId) :
    (base.followedBy σ).openIn (base.renumber scope) =
      (base.followedBy (σ.openIn scope).1, base.renumber (σ.openIn scope).2) := by
  have hone : 1 ≤ σ.frames.toList.length := hσ
  have hnumber : σ.frames.size ≠ root := Nat.ne_of_gt hσ
  refine Prod.ext ?_ ?_
  · simp [openIn, followedBy, List.drop_append_of_le_length hone, Frame.renumbered]
  · simp only [openIn, followedBy, renumber, hnumber, if_false, List.size_toArray,
      List.length_append, List.length_map, List.length_drop, Array.length_toList]
    show base.frames.size + (σ.frames.size - 1) = σ.frames.size + (base.frames.size - 1)
    omega

end Scopes

mutual

/-- A statement, with the scopes of the blocks in it renumbered. Nothing but a statement holds a
block. -/
def Node.renumbered (f : ScopeId → ScopeId) : Node → Node
  | .conditional branches o => .conditional (Node.renumberedBranches f branches) (o.renumbered f)
  | .otherwise b => .otherwise (b.renumbered f)
  | .loop c b => .loop c (b.renumbered f)
  | .block ss i => .block (Node.renumberedAll f ss) (f i)
  | n => n

/-- Statements, with the scopes of the blocks in them renumbered. -/
def Node.renumberedAll (f : ScopeId → ScopeId) : List Node → List Node
  | [] => []
  | n :: ns => n.renumbered f :: Node.renumberedAll f ns

/-- Conditions and blocks, with the scopes renumbered. -/
def Node.renumberedBranches (f : ScopeId → ScopeId) : List (Node × Node) → List (Node × Node)
  | [] => []
  | (c, b) :: bs => (c, b.renumbered f) :: Node.renumberedBranches f bs

end

theorem Node.renumberedAll_append (f : ScopeId → ScopeId) (ns ss : List Node) :
    Node.renumberedAll f (ns ++ ss) = Node.renumberedAll f ns ++ Node.renumberedAll f ss := by
  induction ns with
  | nil => rfl
  | cons n ns ih => simp only [List.cons_append, Node.renumberedAll, ih]

mutual

/-- Whether a call is exposed does not depend on the numbers of scopes. -/
theorem Node.exposesCall_renumbered (f : ScopeId → ScopeId) :
    ∀ n : Node, (n.renumbered f).exposesCall = n.exposesCall
  | .conditional bs o => by
    simp only [Node.renumbered, Node.exposesCall, Node.exposesCallBranches_renumbered f bs,
      o.exposesCall_renumbered f]
  | .otherwise b => by simp only [Node.renumbered, Node.exposesCall, b.exposesCall_renumbered f]
  | .loop c b => by simp only [Node.renumbered, Node.exposesCall, b.exposesCall_renumbered f]
  | .block ss i => by
    simp only [Node.renumbered, Node.exposesCall, Node.exposesCallAny_renumbered f ss]
  | .empty _ | .literal .. | .identifier .. | .signed .. | .negation _ | .logic .. | .comparison ..
  | .arithmetic .. | .assignment .. | .declaration .. | .call .. | .program .. | .breakLoop
  | .continueLoop | .bare | .raw _ => by simp only [Node.renumbered]

theorem Node.exposesCallAny_renumbered (f : ScopeId → ScopeId) :
    ∀ ns : List Node, Node.exposesCallAny (Node.renumberedAll f ns) = Node.exposesCallAny ns
  | [] => rfl
  | n :: ns => by
    simp only [Node.renumberedAll, Node.exposesCallAny, n.exposesCall_renumbered f,
      Node.exposesCallAny_renumbered f ns]

theorem Node.exposesCallBranches_renumbered (f : ScopeId → ScopeId) : ∀ bs : List (Node × Node),
    Node.exposesCallBranches (Node.renumberedBranches f bs) = Node.exposesCallBranches bs
  | [] => rfl
  | (c, b) :: bs => by
    simp only [Node.renumberedBranches, Node.exposesCallBranches, b.exposesCall_renumbered f,
      Node.exposesCallBranches_renumbered f bs]

end

/-- A clause, with the scopes of the blocks in it renumbered. -/
def Clause.renumbered (f : ScopeId → ScopeId) : Clause → Clause
  | .statement isBare ns => .statement isBare (Node.renumberedAll f ns)
  | .branches before bs => .branches before (Node.renumberedBranches f bs)
  | .block b => .block (b.renumbered f)
  | .body ss => .body (Node.renumberedAll f ss)

/-- Declarations hold no blocks. -/
theorem Introduces.renumberedAll_eq {type : String} {isMutable isBare : Bool} {before : Pos}
    {seg : List Token} {ds : List Node} (h : Introduces type isMutable before seg isBare ds)
    (f : ScopeId → ScopeId) : Node.renumberedAll f ds = ds := by
  induction h with
  | initialised | bare => simp only [Node.renumberedAll, Node.renumbered]
  | initialisedMore hk ha value hcomma more ih | bareMore hk hcomma more ih =>
    simp only [Node.renumberedAll, Node.renumbered, ih]

/-- **A clause behind a program** is the same clause, with its scopes renumbered. -/
theorem Composes.followedBy (base : Scopes) (hbase : 0 < base.frames.size) {scope : ScopeId}
    {σ σ' : Scopes} {seg : List Token} {c : Clause} (h : Composes scope σ seg σ' c)
    (hσ : 0 < σ.frames.size) :
    0 < σ'.frames.size ∧ Composes (base.renumber scope) (base.followedBy σ) seg (base.followedBy σ')
      (c.renumbered base.renumber) := by
  induction h with
  | declaration hk ht declared =>
    refine ⟨hσ, ?_⟩
    rw [Clause.renumbered, declared.renumberedAll_eq]
    exact .declaration hk ht declared
  | call hk hl hr args => exact ⟨hσ, .call hk hl hr args⟩
  | assignment hk ha value => exact ⟨hσ, .assignment hk ha value⟩
  | update hk ha value => exact ⟨hσ, .update hk ha value⟩
  | conditional hk branches ih =>
    obtain ⟨hσ', hbranches⟩ := ih hσ
    exact ⟨hσ', .conditional hk hbranches⟩
  | conditionalElse hk branches ho otherwise ihb iho =>
    obtain ⟨hσ₁, hbranches⟩ := ihb hσ
    obtain ⟨hσ', hotherwise⟩ := iho hσ₁
    exact ⟨hσ', .conditionalElse hk hbranches ho hotherwise⟩
  | loop hk condition block ih =>
    obtain ⟨hσ', hblock⟩ := ih hσ
    exact ⟨hσ', .loop hk condition hblock⟩
  | endless hk block ih =>
    obtain ⟨hσ', hblock⟩ := ih hσ
    exact ⟨hσ', .endless hk hblock⟩
  | breakLoop hk => exact ⟨hσ, .breakLoop hk⟩
  | continueLoop hk => exact ⟨hσ, .continueLoop hk⟩
  | branch condition block ih =>
    obtain ⟨hσ', hblock⟩ := ih hσ
    exact ⟨hσ', .branch condition hblock⟩
  | branchMore condition block ho more ihb ihm =>
    obtain ⟨hσ₁, hblock⟩ := ihb hσ
    obtain ⟨hσ', hmore⟩ := ihm hσ₁
    exact ⟨hσ', .branchMore condition hblock ho hmore⟩
  | @block scope σ σ' l r seg ss hl hr body ih =>
    obtain ⟨hσ', hbody⟩ := ih (by simp [Scopes.openIn])
    refine ⟨hσ', ?_⟩
    have hopen := Scopes.openIn_followedBy hbase hσ scope
    have hblock : Composes (base.renumber scope) (base.followedBy σ) (l :: (seg ++ [r])) _
        (.block (.block _ ((base.followedBy σ).openIn (base.renumber scope)).2)) :=
      .block hl hr (by rw [hopen]; exact hbody)
    rw [hopen] at hblock
    exact hblock
  | nil => exact ⟨hσ, .nil⟩
  | semicolon hk rest ih =>
    obtain ⟨hσ', hrest⟩ := ih hσ
    exact ⟨hσ', .semicolon hk hrest⟩
  | cons first rest hbare ihf ihr =>
    obtain ⟨hσ₁, hfirst⟩ := ihf hσ
    obtain ⟨hσ', hrest⟩ := ihr hσ₁
    refine ⟨hσ', ?_⟩
    rw [Clause.renumbered, Node.renumberedAll_append]
    exact .cons hfirst hrest hbare

/-! ## Tokens that make no sense -/

/-- What is read of tokens that are passed over: nothing, if there are none, or an empty node. -/
def skippedNodes (p : Pos) (g : List Token) : List Node :=
  if g = [] then [] else [.empty p]

/-- What is reported of tokens that are passed over. -/
def skippedReports (p : Pos) (g : List Token) : List Diagnostic :=
  if g = [] then [] else [.grammar .unexpectedStatement p]

/-- A token that is passed over begins no statement, unless it is `break` or `continue`. -/
theorem kind_not_mem_of_not_stopsAt {t : Token} (ht : stopsAt t = false)
    (hword : t.kind ≠ .breakWord ∧ t.kind ≠ .continueWord) :
    t.kind ∉ [TokenKind.semicolon, .endOfFile, .varWord, .letWord, .identifier, .ifWord, .whileWord,
      .loopWord, .breakWord, .continueWord] := by
  intro hmem
  have hstops : stopsAt t = true ∨ t.kind = .breakWord ∨ t.kind = .continueWord := by
    simp only [List.mem_cons, List.not_mem_nil, or_false] at hmem
    simp only [stopsAt, Bool.or_eq_true, decide_eq_true_eq]
    rcases hmem with hk | hk | hk | hk | hk | hk | hk | hk | hk | hk <;> simp [hk, resumesAt]
  rcases hstops with hstops | hk | hk
  · rw [ht] at hstops
    cases hstops
  · exact hword.1 hk
  · exact hword.2 hk

/-- **Tokens that make no sense are passed over as a whole**, up to one at which reading can go on. -/
theorem programBody_skips {g : List Token} {w : Token} (hg : ∀ t ∈ g, stopsAt t = false)
    (hfirst : ∀ t ∈ g.head?, t.kind ≠ .breakWord ∧ t.kind ≠ .continueWord)
    (hw : stopsAt w = true) (done rest : List Token) (σ : Scopes) (rs : List Diagnostic) (n : Nat) :
    ∃ m, n ≤ m ∧ programBody (n + 2) (between done (g ++ w :: rest) σ rs) =
      (do return skippedNodes (placeBefore done (g ++ w :: rest)) g ++ (← programBody m))
        (between (done ++ g) (w :: rest) σ
          (rs ++ skippedReports (placeBefore done (g ++ w :: rest)) g)) := by
  cases g with
  | nil =>
    refine ⟨n + 2, by omega, ?_⟩
    simp only [skippedNodes, skippedReports, if_true, List.nil_append, List.append_nil, bind_pure]
  | cons t ts =>
    refine ⟨n + 1, by omega, ?_⟩
    have hk := kind_not_mem_of_not_stopsAt (hg t List.mem_cons_self) (hfirst t rfl)
    simp only [List.mem_cons, List.not_mem_nil, or_false, not_or] at hk
    obtain ⟨hsemicolon, hend, hvar, hlet, hname, hif, hwhile, hloop, hbreak, hcontinue⟩ := hk
    have hskip := declareError_append .unexpectedStatement done rest σ rs hg hw
    have hstatement : Parse.statement (n + 1) Scopes.root
        (between done (t :: ts ++ w :: rest) σ rs) =
        .ok [.empty (placeBefore done (t :: ts ++ w :: rest))]
          (between (done ++ t :: ts) (w :: rest) σ
            (rs ++ [.grammar .unexpectedStatement (placeBefore done (t :: ts ++ w :: rest))])) := by
      rw [List.cons_append] at hskip ⊢
      rw [statement_between, if_neg (by simp [hvar, hlet]), if_neg hname, if_neg hif, if_neg hwhile,
        if_neg hloop, if_neg hbreak, if_neg hcontinue, EStateM.bind_of_ok hskip]
      rfl
    rw [List.cons_append, programBody_between, if_neg hsemicolon, if_neg hend, ← List.cons_append,
      EStateM.bind_of_ok hstatement]
    simp [skippedNodes, skippedReports]

/-! ## Programs in a row -/

section
variable {tokens : List Token} {u : Token} {ns : List Node} {s : ParseState}

/-- The end up to which a program is read stands behind it or in it. -/
theorem eq_or_exists_of_append_end {body more : List Token} {w : Token}
    (hsplit : tokens ++ [u] = body ++ w :: more) :
    tokens = body ∨ ∃ skipped, tokens = body ++ w :: skipped := by
  rcases List.eq_nil_or_concat more with rfl | ⟨skipped, x, rfl⟩
  · exact .inl (List.append_inj' hsplit rfl).1
  · rw [List.concat_eq_append, ← List.cons_append, ← List.append_assoc] at hsplit
    exact .inr ⟨skipped, (List.append_inj' hsplit rfl).1⟩

/-- A program without an end in it is read as a whole. -/
theorem composes_of_parseProgram
    (h : parseProgram (tokens ++ [u]) = .ok (.program ns Scopes.root) s) (hquiet : s.reports = [])
    (hwhole : ∀ t ∈ tokens, t.kind ≠ .endOfFile) :
    Composes Scopes.root {} tokens s.scopes (.body ns) ∧ Node.exposesCallAny ns = false := by
  obtain ⟨body, w, more, σ, ss, hsplit, hw, hns, rfl, hcomposes, hexposes⟩ :=
    exists_composes_of_parseProgram h hquiet
  obtain ⟨rfl, -⟩ := Node.program.inj hns
  rcases eq_or_exists_of_append_end hsplit with rfl | ⟨skipped, rfl⟩
  · exact ⟨hcomposes, hexposes⟩
  · exact absurd hw (hwhole w (by simp))

/-- **A program can stand behind other ones**, and before another end: its nodes are the same then,
with their scopes renumbered. -/
theorem exists_composes_behind
    (h : parseProgram (tokens ++ [u]) = .ok (.program ns Scopes.root) s) (hquiet : s.reports = [])
    {last : Token} (hlast : last.kind = .endOfFile) {σ : Scopes} (hσ : 0 < σ.frames.size) :
    ∃ body w more, tokens ++ [last] = body ++ w :: more ∧ w.kind = .endOfFile ∧
      Composes Scopes.root σ body (σ.followedBy s.scopes)
        (.body (Node.renumberedAll σ.renumber ns)) ∧
      Node.exposesCallAny (Node.renumberedAll σ.renumber ns) = false := by
  obtain ⟨body, w, more, σ', ss, hsplit, hw, hns, rfl, hcomposes, hexposes⟩ :=
    exists_composes_of_parseProgram h hquiet
  obtain ⟨rfl, -⟩ := Node.program.inj hns
  have hmoved := (hcomposes.followedBy σ hσ Nat.one_pos).2
  rw [Scopes.followedBy_empty] at hmoved
  rw [← Node.exposesCallAny_renumbered σ.renumber] at hexposes
  rcases eq_or_exists_of_append_end hsplit with rfl | ⟨skipped, rfl⟩
  · exact ⟨tokens, last, [], rfl, hlast, hmoved, hexposes⟩
  · exact ⟨body, w, skipped ++ [last], by simp, hw, hmoved, hexposes⟩

end

/-- Two programs and tokens that make no sense between them, as the grammar composes them, are read
one after the other. -/
theorem Composes.parseProgram_skips {pre g body more : List Token} {w : Token} {σ τ : Scopes}
    {ns ms : List Node} (hpre : Composes Scopes.root {} pre σ (.body ns))
    (hends : ∀ t ∈ pre.getLast?, t.kind = .semicolon) (hns : Node.exposesCallAny ns = false)
    (hg : ∀ t ∈ g, stopsAt t = false)
    (hfirst : ∀ t ∈ g.head?, t.kind ≠ .breakWord ∧ t.kind ≠ .continueWord)
    (hbody : Composes Scopes.root σ body τ (.body ms)) (hms : Node.exposesCallAny ms = false)
    (hw : w.kind = .endOfFile) (hstop : ∀ t ∈ (body ++ w :: more).head?, stopsAt t = true) :
    let p := placeBefore pre (g ++ (body ++ w :: more))
    parseProgram (pre ++ (g ++ (body ++ w :: more))) =
      .ok (.program (ns ++ (skippedNodes p g ++ ms)) Scopes.root)
        (between (pre ++ g ++ body) (w :: more) τ (skippedReports p g)) := by
  intro p
  obtain ⟨y, ys, hy⟩ : ∃ y ys, body ++ w :: more = y :: ys := List.exists_cons_of_ne_nil (by simp)
  replace hstop : stopsAt y = true := hstop y (by rw [hy]; rfl)
  obtain ⟨x, xs, hx⟩ : ∃ x xs, g ++ y :: ys = x :: xs := List.exists_cons_of_ne_nil (by simp)
  have hlength : body.length < (y :: ys).length := by
    rw [← hy, List.length_append, List.length_cons]
    omega
  -- the first program
  obtain ⟨m, hm, hread⟩ := hpre.programBody_goesOn (u := x) rfl rfl (.inr hends) [] xs []
    (show _ ≤ programBudget (pre ++ (g ++ y :: ys)).length by
      simp only [programBudget, List.length_append]
      omega)
  replace hread := hread.eq hns
  simp only [programBudget, List.length_append] at hm
  -- what stands in between
  obtain ⟨k, rfl⟩ : ∃ k, m = k + 2 := ⟨m - 2, by omega⟩
  obtain ⟨m', hm', hskips⟩ := programBody_skips hg hfirst hstop pre ys σ [] k
  rw [List.nil_append, ← hy] at hskips
  -- the second program
  have hrest : programBody m' (between (pre ++ g) (body ++ w :: more) σ (skippedReports p g)) = _ :=
    (hbody.programBody_becomes hw (by omega)).eq hms
  have hbehind : programBody (k + 2) (between pre (g ++ (body ++ w :: more)) σ []) =
      .ok (skippedNodes p g ++ ms)
        (between (pre ++ g ++ body) (w :: more) τ (skippedReports p g)) := by
    rw [hskips, EStateM.bind_of_ok hrest]
    rfl
  rw [← hx, List.nil_append, ← hy, EStateM.bind_of_ok hbehind] at hread
  rw [Parse.parseProgram_eq, EStateM.bind_of_ok hread]
  rfl

/-- **Recovery is local.** Let a program without an end in it be read without a report, and let it be
empty or end with a semicolon; let another one be read without a report, and let it be empty or begin
with a token at which reading can go on; and let tokens stand in between at which reading cannot go on,
of which the first is neither `break` nor `continue`. Then the statements of both programs are read,
with an empty node between them and a single report, if there is anything in between. -/
theorem parseProgram_recovers {pre g post : List Token} {u v last : Token} {ns ms : List Node}
    {s₁ s₂ : ParseState}
    (hpre : parseProgram (pre ++ [u]) = .ok (.program ns Scopes.root) s₁) (hquiet₁ : s₁.reports = [])
    (hwhole : ∀ t ∈ pre, t.kind ≠ .endOfFile) (hends : ∀ t ∈ pre.getLast?, t.kind = .semicolon)
    (hg : ∀ t ∈ g, stopsAt t = false)
    (hfirst : ∀ t ∈ g.head?, t.kind ≠ .breakWord ∧ t.kind ≠ .continueWord)
    (hpost : parseProgram (post ++ [v]) = .ok (.program ms Scopes.root) s₂)
    (hquiet₂ : s₂.reports = []) (hresumes : ∀ t ∈ post.head?, resumesAt t.kind = true)
    (hlast : last.kind = .endOfFile) :
    let p := placeBefore pre (g ++ (post ++ [last]))
    ∃ s, parseProgram (pre ++ (g ++ (post ++ [last]))) = .ok (.program
          (ns ++ (skippedNodes p g ++ Node.renumberedAll s₁.scopes.renumber ms)) Scopes.root) s ∧
      s.reports = skippedReports p g ∧ s.scopes = s₁.scopes.followedBy s₂.scopes := by
  obtain ⟨hcomposes₁, hexposes₁⟩ := composes_of_parseProgram hpre hquiet₁ hwhole
  have hσ : 0 < s₁.scopes.frames.size := (hcomposes₁.followedBy {} Nat.one_pos Nat.one_pos).1
  obtain ⟨body, w, more, hrest, hw, hcomposes₂, hexposes₂⟩ :=
    exists_composes_behind hpost hquiet₂ hlast hσ
  -- reading goes on at the second program, or at the end
  have hstop : ∀ t ∈ (post ++ [last]).head?, stopsAt t = true := by
    intro t ht
    cases post with
    | nil =>
      cases ht
      simp [stopsAt, hlast]
    | cons y ys => simp [stopsAt, hresumes t ht]
  rw [hrest] at hstop ⊢
  exact ⟨_, hcomposes₁.parseProgram_skips hends hexposes₁ hg hfirst hcomposes₂ hexposes₂ hw hstop,
    rfl, rfl⟩

/-- The tokens of `loop {break};`. -/
def brokenLoop : List Token :=
  [⟨.loopWord, .text "loop", ⟨1, 0⟩⟩, ⟨.leftBrace, .text "\x7b", ⟨1, 5⟩⟩,
   ⟨.breakWord, .text "break", ⟨1, 6⟩⟩, ⟨.rightBrace, .text "\x7d", ⟨1, 11⟩⟩,
   ⟨.semicolon, .text ";", ⟨1, 12⟩⟩]

/-- The node of `loop {break};`, with the scope of its block. -/
def brokenLoopNode (scope : ScopeId) : Node :=
  .loop (.literal .bool (.bool true) ⟨1, 0⟩) (.block [.breakLoop] scope)

/-- The tokens of `+}`, at which no statement begins. -/
def plusAndBrace : List Token :=
  [⟨.plus, .text "+", ⟨1, 13⟩⟩, ⟨.rightBrace, .text "\x7d", ⟨1, 14⟩⟩]

/-- The loop is read on both sides of the stray tokens, which are reported once. -/
theorem plusAndBrace_recovered :
    ∃ s₁ s, parseProgram (brokenLoop ++ [.endOfFile]) =
        .ok (.program [brokenLoopNode 1] Scopes.root) s₁ ∧ s₁.reports = [] ∧
      parseProgram (brokenLoop ++ (plusAndBrace ++ (brokenLoop ++ [.endOfFile]))) =
        .ok (.program [brokenLoopNode 1, .empty ⟨1, 12⟩, brokenLoopNode 2] Scopes.root) s ∧
      s.reports = [.grammar .unexpectedStatement ⟨1, 12⟩] := by
  obtain ⟨s₁, hread, hquiet, hscopes⟩ : ∃ s, parseProgram (brokenLoop ++ [.endOfFile]) =
      .ok (.program [brokenLoopNode 1] Scopes.root) s ∧ s.reports = [] ∧ s.scopes.frames.size = 2 :=
    ⟨_, by with_unfolding_all rfl, by with_unfolding_all rfl, by with_unfolding_all rfl⟩
  obtain ⟨s, hrecovers, hreports, -⟩ := parseProgram_recovers (g := plusAndBrace) hread hquiet
    (by decide) (by decide) (by decide) (by decide) hread hquiet (by decide)
    (show Token.endOfFile.kind = _ from rfl)
  have hnumber : s₁.scopes.renumber 1 = 2 := by
    rw [Scopes.renumber, hscopes]
    rfl
  simp only [brokenLoopNode, Node.renumberedAll, Node.renumbered, hnumber] at hrecovers
  exact ⟨s₁, s, hread, hquiet, hrecovers, hreports⟩

/-- The end of a text and a semicolon behind it. -/
def hiddenEnd : List Token :=
  [.endOfFile, ⟨.semicolon, .text ";", ⟨1, 0⟩⟩]

/-- Behind an end nothing is read, so stray tokens there are not even reported. -/
theorem hiddenEnd_not_recovered :
    (∃ s, parseProgram (hiddenEnd ++ [.endOfFile]) = .ok (.program [] Scopes.root) s ∧
      s.reports = []) ∧
    (∀ t ∈ hiddenEnd.getLast?, t.kind = .semicolon) ∧ plusAndBrace ≠ [] ∧
    (∀ t ∈ plusAndBrace, stopsAt t = false) ∧
    (∀ t ∈ plusAndBrace.head?, t.kind ≠ .breakWord ∧ t.kind ≠ .continueWord) ∧
    (∃ s, parseProgram [.endOfFile] = .ok (.program [] Scopes.root) s ∧ s.reports = []) ∧
    ∃ s, parseProgram (hiddenEnd ++ (plusAndBrace ++ [.endOfFile])) =
      .ok (.program [] Scopes.root) s ∧ s.reports = [] := by
  refine ⟨?_, by decide, by decide, by decide, by decide, ?_, ?_⟩
  all_goals exact ⟨_, by with_unfolding_all rfl, by with_unfolding_all rfl⟩

end Scriptlet
