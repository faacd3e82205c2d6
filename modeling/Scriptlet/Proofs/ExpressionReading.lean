import Scriptlet.Proofs.ExpressionSoundness
import Scriptlet.Proofs.ExpressionCompleteness

/-! # Reading an expression at any place of a list of tokens

Soundness and completeness, put together for the reader that starts anywhere in a list of tokens
with the budget that it has in a program: it reads exactly the grammar, with the right node.
-/
namespace Scriptlet

open ParseState

variable {done rest : List Token} {σ : Scopes} {rs : List Diagnostic} {l : Level} {e : Node}

/-- The budget of a reader that starts at some place of a list of tokens. -/
theorem Parse.expressionAt_between :
    expressionAt l (between done rest σ rs) =
      expression (programBudget (done ++ rest).length) l (between done rest σ rs) := by
  rw [← List.size_toArray]
  rfl

/-- What is read without a report is derived from the tokens that were read. -/
theorem Parse.derives_of_expressionAt {s : ParseState} (hend : EndsOnce (done ++ rest))
    (hs : ∀ t ∈ rest, t.Shaped) (hr : rest ≠ [])
    (h : expressionAt l (between done rest σ rs) = .ok e s) (hrs : s.reports = rs) :
    ∃ seg rest', rest = seg ++ rest' ∧ rest' ≠ [] ∧ s = between (done ++ seg) rest' σ rs ∧
      Derives (placeBefore done rest) seg (.expression l e) := by
  rw [expressionAt_between] at h
  obtain ⟨seg, rest', new, hreach, hd⟩ := (SoundWithin.all _).expression l h
  have hstate := hreach.state
  obtain rfl : new = [] := by
    rw [hstate] at hrs
    exact List.append_right_eq_self.mp hrs
  rw [List.append_nil] at hstate
  have hspans := (hd rfl).1
  -- the mark of the end stands in no expression
  have hne : rest' ≠ [] := by
    rintro rfl
    obtain ⟨t, ht, hk⟩ := (hend.of_append hr).exists_mem
    rw [hreach.split, List.append_nil] at ht
    have hin := hspans.inExpression t ht
    rw [hk] at hin
    cases hin
  have hseg : ∀ t ∈ seg, t.Shaped :=
    fun t ht => hs t (hreach.split ▸ List.mem_append_left _ ht)
  exact ⟨seg, rest', hreach.split, hne, hstate, hspans.derives hseg⟩

/-- What the tokens derive is read, if the token behind does not go on with it. -/
theorem Parse.expressionAt_of_derives {seg : List Token} {t : Token} (hs : ∀ t ∈ seg, t.Shaped)
    (h : Derives (placeBefore done (seg ++ t :: rest)) seg (.expression l e))
    (he : e.exposesCall = false) (ht : ¬ t.kind.extendsLevel l) :
    expressionAt l (between done (seg ++ t :: rest) σ rs) =
      .ok e (between (done ++ seg) (t :: rest) σ rs) := by
  have hbudget : expressionBudget l seg ≤ programBudget (done ++ (seg ++ t :: rest)).length := by
    simp only [expressionBudget, programBudget, List.length_append, List.length_cons]
    omega
  rw [expressionAt_between]
  exact ((h.spans hs).isRead.completes ht σ rs rfl hbudget).eq he

/-- **The reader of expressions accepts exactly its grammar, with the right node.** Let the tokens
`done ++ rest` end once and be shaped, and let reading start before `rest`. What it returns without
a report is derived from the tokens that it passed over. And if the next tokens derive a node in
which no call is exposed, and neither an operator nor an opening parenthesis follows them, then it
returns that node, has passed over exactly those tokens, and reports nothing. -/
theorem Parse.expressionAt_reads_exactly_derived (hend : EndsOnce (done ++ rest))
    (hs : ∀ t ∈ done ++ rest, t.Shaped) (hr : rest ≠ []) (σ : Scopes) (rs : List Diagnostic) :
    (∀ e s, expressionAt .disjunction (between done rest σ rs) = .ok e s → s.reports = rs →
      ∃ seg rest', rest = seg ++ rest' ∧ rest' ≠ [] ∧ s = between (done ++ seg) rest' σ rs ∧
        Derives (placeBefore done rest) seg (.expression .disjunction e)) ∧
    (∀ e seg t rest', rest = seg ++ t :: rest' →
      Derives (placeBefore done rest) seg (.expression .disjunction e) → e.exposesCall = false →
      t.kind ≠ .leftParen → (∀ op : Operator, t.kind ≠ op.kind) →
      expressionAt .disjunction (between done rest σ rs) =
        .ok e (between (done ++ seg) (t :: rest') σ rs)) := by
  constructor
  · intro e s h hrs
    exact derives_of_expressionAt hend (fun t ht => hs t (List.mem_append_right _ ht)) hr h hrs
  · rintro e seg t rest' rfl hd he hparen hop
    exact expressionAt_of_derives (fun u hu => hs u (by simp [hu])) hd he
      (TokenKind.not_extendsLevel hparen hop _)

/-- The tokens of `7 - 2 - f(x)`. -/
def differenceTokens : List Token :=
  [⟨.number, .int 7, ⟨2, 0⟩⟩, ⟨.minus, .text "-", ⟨2, 2⟩⟩, ⟨.number, .int 2, ⟨2, 4⟩⟩,
    ⟨.minus, .text "-", ⟨2, 6⟩⟩, ⟨.identifier, .text "f", ⟨2, 8⟩⟩, ⟨.leftParen, .text "(", ⟨2, 9⟩⟩,
    ⟨.identifier, .text "x", ⟨2, 10⟩⟩, ⟨.rightParen, .text ")", ⟨2, 11⟩⟩]

/-- The node of `7 - 2 - f(x)`. -/
def differenceNode : Node :=
  .arithmetic .sub
    (.arithmetic .sub (.literal .int (.int 7) ⟨2, 0⟩) (.literal .int (.int 2) ⟨2, 4⟩))
    (.call "f" [.identifier "x" ⟨2, 10⟩])

theorem derives_differenceNode (before : Pos) :
    Derives before differenceTokens (.expression .disjunction differenceNode) := by
  have hcall : Derives ⟨2, 6⟩ (differenceTokens.drop 4)
      (.expression .primitive (.call "f" [.identifier "x" ⟨2, 10⟩])) :=
    .call rfl rfl rfl rfl (.last ((Derives.name rfl rfl).weaken (by decide)) :
      Derives _ [⟨.identifier, .text "x", ⟨2, 10⟩⟩] _)
  have hfirst : Derives before (differenceTokens.take 3) (.expression .sum (.arithmetic .sub
      (.literal .int (.int 7) ⟨2, 0⟩) (.literal .int (.int 2) ⟨2, 4⟩))) :=
    .join .sub ((Derives.integer rfl rfl).weaken (by decide) :
      Derives before (differenceTokens.take 1) _) rfl
      ((Derives.integer rfl rfl).weaken (by decide))
  have hboth : Derives before differenceTokens (.expression .sum differenceNode) :=
    .join .sub hfirst rfl (hcall.weaken (by decide))
  exact hboth.weaken (by decide)

/-- Behind `y =` and before a semicolon, `7 - 2 - f(x)` is read as the difference of a difference
and a call. -/
theorem Parse.expressionAt_difference :
    let done : List Token := [⟨.identifier, .text "y", ⟨1, 0⟩⟩, ⟨.assign, .text "=", ⟨1, 2⟩⟩]
    let rest : List Token := [⟨.semicolon, .text ";", ⟨2, 13⟩⟩, ⟨.endOfFile, .nothing, ⟨2, 14⟩⟩]
    expressionAt .disjunction (between done (differenceTokens ++ rest) {} []) =
      .ok differenceNode (between (done ++ differenceTokens) rest {} []) := by
  intro done rest
  have hend : EndsOnce (done ++ (differenceTokens ++ rest)) :=
    ⟨done ++ (differenceTokens ++ rest.take 1), _, rfl, rfl, by decide⟩
  have hs : ∀ t ∈ done ++ (differenceTokens ++ rest), t.Shaped := by
    simp only [done, rest, differenceTokens, List.cons_append, List.nil_append,
      List.forall_mem_cons]
    exact ⟨⟨_, rfl⟩, ⟨_, rfl, rfl⟩, .inl ⟨_, rfl⟩, ⟨_, rfl, rfl⟩, .inl ⟨_, rfl⟩, ⟨_, rfl, rfl⟩,
      ⟨_, rfl⟩, ⟨_, rfl, rfl⟩, ⟨_, rfl⟩, ⟨_, rfl, rfl⟩, ⟨_, rfl, rfl⟩, rfl,
      fun _ h => nomatch h⟩
  exact (expressionAt_reads_exactly_derived hend hs (by decide) {} []).2 differenceNode
    differenceTokens _ _ rfl (derives_differenceNode _) rfl (by decide)
    (by intro op; cases op <;> decide)

end Scriptlet
