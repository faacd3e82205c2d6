import Scriptlet.Proofs.Mentions

/-! # The laws of a chain of scopes

A name is looked for along the chain of a scope, and the innermost scope of the chain that binds it
is the one that counts: its value is read there, and an assignment changes it there. Binding a name
in the scope at the head of the chain hides whatever the scopes around it bind the name to; an
assignment does nothing but to change the value of one entry (`Scopes.ChangesEntry`), and nothing
at all if no scope of the chain binds the name. So the bindings that are hidden by an inner one are
never changed.

Reading a name, asking whether it is bound and giving it another value can each be said without the
chain, from a scope to the one around it (`Scopes.IsNested`).
-/
namespace Scriptlet

namespace Scopes

variable {σ : Scopes} {i j k : ScopeId} {x y : String} {v : Value}

/-! ## Chains -/

/-- Each scope of a chain was opened after those around it. -/
theorem pairwise_chain (σ : Scopes) (i : ScopeId) : (σ.chain i).Pairwise (· > ·) := by
  induction i using Nat.strongRecOn with
  | ind i ih =>
    rw [chain]
    split
    · rename_i p hp
      split
      · rename_i hlt
        exact List.pairwise_cons.mpr
          ⟨fun k hk => Nat.lt_of_le_of_lt (le_of_mem_chain hk) hlt, ih p hlt⟩
      · exact List.pairwise_singleton _ _
    · exact List.pairwise_singleton _ _

/-- The innermost scope that binds a name, with the scopes of the chain inside and outside of it. -/
theorem owner?_eq_some_iff : σ.owner? i x = some j ↔ (σ.bindings j).binds x = true ∧
    ∃ inner outer, σ.chain i = inner ++ j :: outer ∧
      ∀ k ∈ inner, (σ.bindings k).binds x = false := by
  rw [owner?, List.find?_eq_some_iff_append]
  simp only [Bool.not_eq_true']

/-- A name that a scope binds itself is found there. -/
theorem owner?_of_binds (h : (σ.bindings i).binds x = true) : σ.owner? i x = some i := by
  rw [owner?, chain]
  exact List.find?_cons_of_pos (p := fun j => (σ.bindings j).binds x) h

/-! ## From a scope to the one around it -/

/-- All scopes lie in scopes that were opened before them. -/
def IsNested (σ : Scopes) : Prop :=
  ∀ i p, σ.parent? i = some p → p < i

theorem isNested_empty : ({} : Scopes).IsNested := by
  intro i p hp
  cases i with
  | zero => cases hp
  | succ i => cases hp

theorem IsNested.openIn (h : σ.IsNested) (hi : i < σ.frames.size) : (σ.openIn i).1.IsNested := by
  intro k p hp
  have hframe : (σ.openIn i).1.frames[k]? =
      if k = σ.frames.size then some { parent := some i } else σ.frames[k]? :=
    Array.getElem?_push
  rw [parent?, hframe] at hp
  by_cases hk : k = σ.frames.size
  · rw [if_pos hk] at hp
    cases hp
    exact hk ▸ hi
  · rw [if_neg hk] at hp
    exact h k p hp

theorem IsNested.define (h : σ.IsNested) (j : ScopeId) (x : String) (v : Value) :
    (σ.define j x v).IsNested := by
  intro k p hp
  rw [parent?_define] at hp
  exact h k p hp

theorem IsNested.assign (h : σ.IsNested) (i : ScopeId) (x : String) (v : Value) :
    (σ.assign i x v).IsNested := by
  rw [Scopes.assign]
  split
  · exact h.define _ x v
  · exact h

/-- A name that a scope does not bind itself is found where it is found from the scope around. -/
theorem IsNested.owner?_of_not_binds (h : σ.IsNested) (hx : (σ.bindings i).binds x = false) :
    σ.owner? i x = (σ.parent? i).bind fun p => σ.owner? p x := by
  have hskip : ¬ (σ.bindings i).binds x = true := by rw [hx]; exact Bool.false_ne_true
  rw [owner?, chain, List.find?_cons_of_neg (p := fun j => (σ.bindings j).binds x) hskip]
  cases hp : σ.parent? i with
  | none => rfl
  | some p =>
    show List.find? _ (if p < i then σ.chain p else []) = _
    rw [if_pos (h i p hp)]
    rfl

/-- **Reading a name**: its value in the scope itself if that binds it, and else the value that it
has in the scope around, if there is one. -/
theorem IsNested.get?_eq (h : σ.IsNested) (i : ScopeId) (x : String) :
    σ.get? i x = if (σ.bindings i).binds x then (σ.bindings i).get? x
      else (σ.parent? i).bind fun p => σ.get? p x := by
  cases hx : (σ.bindings i).binds x with
  | true =>
    rw [get?, owner?_of_binds hx]
    rfl
  | false =>
    rw [get?, h.owner?_of_not_binds hx]
    cases σ.parent? i <;> rfl

/-- **Whether a name is bound**: in the scope itself, or else as seen from the scope around. -/
theorem IsNested.binds_eq (h : σ.IsNested) (i : ScopeId) (x : String) :
    σ.binds i x = ((σ.bindings i).binds x || (σ.parent? i).any fun p => σ.binds p x) := by
  cases hx : (σ.bindings i).binds x with
  | true =>
    rw [binds, owner?_of_binds hx]
    rfl
  | false =>
    rw [binds, h.owner?_of_not_binds hx]
    cases σ.parent? i <;> rfl

/-- **Giving a name another value**: in the scope itself if that binds it, and else as from the
scope around; without one nothing is done. -/
theorem IsNested.assign_eq (h : σ.IsNested) (i : ScopeId) (x : String) (v : Value) :
    σ.assign i x v = if (σ.bindings i).binds x then σ.define i x v
      else (σ.parent? i).elim σ fun p => σ.assign p x v := by
  cases hx : (σ.bindings i).binds x with
  | true =>
    rw [Scopes.assign, owner?_of_binds hx]
    rfl
  | false =>
    rw [Scopes.assign, h.owner?_of_not_binds hx]
    cases σ.parent? i <;> rfl

/-! ## Binding a name -/

/-- Other names read as before, wherever a name is bound and from wherever they are seen. -/
theorem get?_define_of_ne (hy : y ≠ x) : (σ.define j x v).get? k y = σ.get? k y := by
  refine get?_congr (parent?_define σ j x v) fun l _ => ?_
  by_cases hjl : j = l
  · subst hjl
    by_cases hj : j < σ.frames.size
    · rw [bindings_define_self hj, Bindings.get?_put, if_neg hy]
    · rw [define_of_size_le (Nat.le_of_not_lt hj)]
  · rw [bindings_define_ne hjl]

/-- What is seen from a scope does not depend on the scopes that were opened after it. -/
theorem get?_define_of_lt (h : k < j) : (σ.define j x v).get? k y = σ.get? k y := by
  refine get?_congr (parent?_define σ j x v) fun l hl => ?_
  rw [chain_define] at hl
  rw [bindings_define_ne (Nat.ne_of_gt (Nat.lt_of_le_of_lt (le_of_mem_chain hl) h))]

/-- The name is then read where it was bound. -/
theorem get?_define_of_owner (hj : j < σ.frames.size)
    (h : (σ.define j x v).owner? i x = some j) : (σ.define j x v).get? i x = some v := by
  rw [get?, h]
  show ((σ.define j x v).bindings j).get? x = some v
  rw [bindings_define_self hj, Bindings.get?_put, if_pos rfl]

theorem get?_define_self (hi : i < σ.frames.size) : (σ.define i x v).get? i x = some v := by
  refine get?_define_of_owner hi (owner?_of_binds ?_)
  rw [bindings_define_self hi, Bindings.binds, Bindings.get?_put, if_pos rfl]
  rfl

/-! ## Giving a name another value -/

/-- The scopes are the same, but for the value of one entry: that of the name `x` in the scope `j`.
-/
structure ChangesEntry (σ σ' : Scopes) (j : ScopeId) (x : String) (v : Value) : Prop where
  size : σ'.frames.size = σ.frames.size
  parents : ∀ k, σ'.parent? k = σ.parent? k
  others : ∀ k, k ≠ j → σ'.bindings k = σ.bindings k
  entry : ∃ before w after, σ.bindings j = before ++ (x, w) :: after ∧
    (∀ e ∈ before, e.1 ≠ x) ∧ σ'.bindings j = before ++ (x, v) :: after

theorem changesEntry_define (h : (σ.bindings j).binds x = true) (v : Value) :
    ChangesEntry σ (σ.define j x v) j x v where
  size := by rw [define, Array.size_modify]
  parents := parent?_define σ j x v
  others _ hk := bindings_define_ne (Ne.symm hk)
  entry := by
    obtain ⟨before, w, after, hsplit, hbefore, hput⟩ := Bindings.put_of_binds h v
    exact ⟨before, w, after, hsplit, hbefore,
      by rw [bindings_define_self (lt_size_of_binds h), hput]⟩

/-- The scope in which a name is found stays the same when its value changes. -/
theorem owner?_define_of_owner (h : σ.owner? i x = some j) :
    (σ.define j x v).owner? i x = some j := by
  obtain ⟨hj, inner, outer, hchain, hinner⟩ := owner?_eq_some_iff.mp h
  refine owner?_eq_some_iff.mpr ⟨?_, inner, outer, by rw [chain_define, hchain], fun k hk => ?_⟩
  · rw [bindings_define_self (lt_size_of_binds hj), Bindings.binds, Bindings.get?_put, if_pos rfl]
    rfl
  · have hkj : j ≠ k := by
      rintro rfl
      exact absurd ((hinner j hk).symm.trans hj) Bool.false_ne_true
    rw [bindings_define_ne hkj]
    exact hinner k hk

theorem assign_of_owner (h : σ.owner? i x = some j) : σ.assign i x v = σ.define j x v := by
  rw [assign, h]

theorem assign_of_not_binds (h : σ.binds i x = false) : σ.assign i x v = σ := by
  rw [binds, Option.isSome_eq_false_iff, Option.isNone_iff_eq_none] at h
  rw [assign, h]

/-- What an assignment to a name that is bound does: it changes one entry, that of the name in the
innermost scope `j` that binds it. The scopes around `j` are as they were, and so is all that is
seen from them. -/
structure AssignsAt (σ : Scopes) (i : ScopeId) (x : String) (v : Value) (inner : List ScopeId)
    (j : ScopeId) (outer : List ScopeId) : Prop where
  chain : σ.chain i = inner ++ j :: outer
  unbound : ∀ k ∈ inner, (σ.bindings k).binds x = false
  bound : (σ.bindings j).binds x = true
  changes : ChangesEntry σ (σ.assign i x v) j x v
  hidden : ∀ k ∈ outer, (σ.assign i x v).bindings k = σ.bindings k ∧
    ∀ y, (σ.assign i x v).get? k y = σ.get? k y

theorem exists_assignsAt (h : σ.binds i x = true) (v : Value) :
    ∃ inner j outer, AssignsAt σ i x v inner j outer := by
  obtain ⟨j, howner⟩ := Option.isSome_iff_exists.mp h
  obtain ⟨hj, inner, outer, hchain, hinner⟩ := owner?_eq_some_iff.mp howner
  have hassign : σ.assign i x v = σ.define j x v := assign_of_owner howner
  refine ⟨inner, j, outer, hchain, hinner, hj, hassign ▸ changesEntry_define hj v, fun k hk => ?_⟩
  have hlt : k < j := by
    have hsorted := pairwise_chain σ i
    rw [hchain] at hsorted
    exact List.rel_of_pairwise_cons (List.pairwise_append.mp hsorted).2.1 hk
  rw [hassign]
  exact ⟨bindings_define_ne (Nat.ne_of_gt hlt), fun y => get?_define_of_lt hlt⟩

theorem get?_assign_self (h : σ.binds i x = true) (v : Value) :
    (σ.assign i x v).get? i x = some v := by
  obtain ⟨j, howner⟩ := Option.isSome_iff_exists.mp h
  rw [assign_of_owner howner]
  exact get?_define_of_owner (lt_size_of_binds (binds_of_owner? howner))
    (owner?_define_of_owner howner)

theorem get?_assign_of_ne (hy : y ≠ x) : (σ.assign i x v).get? k y = σ.get? k y := by
  rw [assign]
  split
  · exact get?_define_of_ne hy
  · rfl

/-- **The laws of a chain of scopes.** A name that is bound in the scope at the head of the chain
is read there with its value, and every other name as before. An assignment binds no name and keeps
the order of the names in every scope; no other name is read otherwise, from wherever it is seen.
If the name is bound, its value is then the new one, and that of one entry of the innermost scope
that binds it is all that has changed, so bindings of the name further out stay as they are; if it
is not bound, nothing has changed. -/
theorem reads_after_writes (σ : Scopes) {i : ScopeId} (hi : i < σ.frames.size) (x : String)
    (v : Value) :
    ((σ.define i x v).get? i x = some v ∧ (σ.define i x v).binds i x = true ∧
      ∀ y, y ≠ x → (σ.define i x v).get? i y = σ.get? i y ∧
        (σ.define i x v).binds i y = σ.binds i y) ∧
    (∀ k y, (σ.assign i x v).binds k y = σ.binds k y) ∧
    (∀ k, ((σ.assign i x v).bindings k).map Prod.fst = (σ.bindings k).map Prod.fst) ∧
    (∀ k y, y ≠ x → (σ.assign i x v).get? k y = σ.get? k y) ∧
    (σ.binds i x = true → (σ.assign i x v).get? i x = some v ∧
      ∃ inner j outer, AssignsAt σ i x v inner j outer) ∧
    (σ.binds i x = false → σ.assign i x v = σ) := by
  refine ⟨⟨get?_define_self hi, ?_, fun y hy => ⟨get?_define_of_ne hy, ?_⟩⟩, binds_assign σ i x v,
    ((KeptBut.refl (· = x) σ).assign rfl i v).names, fun k y hy => get?_assign_of_ne hy,
    fun h => ⟨get?_assign_self h v, exists_assignsAt h v⟩, assign_of_not_binds⟩
  · rw [binds_eq_isSome_get?, get?_define_self hi]
    rfl
  · rw [binds_eq_isSome_get?, binds_eq_isSome_get?, get?_define_of_ne hy]

/-- Three scopes, one inside the other. The outer two bind `x`, the innermost one binds nothing. -/
def hiddenX : Scopes :=
  ⟨#[{ bindings := [("x", .int 1)] },
    { parent := some 0, bindings := [("y", .int 2), ("x", .int 3)] }, { parent := some 1 }]⟩

theorem chain_hiddenX : hiddenX.chain 2 = [2, 1, 0] := by
  have hparent : hiddenX.parent? 2 = some 1 ∧ hiddenX.parent? 1 = some 0 ∧
      hiddenX.parent? 0 = none := ⟨rfl, rfl, rfl⟩
  rw [chain, hparent.1]
  show 2 :: hiddenX.chain 1 = _
  rw [chain, hparent.2.1]
  show 2 :: 1 :: hiddenX.chain 0 = _
  rw [chain, hparent.2.2]

/-- An assignment from the innermost scope changes the binding in the middle, and not the outer one
that it hides. -/
theorem hiddenX_reads_after_writes : 2 < hiddenX.frames.size ∧ hiddenX.binds 2 "x" = true ∧
    (hiddenX.define 2 "x" (.int 5)).get? 2 "x" = some (.int 5) ∧ "y" ≠ "x" ∧
    (hiddenX.assign 2 "x" (.int 4)).get? 2 "y" = hiddenX.get? 2 "y" ∧
    (hiddenX.assign 2 "x" (.int 4)).get? 2 "x" = some (.int 4) ∧
    AssignsAt hiddenX 2 "x" (.int 4) [2] 1 [0] ∧ hiddenX.binds 2 "z" = false ∧
    hiddenX.assign 2 "z" (.int 4) = hiddenX := by
  have hsize : 2 < hiddenX.frames.size := by decide
  have hx : hiddenX.binds 2 "x" = true := by
    rw [binds, owner?, chain_hiddenX]
    rfl
  have hz : hiddenX.binds 2 "z" = false := by
    rw [binds, owner?, chain_hiddenX]
    rfl
  obtain ⟨⟨hread, -⟩, -⟩ := reads_after_writes hiddenX hsize "x" (.int 5)
  obtain ⟨-, -, -, hother, hbound, -⟩ := reads_after_writes hiddenX hsize "x" (.int 4)
  obtain ⟨-, -, -, -, -, hunbound⟩ := reads_after_writes hiddenX hsize "z" (.int 4)
  obtain ⟨hassigned, inner, j, outer, hat⟩ := hbound hx
  refine ⟨hsize, hx, hread, by decide, hother 2 "y" (by decide), hassigned, ?_, hz, hunbound hz⟩
  -- of the chain, the scope in the middle is the first that binds the name
  have hchain : inner ++ j :: outer = [2, 1, 0] := hat.chain.symm.trans chain_hiddenX
  rcases inner with _ | ⟨a, _ | ⟨b, inner⟩⟩
  · cases hchain
    exact absurd hat.bound (by decide)
  · cases hchain
    exact hat
  · have hb : b = 1 := (List.cons.inj (List.cons.inj hchain).2).1
    have hmem : 1 ∈ a :: b :: inner := by simp [hb]
    exact absurd (hat.unbound 1 hmem) (by decide)

end Scopes

end Scriptlet
