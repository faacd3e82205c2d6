import Scriptlet.Scope

/-! # Which names are bound

What binding a name and giving it another value do to the names that are bound: binding adds a name
in one scope, and an assignment adds none anywhere. Where scopes lie does not change.
-/
namespace Scriptlet

theorem Bindings.get?_put (b : Bindings) (x y : String) (v : Value) :
    (b.put x v).get? y = if y = x then some v else b.get? y := by
  induction b with
  | nil =>
    show List.lookup y [(x, v)] = _
    rw [List.lookup_cons]
    by_cases hyx : y = x
    · rw [if_pos hyx, hyx, beq_self_eq_true]
    · rw [if_neg hyx, beq_false_of_ne hyx]
      rfl
  | cons entry rest ih =>
    obtain ⟨n, w⟩ := entry
    rw [put]
    split
    · rename_i hn
      subst hn
      show List.lookup y ((n, v) :: rest) = if y = n then some v else List.lookup y ((n, w) :: rest)
      rw [List.lookup_cons, List.lookup_cons]
      by_cases hyn : y = n
      · rw [if_pos hyn, hyn, beq_self_eq_true]
      · rw [if_neg hyn, beq_false_of_ne hyn]
    · rename_i hn
      show List.lookup y ((n, w) :: Bindings.put x v rest) =
        if y = x then some v else List.lookup y ((n, w) :: rest)
      rw [List.lookup_cons, List.lookup_cons]
      by_cases hyn : y = n
      · have hyx : y ≠ x := fun h => hn (hyn.symm.trans h)
        rw [if_neg hyx, hyn, beq_self_eq_true]
      · rw [beq_false_of_ne hyn]
        exact ih

/-- A name that is bound keeps its place among the others when it is bound again. -/
theorem Bindings.put_of_binds {b : Bindings} {x : String} (h : b.binds x = true) (v : Value) :
    ∃ before w after, b = before ++ (x, w) :: after ∧ (∀ entry ∈ before, entry.1 ≠ x) ∧
      b.put x v = before ++ (x, v) :: after := by
  induction b with
  | nil => cases h
  | cons entry rest ih =>
    obtain ⟨n, w⟩ := entry
    by_cases hn : n = x
    · refine ⟨[], w, rest, by rw [hn]; rfl, fun _ hmem => absurd hmem List.not_mem_nil, ?_⟩
      rw [put, if_pos hn]
      rfl
    · have hrest : Bindings.binds rest x = true := by
        change (List.lookup x ((n, w) :: rest)).isSome = true at h
        rwa [List.lookup_cons, beq_false_of_ne (Ne.symm hn)] at h
      obtain ⟨before, u, after, hsplit, hbefore, hput⟩ := ih hrest
      refine ⟨(n, w) :: before, u, after, by rw [hsplit]; rfl, ?_, ?_⟩
      · intro entry hmem
        rcases List.mem_cons.mp hmem with rfl | hmem
        · exact hn
        · exact hbefore entry hmem
      · rw [put, if_neg hn, hput]
        rfl

namespace Scopes

variable {σ : Scopes} {i j : ScopeId} {x y : String} {v w : Value}

theorem parent?_define (σ : Scopes) (i : ScopeId) (x : String) (v : Value) (j : ScopeId) :
    (σ.define i x v).parent? j = σ.parent? j := by
  rw [parent?, parent?, define, Array.getElem?_modify]
  by_cases hij : i = j
  · rw [if_pos hij]
    cases σ.frames[j]? <;> rfl
  · rw [if_neg hij]

/-- Scopes that lie in the same way have the same chains. -/
theorem chain_congr {σ σ' : Scopes} (h : ∀ i, σ.parent? i = σ'.parent? i) (j : ScopeId) :
    σ.chain j = σ'.chain j := by
  induction j using Nat.strongRecOn with
  | ind j ih =>
    rw [chain, chain, h]
    cases σ'.parent? j with
    | none => rfl
    | some p =>
      show j :: (if p < j then _ else _) = j :: if p < j then _ else _
      split
      · rw [ih p ‹_›]
      · rfl

theorem chain_define (σ : Scopes) (i : ScopeId) (x : String) (v : Value) (j : ScopeId) :
    (σ.define i x v).chain j = σ.chain j :=
  chain_congr (parent?_define σ i x v) j

/-- A chain goes from the inside to the outside, where the scopes have been opened before. -/
theorem le_of_mem_chain {k : ScopeId} (h : k ∈ σ.chain j) : k ≤ j := by
  induction j using Nat.strongRecOn with
  | ind j ih =>
    rw [chain] at h
    rcases List.mem_cons.mp h with rfl | hmem
    · exact Nat.le_refl k
    · split at hmem
      · split at hmem
        · rename_i hlt
          exact Nat.le_trans (ih _ hlt hmem) (Nat.le_of_lt hlt)
        · cases hmem
      · cases hmem

/-- Another scope binds what it bound before. -/
theorem bindings_define_ne (hij : i ≠ j) : (σ.define i x v).bindings j = σ.bindings j := by
  rw [bindings, bindings, define, Array.getElem?_modify, if_neg hij]

/-- A scope that is there binds the name. -/
theorem bindings_define_self (hi : i < σ.frames.size) :
    (σ.define i x v).bindings i = (σ.bindings i).put x v := by
  rw [bindings, bindings, define, Array.getElem?_modify, if_pos rfl, Array.getElem?_eq_getElem hi]
  rfl

/-- A scope that is not there binds nothing. -/
theorem bindings_of_size_le (hi : σ.frames.size ≤ i) : σ.bindings i = [] := by
  rw [bindings, Array.getElem?_eq_none hi]

/-- Nothing is bound in a scope that is not there. -/
theorem define_of_size_le (hi : σ.frames.size ≤ i) : σ.define i x v = σ := by
  refine congrArg Scopes.mk (Array.ext_getElem? fun j => ?_)
  rw [Array.getElem?_modify]
  split
  · rename_i hij
    rw [Array.getElem?_eq_none (hij ▸ hi)]
    rfl
  · rfl

theorem lt_size_of_binds (h : (σ.bindings i).binds x = true) : i < σ.frames.size := by
  refine Nat.lt_of_not_le fun hi => ?_
  rw [bindings_of_size_le hi] at h
  cases h

/-- What a scope binds after a name has been bound, it has bound before or binds now. -/
theorem get?_bindings_define (h : ((σ.define i x v).bindings j).get? y = some w) :
    (σ.bindings j).get? y = some w ∨ w = v := by
  by_cases hij : i = j
  · subst hij
    by_cases hi : i < σ.frames.size
    · rw [bindings_define_self hi, Bindings.get?_put] at h
      split at h
      · cases h
        exact .inr rfl
      · exact .inl h
    · rw [define_of_size_le (Nat.le_of_not_lt hi)] at h
      exact .inl h
  · rw [bindings_define_ne hij] at h
    exact .inl h

/-- A name has a value, seen from a scope, if some scope binds it to that value. -/
theorem exists_bindings_of_get? (h : σ.get? i x = some v) :
    ∃ j, (σ.bindings j).get? x = some v := by
  obtain ⟨j, -, hj⟩ := Option.bind_eq_some_iff.mp h
  exact ⟨j, hj⟩

/-- Which scope a name is found in depends on what the scopes of the chain bind it to. -/
theorem owner?_congr {σ σ' : Scopes} (hparent : ∀ k, σ.parent? k = σ'.parent? k)
    (h : ∀ k ∈ σ.chain i, (σ.bindings k).get? x = (σ'.bindings k).get? x) :
    σ.owner? i x = σ'.owner? i x := by
  rw [owner?, owner?, ← chain_congr hparent, ← List.head?_filter, ← List.head?_filter]
  exact congrArg List.head? (List.filter_congr fun k hk => congrArg Option.isSome (h k hk))

/-- So does its value. -/
theorem get?_congr {σ σ' : Scopes} (hparent : ∀ k, σ.parent? k = σ'.parent? k)
    (h : ∀ k ∈ σ.chain i, (σ.bindings k).get? x = (σ'.bindings k).get? x) :
    σ.get? i x = σ'.get? i x := by
  rw [get?, get?, ← owner?_congr hparent h]
  cases hk : σ.owner? i x with
  | none => rfl
  | some k => exact h k (List.mem_of_find?_eq_some hk)

/-! ## Scopes of symbols -/

/-- All names are bound to symbols. -/
def HoldsSymbols (σ : Scopes) : Prop :=
  ∀ i x v, (σ.bindings i).get? x = some v → ∃ symbol, v = .symbol symbol

theorem HoldsSymbols.get? (h : σ.HoldsSymbols) (hv : σ.get? i x = some v) :
    ∃ symbol, v = .symbol symbol := by
  obtain ⟨j, hj⟩ := exists_bindings_of_get? hv
  exact h j x v hj

theorem HoldsSymbols.define (h : σ.HoldsSymbols) (i : ScopeId) (x : String) (symbol : Symbol) :
    (σ.define i x (.symbol symbol)).HoldsSymbols := by
  intro j y w hw
  rcases get?_bindings_define hw with hold | rfl
  · exact h j y w hold
  · exact ⟨symbol, rfl⟩

/-! ## Assignments -/

/-- The scope in which a name is found binds it. -/
theorem binds_of_owner? (h : σ.owner? i x = some j) : (σ.bindings j).binds x = true := by
  have hfound := List.find?_some h
  exact hfound

theorem binds_eq_isSome_get? (σ : Scopes) (i : ScopeId) (x : String) :
    σ.binds i x = (σ.get? i x).isSome := by
  rw [binds, get?]
  cases howner : σ.owner? i x with
  | none => rfl
  | some j => exact (binds_of_owner? howner).symm

theorem get?_of_not_binds (h : σ.binds i x = false) : σ.get? i x = none := by
  rw [binds_eq_isSome_get?, Option.isSome_eq_false_iff, Option.isNone_iff_eq_none] at h
  exact h

/-- An assignment binds no new name. -/
theorem binds_assign (σ : Scopes) (i : ScopeId) (x : String) (v : Value) (j : ScopeId)
    (y : String) : (σ.assign i x v).binds j y = σ.binds j y := by
  rw [assign]
  cases howner : σ.owner? i x with
  | none => rfl
  | some k =>
    have hx : (σ.bindings k).binds x = true := binds_of_owner? howner
    have hk : k < σ.frames.size := lt_size_of_binds hx
    have hsame : ∀ l, ((σ.define k x v).bindings l).binds y = (σ.bindings l).binds y := by
      intro l
      by_cases hkl : k = l
      · subst hkl
        rw [bindings_define_self hk, Bindings.binds, Bindings.get?_put]
        split
        · rename_i hyx
          rw [hyx, hx]
          rfl
        · rfl
      · rw [bindings_define_ne hkl]
    show ((σ.define k x v).owner? j y).isSome = (σ.owner? j y).isSome
    rw [owner?, owner?, chain_define]
    simp only [hsame]

end Scopes

end Scriptlet
