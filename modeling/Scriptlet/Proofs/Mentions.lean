import Scriptlet.Node
import Scriptlet.Proofs.ScopeNames

/-! # The names that a program mentions

A program mentions a name where it reads a variable, assigns to one or declares one. Of scopes, only
what they bind such names to can matter for the program. Two scopes *agree* on some names if both
bind the same of them, in the same places and to the same values (`Scopes.AgreeOn`); and scopes are
*kept* but for some names if nothing has happened to them except that such names have got other
values (`Scopes.KeptBut`).
-/
namespace Scriptlet

/-! ## Mentions -/

/-- How a program mentions a name. -/
inductive Mention where
  /-- As a variable in an expression. -/
  | read (name : String)
  /-- As the target of an assignment. -/
  | assigned (name : String)
  /-- As the name of a declared variable. -/
  | declared (name : String)
deriving DecidableEq, Repr

/-- The name that is mentioned. -/
def Mention.name : Mention → String
  | read x | assigned x | declared x => x

namespace Node

mutual

/-- All mentions of names in a node. -/
def mentions : Node → List Mention
  | identifier x _ => [.read x]
  | signed _ o => mentions o
  | negation o => mentions o
  | logic _ l r => mentions l ++ mentions r
  | comparison _ l r => mentions l ++ mentions r
  | arithmetic _ l r => mentions l ++ mentions r
  | assignment x v => .assigned x :: mentions v
  | declaration x _ _ v => .declared x :: mentions v
  | call _ es => mentionsAll es
  | otherwise b => mentions b
  | conditional bs o => mentionsBranches bs ++ mentions o
  | loop c b => mentions c ++ mentions b
  | block ss _ => mentionsAll ss
  | program ss _ => mentionsAll ss
  | _ => []

/-- All mentions of names in a list of nodes. -/
def mentionsAll : List Node → List Mention
  | [] => []
  | n :: rest => mentions n ++ mentionsAll rest

/-- All mentions of names in the conditions and blocks of a list of branches. -/
def mentionsBranches : List (Node × Node) → List Mention
  | [] => []
  | (c, b) :: rest => mentions c ++ (mentions b ++ mentionsBranches rest)

end

end Node

/-! ## Scopes that agree on some names -/

theorem Bindings.names_put {b : Bindings} {x : String} (h : b.binds x = true) (v : Value) :
    (b.put x v).map Prod.fst = b.map Prod.fst := by
  obtain ⟨before, w, after, hsplit, -, hput⟩ := put_of_binds h v
  rw [hput, hsplit, List.map_append, List.map_append, List.map_cons, List.map_cons]

namespace Scopes

variable {σ σ' τ τ' : Scopes} {N : String → Prop} {x : String}

/-- Both scopes lie in the same way, and bind the given names to the same values. -/
structure AgreeOn (N : String → Prop) (σ σ' : Scopes) : Prop where
  size : σ.frames.size = σ'.frames.size
  parent : ∀ i, σ.parent? i = σ'.parent? i
  value : ∀ i x, N x → (σ.bindings i).get? x = (σ'.bindings i).get? x

theorem AgreeOn.owner?_eq (h : AgreeOn N σ σ') (hx : N x) (i : ScopeId) :
    σ.owner? i x = σ'.owner? i x :=
  owner?_congr h.parent fun k _ => h.value k x hx

/-- A name on which the scopes agree has the same value in both. -/
theorem AgreeOn.get?_eq (h : AgreeOn N σ σ') (hx : N x) (i : ScopeId) :
    σ.get? i x = σ'.get? i x :=
  get?_congr h.parent fun k _ => h.value k x hx

/-- Scopes go on to agree when a name is bound in both. -/
theorem AgreeOn.define (h : AgreeOn N σ σ') (i : ScopeId) (x : String) (v : Value) :
    AgreeOn N (σ.define i x v) (σ'.define i x v) where
  size := by
    rw [Scopes.define, Scopes.define, Array.size_modify, Array.size_modify]
    exact h.size
  parent j := by
    rw [parent?_define, parent?_define]
    exact h.parent j
  value j y hy := by
    by_cases hij : i = j
    · subst hij
      by_cases hi : i < σ.frames.size
      · rw [bindings_define_self hi, bindings_define_self (h.size ▸ hi), Bindings.get?_put,
          Bindings.get?_put, h.value i y hy]
      · have hsize : σ.frames.size ≤ i := Nat.le_of_not_lt hi
        rw [define_of_size_le hsize, define_of_size_le (h.size ▸ hsize)]
        exact h.value i y hy
    · rw [bindings_define_ne hij, bindings_define_ne hij]
      exact h.value j y hy

/-- Scopes go on to agree when a name on which they do is assigned to in both. -/
theorem AgreeOn.assign (h : AgreeOn N σ σ') (hx : N x) (i : ScopeId) (v : Value) :
    AgreeOn N (σ.assign i x v) (σ'.assign i x v) := by
  rw [Scopes.assign, Scopes.assign, h.owner?_eq hx i]
  cases σ'.owner? i x with
  | some j => exact h.define j x v
  | none => exact h

/-! ## Scopes in which some names have got other values -/

/-- The same names are bound in the same scopes and in the same order, and they have the same values
but for the given ones. -/
structure KeptBut (T : String → Prop) (σ σ' : Scopes) : Prop where
  names : ∀ i, (σ'.bindings i).map Prod.fst = (σ.bindings i).map Prod.fst
  value : ∀ i x, ¬T x → (σ'.bindings i).get? x = (σ.bindings i).get? x

theorem KeptBut.refl (T : String → Prop) (σ : Scopes) : KeptBut T σ σ :=
  ⟨fun _ => rfl, fun _ _ _ => rfl⟩

/-- An assignment to one of the given names. -/
theorem KeptBut.assign {T : String → Prop} (h : KeptBut T σ σ') (hx : T x) (i : ScopeId)
    (v : Value) : KeptBut T σ (σ'.assign i x v) := by
  rw [Scopes.assign]
  cases howner : σ'.owner? i x with
  | none => exact h
  | some j =>
    have hbinds : (σ'.bindings j).binds x = true := binds_of_owner? howner
    have hj : j < σ'.frames.size := lt_size_of_binds hbinds
    constructor
    · intro k
      by_cases hjk : j = k
      · subst hjk
        rw [bindings_define_self hj, Bindings.names_put hbinds]
        exact h.names j
      · rw [bindings_define_ne hjk]
        exact h.names k
    · intro k y hy
      by_cases hjk : j = k
      · subst hjk
        have hyx : y ≠ x := fun heq => hy (heq ▸ hx)
        rw [bindings_define_self hj, Bindings.get?_put, if_neg hyx]
        exact h.value j y hy
      · rw [bindings_define_ne hjk]
        exact h.value k y hy

end Scopes

end Scriptlet
