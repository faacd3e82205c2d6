import Scriptlet.Proofs.RunRules

/-! # Two runs side by side

Two runs of one program are compared by a relation between their scopes. What does not look at the
scopes keeps the two machines beside each other, whatever the relation is. So there are only two
things to be shown of a relation: that a variable which is read has the same value on both sides,
and that an assignment made on both sides keeps the scopes related. Both may rest on what is known
of the job at hand, as long as it is passed on to the jobs that are started (`Run.Relates`).
-/
namespace Scriptlet.Run

variable {α : Type}

/-! ## Machines -/

/-- Both machines show the same to the outside. -/
structure ShowsSame (m m' : Machine) : Prop where
  input : m'.input = m.input
  output : m'.output = m.output
  reports : m'.reports = m.reports

/-- Both machines show the same, and their scopes are related. -/
structure Beside (S : Scopes → Scopes → Prop) (m m' : Machine) : Prop extends ShowsSame m m' where
  scopes : S m.scopes m'.scopes

variable {S : Scopes → Scopes → Prop} {m m' : Machine}

theorem ShowsSame.eq_withScopes (h : ShowsSame m m') : m' = m.withScopes m'.scopes := by
  obtain ⟨scopes', input', output', reports'⟩ := m'
  obtain ⟨rfl, rfl, rfl⟩ := h
  rfl

theorem Blind.scopes_lastState {x : Run α} (h : Blind x) (m : Machine) :
    (lastState (x m)).scopes = m.scopes := by
  have hself : x m = onState (Machine.withScopes · m.scopes) (x m) := h m.scopes m
  rw [hself]
  cases x m <;> rfl

/-- What does not look at the scopes keeps two machines beside each other. -/
theorem Blind.beside {x : Run α} (h : Blind x) (hm : Beside S m m') :
    SameOutcome (Beside S) (x m) (x m') := by
  have hscopes := h.scopes_lastState m
  rw [hm.eq_withScopes, h m'.scopes m]
  cases hx : x m with
  | ok a m₁ =>
    rw [hx] at hscopes
    exact ⟨rfl, ⟨rfl, rfl, rfl⟩, hscopes ▸ hm.scopes⟩
  | error f m₁ =>
    rw [hx] at hscopes
    exact ⟨rfl, ⟨rfl, rfl, rfl⟩, hscopes ▸ hm.scopes⟩

/-- An assignment on both sides. -/
theorem Beside.assign (h : Beside S m m') {i : ScopeId} {x : String} {v : Value}
    (hS : S (m.scopes.assign i x v) (m'.scopes.assign i x v)) :
    Beside S { m with scopes := m.scopes.assign i x v }
      { m' with scopes := m'.scopes.assign i x v } :=
  ⟨⟨h.input, h.output, h.reports⟩, hS⟩

/-! ## Runs -/

/-- Related scopes stay related in two runs, as far as the jobs of the first one are `Fit`: a
variable that such a job reads has the same value on both sides, and what it assigns to may be
assigned to on both. -/
structure Relates (budget : Nat) (S : Scopes → Scopes → Prop) (Fit : Job × Machine → Prop) :
    Prop where
  starts : ∀ {q q'}, Fit q → Starts budget q q' → Fit q'
  read : ∀ {i x p m σ'}, Fit (.value i (.identifier x p), m) → S m.scopes σ' →
    m.scopes.get? i x = σ'.get? i x
  assign : ∀ {i x e m} (v : Value) {σ σ'}, Fit (.one i (.assignment x e), m) → S σ σ' →
    S (σ.assign i x v) (σ'.assign i x v)

/-- The part of a fit job does the same in both runs. -/
def Relates.Agrees (S : Scopes → Scopes → Prop) (Fit : Job × Machine → Prop) {α : Type}
    (q : Job × Machine) (m : Machine) (x : Run α) : Prop :=
  Fit q → ∀ m', Beside S m m' → SameOutcome (Beside S) (x m) (x m')

namespace Relates

variable {budget : Nat} {Fit : Job × Machine → Prop}

/-- What a fit job does by itself it does in both runs. -/
theorem act (h : Relates budget S Fit) {q : Job × Machine} {act : Act} (hdoes : Does q (act, m)) :
    Agrees S Fit q m act.run := by
  intro hfit m' hm
  cases hdoes with
  | read =>
    show SameOutcome (Beside S) (.ok ((m.scopes.get? _ _).getD .absent) m)
      (.ok ((m'.scopes.get? _ _).getD .absent) m')
    rw [h.read hfit hm.scopes]
    exact ⟨rfl, hm⟩
  | call => exact (blind_builtin _ _).beside hm
  | operate => exact (blind_arithmetic _ _ _ _).beside hm
  | negate => exact (blind_negation _).beside hm
  | assign => exact ⟨rfl, hm.assign (h.assign _ hfit hm.scopes)⟩

theorem rules (h : Relates budget S Fit) : Rules budget (Agrees S Fit) where
  ofExcept _ _ _ hm := (blind_ofExcept _).beside hm
  bind hx hf hfit m' hm := (hx hfit m' hm).bind fun a m₁ m₁' ha _ hm₁ => hf a m₁ ha hfit m₁' hm₁
  start hstart hjob hfit m' hm := hjob (h.starts hfit hstart) m' hm
  act hdoes := h.act hdoes

/-- **A program does the same in both runs**, if its scopes stay related. -/
theorem program (h : Relates budget S Fit) (n : Node) (hm : Beside S m m')
    (hfit : Fit (.program n, m)) :
    SameOutcome (Beside S) (Run.program budget n m) (Run.program budget n m') :=
  h.rules.program n hfit m' hm

end Relates

end Scriptlet.Run
