import Scriptlet.Proofs.ChecksAlike
import Scriptlet.Proofs.FlatStore
import Scriptlet.Proofs.SideBySide

/-! # Names that do not matter

A variable that a program does not mention makes no difference to its check or its run, and is left
as it is. All a job does to the scopes is to read and to assign to names that it mentions, and a job
that it starts mentions no others (`Run.Starts.mentions_subset`). So two runs in scopes that agree
on these names go on side by side; and a run beside itself shows that only values of names that are
assigned to have changed.
-/
namespace Scriptlet

namespace Run

/-! ## What jobs mention -/

/-- All mentions of names in what a job is about. -/
def Job.mentions : Job → List Mention
  | value _ e => e.mentions
  | arguments _ es => Node.mentionsAll es
  | one _ s => s.mentions
  | statements _ ss => Node.mentionsAll ss
  | program n => n.mentions
  | top _ ss => Node.mentionsAll ss
  | block b => b.mentions
  | branches bs => Node.mentionsBranches bs
  | lastPart o => o.mentions
  | rounds c b _ => c.mentions ++ b.mentions

theorem mentions_of_statements {n : Node} {ss : List Node} (h : n.statements = .ok ss) :
    n.mentions = Node.mentionsAll ss := by
  cases n <;> cases h <;> rw [Node.mentions]

/-- A job that is started mentions nothing new. -/
theorem Starts.mentions_subset {budget : Nat} {q q' : Job × Machine} (h : Starts budget q q') :
    q'.1.mentions ⊆ q.1.mentions := by
  cases h with
  | enter hss hi | body hss hi =>
    show Node.mentionsAll _ ⊆ Node.mentions _
    rw [mentions_of_statements hss]
    exact List.Subset.refl _
  | _ => simp [Job.mentions, Node.mentions, Node.mentionsAll, Node.mentionsBranches]

/-- For two runs to stay beside each other it is enough that scopes stay related under what the
program mentions. -/
theorem relates_of_mentions {budget : Nat} {S : Scopes → Scopes → Prop} {M : Mention → Prop}
    (hread : ∀ {x σ σ'}, M (.read x) → S σ σ' → ∀ i : ScopeId, σ.get? i x = σ'.get? i x)
    (hassign : ∀ {x σ σ'}, M (.assigned x) → S σ σ' → ∀ (i : ScopeId) (v : Value),
      S (σ.assign i x v) (σ'.assign i x v)) :
    Relates budget S fun q => ∀ a ∈ q.1.mentions, M a where
  starts hq h a ha := hq a (h.mentions_subset ha)
  read hq hS := hread (hq _ (List.mem_singleton_self _)) hS _
  assign v _ _ hq hS := hassign (hq _ List.mem_cons_self) hS _ v

/-! ## Scopes that agree -/

variable {n : Node} {N : String → Prop}

/-- Runs in scopes that agree on the mentioned names show the same. -/
theorem showsSame_of_agreeOn (hn : ∀ a ∈ n.mentions, N a.name) {m m' : Machine}
    (hm : Beside (Scopes.AgreeOn N) m m') (budget : Nat) :
    SameOutcome ShowsSame (program budget n m) (program budget n m') := by
  have hrelates : Relates budget (Scopes.AgreeOn N) fun q => ∀ a ∈ q.1.mentions, N a.name :=
    relates_of_mentions (fun hx h i => h.get?_eq hx i) fun hx h i v => h.assign hx i v
  exact (hrelates.program n hm hn).mono fun _ _ h => h.toShowsSame

/-! ## What a run leaves as it is -/

/-- A run gives other values to names that are assigned to, and does nothing else to the scopes. -/
theorem keptBut_program (budget : Nat) (n : Node) (m : Machine) :
    Scopes.KeptBut (fun x => .assigned x ∈ n.mentions) m.scopes
      (lastState (program budget n m)).scopes := by
  let T : String → Prop := fun x => .assigned x ∈ n.mentions
  let S : Scopes → Scopes → Prop := fun σ σ' => σ = σ' ∧ Scopes.KeptBut T m.scopes σ
  -- the run is put beside itself: what relates the scopes is how they came from the first ones
  have hrelates : Relates budget S fun q => ∀ a ∈ q.1.mentions, a ∈ n.mentions := by
    refine relates_of_mentions ?_ ?_
    · rintro x σ _ - ⟨rfl, -⟩ i
      rfl
    · rintro x σ _ hx ⟨rfl, hkept⟩ i v
      exact ⟨rfl, hkept.assign hx i v⟩
  have hstart : Beside S m m := ⟨⟨rfl, rfl, rfl⟩, rfl, .refl T m.scopes⟩
  have hend := hrelates.program n hstart fun _ ha => ha
  cases hrun : program budget n m with
  | ok u m' =>
    rw [hrun] at hend
    exact hend.2.scopes.2
  | error f m' =>
    rw [hrun] at hend
    exact hend.2.scopes.2

end Run

/-- Checks in scopes that agree on the mentioned names report the same. -/
theorem Check.sameReports_of_agreeOn {n : Node} {N : String → Prop}
    (hn : ∀ a ∈ n.mentions, N a.name) {σ σ' : Scopes} (hσ : Scopes.AgreeOn N σ σ')
    (earlier : List Diagnostic) :
    SameOutcome (fun s s' => s'.reports = s.reports) (Check.program n ⟨σ, earlier⟩)
      (Check.program n ⟨σ', earlier⟩) := by
  have hrelates : Check.Relates (Scopes.AgreeOn N) fun a => N a.name :=
    ⟨fun hx h i => h.get?_eq hx i, fun _ h i v => h.define i _ v⟩
  have hstart : Check.Beside (Scopes.AgreeOn N) [] ⟨σ, earlier⟩ ⟨σ', earlier⟩ := ⟨hσ, rfl⟩
  exact (Check.alike_program hrelates n hn hstart).mono fun _ _ h => h.reports

/-! ## Programs -/

/-- Scopes that differ in what the outermost one binds agree where the bindings do. -/
theorem Scopes.agreeOn_withRoot {N : String → Prop} {b b' : Bindings}
    (h : ∀ x, N x → b.get? x = b'.get? x) (σ : Scopes) :
    AgreeOn N (σ.withRoot b) (σ.withRoot b') where
  size := by
    rw [withRoot, withRoot, Array.size_modify, Array.size_modify]
  parent i := by
    by_cases hi : i = root
    · subst hi
      rw [parent?, parent?, withRoot, withRoot, Array.getElem?_modify, Array.getElem?_modify,
        if_pos rfl, if_pos rfl]
      cases σ.frames[root]? <;> rfl
    · rw [parent?, parent?, getElem?_withRoot_inner hi, getElem?_withRoot_inner hi]
  value i x hx := by
    by_cases hi : i = root
    · subst hi
      rw [bindings, bindings, withRoot, withRoot, Array.getElem?_modify, Array.getElem?_modify,
        if_pos rfl, if_pos rfl]
      cases σ.frames[root]? with
      | none => rfl
      | some frame => exact h x hx
    · rw [bindings, bindings, getElem?_withRoot_inner hi, getElem?_withRoot_inner hi]

/-- **Names that a program does not mention do not matter and are left as they are.** In two scopes
that agree on all names that are mentioned, the checks of a program end in the same way and report
the same, and its runs end in the same way and read, write and report the same. A run, however it
ends, adds no name to a scope and removes none, and every name that the program does not assign to
keeps its value. -/
theorem program_ignores_unmentioned {n : Node} {b b' : Bindings}
    (h : ∀ a ∈ n.mentions, b.get? a.name = b'.get? a.name) (σ : Scopes) :
    (∀ earlier : List Diagnostic, SameOutcome (fun s s' => s'.reports = s.reports)
      (Check.program n ⟨σ.withRoot b, earlier⟩) (Check.program n ⟨σ.withRoot b', earlier⟩)) ∧
    (∀ (budget : Nat) (input : List String) (earlier : List Diagnostic),
      SameOutcome Run.ShowsSame
        (Run.program budget n { scopes := σ.withRoot b, input := input, reports := earlier })
        (Run.program budget n { scopes := σ.withRoot b', input := input, reports := earlier })) ∧
    ∀ (budget : Nat) (m : Machine) (i : ScopeId),
      ((lastState (Run.program budget n m)).scopes.bindings i).map Prod.fst =
        (m.scopes.bindings i).map Prod.fst ∧
      ∀ x, .assigned x ∉ n.mentions →
        ((lastState (Run.program budget n m)).scopes.bindings i).get? x =
          (m.scopes.bindings i).get? x := by
  let N : String → Prop := fun x => b.get? x = b'.get? x
  have hagree : Scopes.AgreeOn N (σ.withRoot b) (σ.withRoot b') :=
    Scopes.agreeOn_withRoot (fun _ hx => hx) σ
  refine ⟨fun earlier => Check.sameReports_of_agreeOn h hagree earlier, ?_, ?_⟩
  · intro budget input earlier
    have hstart : Run.Beside (Scopes.AgreeOn N)
        { scopes := σ.withRoot b, input := input, reports := earlier }
        { scopes := σ.withRoot b', input := input, reports := earlier } :=
      ⟨⟨rfl, rfl, rfl⟩, hagree⟩
    exact Run.showsSame_of_agreeOn h hstart budget
  · intro budget m i
    have hkept := Run.keptBut_program budget n m
    exact ⟨hkept.names i, hkept.value i⟩

/-- `x = x + 1` -/
def increment : Node :=
  .program [.assignment "x"
    (.arithmetic .add (.identifier "x" ⟨1, 4⟩) (.literal .int (.int 1) ⟨1, 8⟩))] Scopes.root

/-- A machine in which `x` is one, besides some other variables. -/
def machineAtOne (others : Bindings) : Machine :=
  { scopes := Scopes.withRoot {} (others ++ [("x", .int 1)]) }

/-- Another variable makes no difference to a program that counts `x` up, and keeps its value. -/
theorem increment_ignores_other :
    SameOutcome Run.ShowsSame (Run.program 0 increment (machineAtOne []))
      (Run.program 0 increment (machineAtOne [("y", .str "kept")])) ∧
    ∃ b, (lastState (Run.program 0 increment (machineAtOne [("y", .str "kept")]))).scopes.bindings
        Scopes.root = b ∧ b.map Prod.fst = ["y", "x"] ∧ b.get? "y" = some (.str "kept") ∧
          b.get? "x" = some (.int 2) := by
  have hmentions : increment.mentions = [.assigned "x", .read "x"] := by
    with_unfolding_all rfl
  have hagree : ∀ a ∈ increment.mentions, Bindings.get? [("x", .int 1)] a.name =
      Bindings.get? [("y", .str "kept"), ("x", .int 1)] a.name := by
    rw [hmentions]
    intro a ha
    have hname : a.name = "x" := by
      rcases List.mem_cons.mp ha with rfl | ha
      · rfl
      · rw [List.mem_singleton.mp ha]
        rfl
    rw [hname]
    with_unfolding_all rfl
  obtain ⟨-, hrun, hkept⟩ := program_ignores_unmentioned hagree {}
  obtain ⟨hnames, hvalue⟩ := hkept 0 (machineAtOne [("y", .str "kept")]) Scopes.root
  refine ⟨hrun 0 [] [], _, rfl, hnames, ?_, by with_unfolding_all rfl⟩
  rw [hvalue "y" (by rw [hmentions]; decide)]
  with_unfolding_all rfl

end Scriptlet
