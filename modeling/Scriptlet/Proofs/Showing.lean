import Mathlib.Logic.Relation
import Scriptlet.Node.Show
import Scriptlet.Proofs.DeadCode
import Scriptlet.Proofs.ReadTrees

/-! # Which trees can be shown

A node is shown with its parts inside, so it can be shown if all of its parts can; a loop is shown
without its body. What cannot be shown at all are `break`, `continue` and nodes of no particular
kind. So a tree cannot be shown exactly if one of these stands in it outside of the bodies of loops
(`Node.StandsOutsideLoops`).

In a program that was read without a report, `break` and `continue` are the only such nodes, and
they stand nowhere but among statements: at the top or in the blocks of conditional statements
(`Node.JumpsOut`).
-/
namespace Scriptlet

namespace Node

/-! ## The parts that are shown -/

/-- The parts of a node, but for the body of a loop. -/
def partsOutsideLoops : Node → List Node
  | .signed _ n | .negation n | .assignment _ n | .declaration _ _ _ n | .otherwise n => [n]
  | .logic _ l r | .comparison _ l r | .arithmetic _ l r => [l, r]
  | .call _ arguments => arguments
  | .conditional branches o => branches.flatMap (fun b => [b.1, b.2]) ++ [o]
  | .loop condition _ => [condition]
  | .block statements _ | .program statements _ => statements
  | _ => []

/-- The second node stands in the first one, outside of the bodies of all loops in it. -/
def StandsOutsideLoops (n m : Node) : Prop :=
  Relation.ReflTransGen (fun n m => m ∈ n.partsOutsideLoops) n m

/-- The kind under which a node is named that cannot be shown. -/
def unshowable? : Node → Option String
  | .breakLoop => some "BreakStatement"
  | .continueLoop => some "ContinueStatement"
  | .bare | .literal .plain _ _ => some "Node"
  | _ => none

/-- Something is shown as some nodes are: it succeeds and so do they, or it fails as one of them
does. -/
inductive ShownAs {α : Type} (ms : List Node) (e : Except Fault α) : Prop
  | ok {a : α} (he : e = .ok a) (hms : ∀ m ∈ ms, ∃ text, m.shown = .ok text)
  | error {m : Node} {f : Fault} (hm : m ∈ ms) (hf : m.shown = .error f) (he : e = .error f)

namespace ShownAs

variable {α β : Type} {ms ns : List Node} {e : Except Fault α} {g : α → Except Fault β}

theorem pure (a : α) : ShownAs [] (.ok a : Except Fault α) :=
  .ok rfl fun _ hm => absurd hm List.not_mem_nil

theorem self (n : Node) : ShownAs [n] n.shown := by
  cases h : n.shown with
  | ok text => exact .ok rfl fun m hm => ⟨text, List.mem_singleton.mp hm ▸ h⟩
  | error f => exact .error (List.mem_singleton_self n) h rfl

theorem bind (he : ShownAs ms e) (hg : ∀ a, ShownAs ns (g a)) : ShownAs (ms ++ ns) (e >>= g) := by
  cases he with
  | error hm hf he =>
    subst he
    exact .error (List.mem_append_left _ hm) hf rfl
  | @ok a he hms =>
    subst he
    cases hg a with
    | ok hga hns => exact .ok hga fun m hm => (List.mem_append.mp hm).elim (hms m) (hns m)
    | error hm hf hga => exact .error (List.mem_append_right _ hm) hf hga

/-- What is made of something that was shown. -/
theorem map (he : ShownAs ms e) (g : α → β) : ShownAs ms (e >>= fun a => Except.ok (g a)) := by
  have hbind : ShownAs (ms ++ []) (e >>= fun a => Except.ok (g a)) := he.bind fun a => .pure (g a)
  rwa [List.append_nil] at hbind

/-- A node whose value is quoted, if it is one. -/
theorem quoted (n : Node) : ShownAs [n] n.quoted := by
  cases n with
  | raw v => exact .ok rfl fun m hm => ⟨v.text, by rw [List.mem_singleton.mp hm]; rfl⟩
  | _ => exact self _

end ShownAs

theorem shownAll_cons (n : Node) (ns : List Node) :
    shownAll (n :: ns) = n.quoted >>= fun first => shownAll ns >>= fun more =>
      Except.ok (first :: more) := by
  cases n <;> rfl

theorem shownBranches_cons (c b : Node) (bs : List (Node × Node)) :
    shownBranches ((c, b) :: bs) = c.quoted >>= fun condition => b.quoted >>= fun body =>
      shownBranches bs >>= fun more => Except.ok (s!"({condition}, {body})" :: more) := by
  cases c <;> cases b <;> rfl

theorem shownAs_all (ns : List Node) : ShownAs ns (shownAll ns) := by
  induction ns with
  | nil => exact .pure _
  | cons n ns ih =>
    rw [shownAll_cons]
    exact (ShownAs.quoted n).bind fun first => ih.map _

theorem shownAs_branches (bs : List (Node × Node)) :
    ShownAs (bs.flatMap fun b => [b.1, b.2]) (shownBranches bs) := by
  induction bs with
  | nil => exact .pure _
  | cons branch bs ih =>
    obtain ⟨c, b⟩ := branch
    rw [shownBranches_cons]
    exact (ShownAs.quoted c).bind fun condition => (ShownAs.quoted b).bind fun body => ih.map _

/-- **A node is shown as its parts are**, if it can be shown at all. -/
theorem shownAs_parts {n : Node} (h : n.unshowable? = none) :
    ShownAs n.partsOutsideLoops n.shown := by
  cases n with
  | empty | identifier | raw => exact .pure _
  | literal kind v p =>
    cases kind with
    | plain => cases h
    | int | float | string | bool => exact .pure _
  | signed | negation | assignment | declaration | otherwise | loop => exact (ShownAs.self _).map _
  | logic op l r | comparison op l r | arithmetic op l r =>
    exact (ShownAs.self l).bind fun _ => (ShownAs.self r).map _
  | call callee es => exact (shownAs_all es).map _
  | conditional bs o => exact (shownAs_branches bs).bind fun _ => (ShownAs.self o).map _
  | block ss | program ss => exact (shownAs_all ss).map _
  | breakLoop | continueLoop | bare => cases h

theorem shown_of_unshowable {n : Node} {kind : String} (h : n.unshowable? = some kind) :
    n.shown = .error (.unshowable kind) := by
  cases n with
  | breakLoop | continueLoop | bare =>
    cases h
    rfl
  | literal literalKind =>
    cases literalKind with
    | plain =>
      cases h
      rfl
    | _ => cases h
  | _ => cases h

/-! ## Trees -/

theorem sizeOf_lt_of_part {n m : Node} (h : m ∈ n.partsOutsideLoops) : sizeOf m < sizeOf n := by
  cases n with
  | signed | negation | assignment | declaration | otherwise | loop =>
    cases List.mem_singleton.mp h
    simp only [signed.sizeOf_spec, negation.sizeOf_spec, assignment.sizeOf_spec,
      declaration.sizeOf_spec, otherwise.sizeOf_spec, loop.sizeOf_spec]
    omega
  | logic op l r | comparison op l r | arithmetic op l r =>
    rcases List.mem_cons.mp h with rfl | hr
    · simp only [logic.sizeOf_spec, comparison.sizeOf_spec, arithmetic.sizeOf_spec]
      omega
    · cases List.mem_singleton.mp hr
      simp only [logic.sizeOf_spec, comparison.sizeOf_spec, arithmetic.sizeOf_spec]
      omega
  | call _ ms | block ms | program ms =>
    have hlt : sizeOf m < sizeOf ms := List.sizeOf_lt_of_mem h
    simp only [call.sizeOf_spec, block.sizeOf_spec, program.sizeOf_spec]
    omega
  | conditional bs o =>
    rw [conditional.sizeOf_spec]
    rcases List.mem_append.mp h with hbs | ho
    · obtain ⟨⟨c, b⟩, hbranch, hm⟩ := List.mem_flatMap.mp hbs
      have hlt := List.sizeOf_lt_of_mem hbranch
      rw [Prod.mk.sizeOf_spec] at hlt
      have hm : m = c ∨ m = b := (List.mem_cons.mp hm).imp_right List.mem_singleton.mp
      rcases hm with rfl | rfl <;> omega
    · cases List.mem_singleton.mp ho
      omega
  | empty | literal | identifier | breakLoop | continueLoop | bare | raw => cases h

/-- What a node fails with that cannot be shown: there is one in it that cannot be shown at all. -/
theorem exists_unshowable_of_shown {n : Node} {f : Fault} (h : n.shown = .error f) :
    ∃ m kind, n.StandsOutsideLoops m ∧ m.unshowable? = some kind ∧ f = .unshowable kind := by
  cases hn : n.unshowable? with
  | some kind =>
    rw [shown_of_unshowable hn] at h
    cases h
    exact ⟨n, kind, .refl, hn, rfl⟩
  | none =>
    cases shownAs_parts hn with
    | ok hok =>
      rw [hok] at h
      cases h
    | error hm hf herror =>
      rw [herror] at h
      cases h
      have := sizeOf_lt_of_part hm
      obtain ⟨m, kind, hstands, hm', rfl⟩ := exists_unshowable_of_shown hf
      exact ⟨m, kind, .head hm hstands, hm', rfl⟩
termination_by sizeOf n

/-- In a tree that can be shown, so can all nodes outside of the bodies of loops. -/
theorem StandsOutsideLoops.shown {n m : Node} (h : n.StandsOutsideLoops m)
    (hn : ∃ text, n.shown = .ok text) : ∃ text, m.shown = .ok text := by
  induction h with
  | refl => exact hn
  | @tail n m _ hpart ih =>
    obtain ⟨text, htext⟩ := ih
    cases hkind : n.unshowable? with
    | some kind =>
      rw [shown_of_unshowable hkind] at htext
      cases htext
    | none =>
      cases shownAs_parts hkind with
      | ok _ hms => exact hms m hpart
      | error _ _ herror =>
        rw [herror] at htext
        cases htext

/-! ## Programs that were read without a report -/

/-- A jump out of the node, over no loop: the node is `break` or `continue`, or it is made up of
statements or blocks one of which has such a jump. -/
inductive JumpsOut : Node → Prop
  | jump {n : Node} (h : n.isJump = true) : JumpsOut n
  | branch {bs : List (Node × Node)} {o c b : Node} (hb : (c, b) ∈ bs) (h : JumpsOut b) :
      JumpsOut (.conditional bs o)
  | lastPart {bs : List (Node × Node)} {o : Node} (h : JumpsOut o) : JumpsOut (.conditional bs o)
  | otherwise {b : Node} (h : JumpsOut b) : JumpsOut (.otherwise b)
  | block {ss : List Node} {i : ScopeId} {n : Node} (hn : n ∈ ss) (h : JumpsOut n) :
      JumpsOut (.block ss i)
  | program {ss : List Node} {i : ScopeId} {n : Node} (hn : n ∈ ss) (h : JumpsOut n) :
      JumpsOut (.program ss i)

theorem JumpsOut.exists_stands {n : Node} (h : n.JumpsOut) :
    ∃ j, j.isJump = true ∧ n.StandsOutsideLoops j := by
  induction h with
  | jump h => exact ⟨_, h, .refl⟩
  | branch hb _ ih =>
    obtain ⟨j, hj, hstands⟩ := ih
    refine ⟨j, hj, .head (List.mem_append_left _ (List.mem_flatMap.mpr ⟨_, hb, ?_⟩)) hstands⟩
    exact List.mem_cons_of_mem _ (List.mem_singleton_self _)
  | lastPart _ ih =>
    obtain ⟨j, hj, hstands⟩ := ih
    exact ⟨j, hj, .head (List.mem_append_right _ (List.mem_singleton_self _)) hstands⟩
  | otherwise _ ih =>
    obtain ⟨j, hj, hstands⟩ := ih
    exact ⟨j, hj, .head (List.mem_singleton_self _) hstands⟩
  | block hn _ ih | program hn _ ih =>
    obtain ⟨j, hj, hstands⟩ := ih
    exact ⟨j, hj, .head hn hstands⟩

/-- The program that was read without a report, and what stands in its tree. -/
inductive IsRead (σ : Scopes) : Node → Prop
  | operand {n : Node} (h : n.IsOperand) : IsRead σ n
  | statement {n : Node} {scope : ScopeId} (h : n.Formed σ scope) : IsRead σ n
  | block {n : Node} {scope : ScopeId} (h : n.FormedBlock σ scope) : IsRead σ n
  | lastPart {n : Node} {scope : ScopeId} (h : n.FormedLastPart σ scope) : IsRead σ n
  | program {ss : List Node} {i : ScopeId} (h : FormedAll σ i ss) : IsRead σ (.program ss i)

variable {σ : Scopes}

theorem AreOperands.of_mem : ∀ {es : List Node}, AreOperands es → ∀ e ∈ es, e.IsOperand
  | _ :: _, ⟨he, hes⟩, e, hmem => by
    rcases List.mem_cons.mp hmem with rfl | hmem
    · exact he
    · exact hes.of_mem e hmem

theorem FormedAll.of_mem {scope : ScopeId} :
    ∀ {ss : List Node}, FormedAll σ scope ss → ∀ n ∈ ss, n.Formed σ scope
  | _ :: _, ⟨hn, hss⟩, n, hmem => by
    rcases List.mem_cons.mp hmem with rfl | hmem
    · exact hn
    · exact FormedAll.of_mem hss n hmem

theorem FormedBranches.of_mem {scope : ScopeId} :
    ∀ {bs : List (Node × Node)}, FormedBranches σ scope bs →
      ∀ b ∈ bs, b.1.IsOperand ∧ b.2.FormedBlock σ scope
  | _ :: _, ⟨hc, hb, hbs⟩, b, hmem => by
    rcases List.mem_cons.mp hmem with rfl | hmem
    · exact ⟨hc, hb⟩
    · exact FormedBranches.of_mem hbs b hmem

/-- Expressions are made up of expressions. -/
theorem IsOperand.part {n m : Node} (h : n.IsOperand) (hm : m ∈ n.partsOutsideLoops) :
    m.IsOperand := by
  cases n with
  | signed | negation =>
    rw [List.mem_singleton.mp hm]
    exact h.2
  | logic | comparison | arithmetic =>
    rcases List.mem_cons.mp hm with rfl | hm
    · exact h.2.1
    · rw [List.mem_singleton.mp hm]
      exact h.2.2
  | call => exact h.2.of_mem m hm
  | empty | literal | identifier => cases hm
  | _ => exact h.elim

/-- There is no jump in an expression. -/
theorem IsOperand.not_jumpsOut {n : Node} (h : n.IsOperand) : ¬ n.JumpsOut := by
  intro hjump
  cases hjump with
  | jump hn =>
    cases n with
    | breakLoop | continueLoop => exact h.elim
    | _ => cases hn
  | branch | lastPart | otherwise | block | program => exact h.elim

/-- An expression that is part of something brings no jump with it. -/
theorem IsOperand.isRead_part {n m : Node} (h : m.IsOperand) :
    IsRead σ m ∧ (m.JumpsOut → n.JumpsOut) :=
  ⟨.operand h, fun hjump => absurd hjump h.not_jumpsOut⟩

/-- **The parts of what stands in such a tree** stand there too, and a jump out of one of them is
one out of the whole. -/
theorem IsRead.part {n m : Node} (h : IsRead σ n) (hm : m ∈ n.partsOutsideLoops) :
    IsRead σ m ∧ (m.JumpsOut → n.JumpsOut) := by
  cases h with
  | operand h => exact (h.part hm).isRead_part
  | statement h =>
    cases n with
    | assignment => exact IsOperand.isRead_part (List.mem_singleton.mp hm ▸ h)
    | declaration => exact IsOperand.isRead_part (List.mem_singleton.mp hm ▸ h.2)
    | call => exact (h.2.of_mem m hm).isRead_part
    | conditional bs o =>
      rcases List.mem_append.mp hm with hbs | ho
      · obtain ⟨⟨c, b⟩, hmem, hm⟩ := List.mem_flatMap.mp hbs
        obtain ⟨hcondition, hblock⟩ := h.2.1.of_mem (c, b) hmem
        rcases List.mem_cons.mp hm with rfl | hm
        · exact hcondition.isRead_part
        · rw [List.mem_singleton.mp hm]
          exact ⟨.block hblock, .branch hmem⟩
      · rw [List.mem_singleton.mp ho]
        exact ⟨.lastPart h.2.2, .lastPart⟩
    | loop => exact IsOperand.isRead_part (List.mem_singleton.mp hm ▸ h.1)
    | breakLoop | continueLoop => cases hm
    | _ => exact h.elim
  | block h =>
    cases n with
    | block => exact ⟨.statement (h.2.of_mem m hm), .block hm⟩
    | _ => exact h.elim
  | lastPart h =>
    cases n with
    | otherwise =>
      rw [List.mem_singleton.mp hm]
      exact ⟨.block h, .otherwise⟩
    | empty => cases hm
    | _ => exact h.elim
  | program h => exact ⟨.statement (h.of_mem m hm), .program hm⟩

theorem IsRead.stands {n m : Node} (h : IsRead σ n) (hm : n.StandsOutsideLoops m) : IsRead σ m := by
  induction hm with
  | refl => exact h
  | tail _ hpart ih => exact (ih.part hpart).1

/-- The only nodes of such a tree that cannot be shown are `break` and `continue`. -/
theorem IsRead.isJump {n : Node} {kind : String} (h : IsRead σ n) (hn : n.unshowable? = some kind) :
    n.isJump = true ∧ kind = n.kindName := by
  cases n with
  | breakLoop | continueLoop =>
    cases hn
    exact ⟨rfl, rfl⟩
  | bare =>
    cases h with
    | operand h | statement h | block h | lastPart h => exact h.elim
  | literal literalKind =>
    cases literalKind with
    | plain =>
      cases h with
      | operand h => exact absurd rfl h
      | statement h | block h | lastPart h => exact h.elim
    | _ => cases hn
  | _ => cases hn

/-- **A jump stands outside of the bodies of loops exactly if it leads out** of the node over
conditional statements alone. -/
theorem IsRead.jumpsOut_iff {n : Node} (h : IsRead σ n) :
    n.JumpsOut ↔ ∃ j, j.isJump = true ∧ n.StandsOutsideLoops j := by
  refine ⟨JumpsOut.exists_stands, ?_⟩
  rintro ⟨j, hj, hstands⟩
  induction hstands using Relation.ReflTransGen.head_induction_on with
  | refl => exact .jump hj
  | head hpart _ ih => exact (h.part hpart).2 (ih (h.part hpart).1)

end Node

/-- **Which programs can be shown.** A program that was read without a report cannot be shown
exactly if `break` or `continue` stands in it outside of the bodies of all loops: at the top, or in
blocks of conditional statements that lie in no loop. Then the fault names that statement. Every
other program is shown. -/
theorem parseProgram_shown {tokens : List Token} {n : Node} {s : ParseState}
    (h : parseProgram tokens = .ok n s) (hquiet : s.reports = []) :
    (n.JumpsOut ↔ ∃ j, j.isJump = true ∧ n.StandsOutsideLoops j) ∧
    (n.JumpsOut → ∃ j, j.isJump = true ∧ n.StandsOutsideLoops j ∧
      n.quoted = .error (.unshowable j.kindName)) ∧
    (¬ n.JumpsOut → ∃ text, n.quoted = .ok text) := by
  obtain ⟨ss, rfl, ⟨hss, -⟩, -⟩ := Parse.formed_of_parseProgram h hquiet
  have hread : Node.IsRead s.scopes (.program ss Scopes.root) := .program hss
  have hiff := hread.jumpsOut_iff
  -- whether it can be shown or not, the jumps tell
  cases hshown : (Node.program ss Scopes.root).quoted with
  | ok text =>
    refine ⟨hiff, fun hjumps => ?_, fun _ => ⟨text, rfl⟩⟩
    obtain ⟨j, hj, hstands⟩ := hjumps.exists_stands
    obtain ⟨_, hjump⟩ := hstands.shown ⟨text, hshown⟩
    cases j with
    | breakLoop | continueLoop => cases hjump
    | _ => cases hj
  | error f =>
    obtain ⟨j, kind, hstands, hkind, rfl⟩ := Node.exists_unshowable_of_shown hshown
    obtain ⟨hj, rfl⟩ := (hread.stands hstands).isJump hkind
    exact ⟨hiff, fun _ => ⟨j, hj, hstands, rfl⟩,
      fun hnone => absurd (hiff.mpr ⟨j, hj, hstands⟩) hnone⟩

/-- `break` in a conditional statement, and `continue` in a loop. -/
def breakInBranch : String :=
  "if x \x7b\nbreak\n\x7d\nloop \x7b\ncontinue\n\x7d\n"

/-- The program cannot be shown, because `break` stands in no loop. -/
theorem breakInBranch_not_shown :
    ∃ tokens n s, parseProgram tokens = .ok n s ∧ s.reports = [] ∧ n.JumpsOut ∧
      ∃ j, j.isJump = true ∧ n.StandsOutsideLoops j ∧
        n.quoted = .error (.unshowable j.kindName) := by
  have hnone : ((Reading.ofSource false [] breakInBranch).program? false).map
      (fun p => p.1.quoted.toOption) = some none := by
    decide +kernel
  obtain ⟨⟨n, σ⟩, hread, hshown⟩ := Option.map_eq_some_iff.mp hnone
  obtain ⟨tokens, s, hparse, hquiet, rfl⟩ := isParsed_of_source hread
  obtain ⟨-, hfails, hsucceeds⟩ := parseProgram_shown hparse hquiet
  have hjumps : n.JumpsOut := Classical.byContradiction fun hno => by
    obtain ⟨text, htext⟩ := hsucceeds hno
    rw [htext] at hshown
    cases hshown
  exact ⟨tokens, n, s, hparse, hquiet, hjumps, hfails hjumps⟩

end Scriptlet
