import Scriptlet.Proofs.TreeShape
import Scriptlet.Source

/-! # The trees of programs that were read without a mistake

A tree can have a node of any kind in any place, but a program that was read without a report has
not. Its statements have expressions (`Node.IsOperand`) and blocks where they belong, and every
block has a scope that was opened for it. The scopes are *fresh*: all but the outermost lie inside
an earlier one, and none binds a name.

All this follows from the shape that trees have (`TreeShape`). `IsParsed.exists_statements` says as
much of it as the checker and the run depend on.
-/
namespace Scriptlet

/-! ## Statements -/

mutual

/-- A statement as it is read without a mistake, where `m` scopes have been opened. -/
def Node.IsStatement (m : Nat) : Node → Prop
  | .assignment _ v => v.IsOperand
  | .declaration _ _ _ v => v.isPlaced = true ∧ v.IsOperand
  | .call .. | .breakLoop | .continueLoop => True
  | .conditional bs o => Node.AreBranches m bs ∧ o.IsLastPart m
  | .loop c b => c.IsOperand ∧ b.IsBlock m
  | _ => False

/-- A block with a scope of its own. -/
def Node.IsBlock (m : Nat) : Node → Prop
  | .block ss i => i < m ∧ Node.AreStatements m ss
  | _ => False

/-- What stands behind the branches of a conditional statement. -/
def Node.IsLastPart (m : Nat) : Node → Prop
  | .otherwise b => b.IsBlock m
  | .empty _ => True
  | _ => False

/-- Statements. -/
def Node.AreStatements (m : Nat) : List Node → Prop
  | [] => True
  | n :: rest => n.IsStatement m ∧ Node.AreStatements m rest

/-- Conditions with their blocks. -/
def Node.AreBranches (m : Nat) : List (Node × Node) → Prop
  | [] => True
  | (c, b) :: rest => c.IsOperand ∧ b.IsBlock m ∧ Node.AreBranches m rest

end

namespace Node

variable {σ : Scopes}

mutual

/-- A well-formed statement is one, with the scopes that there are. -/
theorem Formed.isStatement {scope : ScopeId} :
    ∀ {n : Node}, n.Formed σ scope → n.IsStatement σ.frames.size
  | .assignment .., hv => hv
  | .declaration .., ⟨hplaced, hv⟩ => ⟨hplaced, hv⟩
  | .call .., _ | .breakLoop, _ | .continueLoop, _ => trivial
  | .conditional .., ⟨_, hbs, ho⟩ => ⟨FormedBranches.areBranches hbs, FormedLastPart.isLastPart ho⟩
  | .loop .., ⟨hc, hb⟩ => ⟨hc, FormedBlock.isBlock hb⟩

theorem FormedBlock.isBlock {scope : ScopeId} :
    ∀ {b : Node}, b.FormedBlock σ scope → b.IsBlock σ.frames.size
  | .block .., ⟨hframe, hss⟩ =>
    have ⟨hi, _⟩ := Array.getElem?_eq_some_iff.mp hframe
    ⟨hi, FormedAll.areStatements hss⟩

theorem FormedLastPart.isLastPart {scope : ScopeId} :
    ∀ {o : Node}, o.FormedLastPart σ scope → o.IsLastPart σ.frames.size
  | .otherwise _, hb => FormedBlock.isBlock hb
  | .empty _, _ => trivial

theorem FormedAll.areStatements {scope : ScopeId} :
    ∀ {ss : List Node}, FormedAll σ scope ss → AreStatements σ.frames.size ss
  | [], _ => trivial
  | _ :: _, ⟨hn, hss⟩ => ⟨Formed.isStatement hn, FormedAll.areStatements hss⟩

theorem FormedBranches.areBranches {scope : ScopeId} :
    ∀ {bs : List (Node × Node)}, FormedBranches σ scope bs → AreBranches σ.frames.size bs
  | [], _ => trivial
  | (_, _) :: _, ⟨hc, hb, hbs⟩ =>
    ⟨hc, FormedBlock.isBlock hb, FormedBranches.areBranches hbs⟩

end

end Node

/-! ## Programs -/

/-- The program and its scopes were read from some tokens, without a report. -/
def IsParsed (n : Node) (σ : Scopes) : Prop :=
  ∃ tokens s, parseProgram tokens = .ok n s ∧ s.reports = [] ∧ s.scopes = σ

/-- **A program that was read without a report consists of statements**, all blocks in it have
scopes, and the scopes are fresh. -/
theorem IsParsed.exists_statements {n : Node} {σ : Scopes} (h : IsParsed n σ) :
    ∃ ss, n = .program ss Scopes.root ∧ Node.AreStatements σ.frames.size ss ∧ σ.IsFresh := by
  obtain ⟨tokens, s, hn, hquiet, rfl⟩ := h
  obtain ⟨ss, rfl, hss, hfresh⟩ := Parse.formed_of_parseProgram hn hquiet
  exact ⟨ss, rfl, hss.1.areStatements, hfresh⟩

theorem Reading.program_ofTokens (force : Bool) (earlier : List Diagnostic) (source : String) :
    (Reading.ofTokens force earlier source).program = none := by
  rw [Reading.ofTokens, Reading.andThen]
  split <;> rfl

/-- What is read from a source text without a report or a fault was read from some tokens. -/
theorem isParsed_of_source {source : String} {n : Node} {σ : Scopes}
    (h : (Reading.ofSource false [] source).program? false = some (n, σ)) : IsParsed n σ := by
  rw [Reading.program?] at h
  split at h
  · rename_i hgoes
    rw [Reading.ofSource, Reading.andThen] at h hgoes
    split at h
    · rename_i hbefore
      rw [if_pos hbefore] at hgoes
      rw [Reading.parse] at h hgoes
      cases hparse : parseProgram (Reading.ofTokens false [] source).tokens with
      | ok n' s =>
        rw [hparse] at h hgoes
        cases h
        refine ⟨_, s, hparse, ?_, rfl⟩
        simp only [Reading.goesOn, Bool.false_or, Bool.and_eq_true, List.isEmpty_iff,
          List.append_eq_nil_iff] at hgoes
        exact hgoes.2.2
      | error fault s =>
        rw [hparse] at hgoes
        simp [Reading.goesOn] at hgoes
    · rw [Reading.program_ofTokens] at h
      cases h
  · cases h

/-- **The tree of a program that was read without a report is well-formed.** At every depth, its
statements are declarations, assignments, calls, conditional statements, loops, `break` and
`continue`; conditional statements have branches, calls have arguments, blocks and expressions stand
where they belong. Every block has a scope that is empty and lies in the scope of what is around it.
No two blocks share a scope: those of the program and of its blocks, in the order of the text, are
all the scopes there are. -/
theorem parseProgram_wellFormed {tokens : List Token} {n : Node} {s : ParseState}
    (h : parseProgram tokens = .ok n s) (hquiet : s.reports = []) :
    ∃ ss, n = .program ss Scopes.root ∧ Node.FormedAll s.scopes Scopes.root ss ∧
      n.scopeIds = List.range s.scopes.frames.size ∧ s.scopes.IsFresh := by
  obtain ⟨ss, rfl, ⟨hss, hids, hsize⟩, hfresh⟩ := Parse.formed_of_parseProgram h hquiet
  refine ⟨ss, rfl, hss, ?_, hfresh⟩
  -- the outermost scope was there before any was opened
  have hone : ({} : Scopes).frames.size = 1 := rfl
  rw [Node.scopeIds, hsize, hone, List.range_eq_range', Nat.add_comm, List.range'_succ]
  exact congrArg (Scopes.root :: ·) hids

/-- A program with a loop, and a conditional statement in it. -/
def nestedBlocks : String :=
  "while x < 2 \x7b\nif x == 1 \x7b\nwriteline(x)\n\x7d else \x7b\nx += 1\n\x7d\n\x7d\n"

/-- Its tree is well-formed, with one scope for the program and one for each of its three blocks. -/
theorem nestedBlocks_wellFormed :
    ∃ tokens n s ss, parseProgram tokens = .ok n s ∧ s.reports = [] ∧
      n = .program ss Scopes.root ∧ Node.FormedAll s.scopes Scopes.root ss ∧
      n.scopeIds = [0, 1, 2, 3] ∧ s.scopes.IsFresh := by
  have hsize : ((Reading.ofSource false [] nestedBlocks).program? false).map
      (fun p => p.2.frames.size) = some 4 := by
    decide +kernel
  obtain ⟨⟨n, σ⟩, hread, hfour⟩ := Option.map_eq_some_iff.mp hsize
  obtain ⟨tokens, s, hparse, hquiet, rfl⟩ := isParsed_of_source hread
  obtain ⟨ss, hn, hss, hids, hfresh⟩ := parseProgram_wellFormed hparse hquiet
  refine ⟨tokens, n, s, ss, hparse, hquiet, hn, hss, ?_, hfresh⟩
  rw [hids, show s.scopes.frames.size = 4 from hfour]
  rfl

end Scriptlet
