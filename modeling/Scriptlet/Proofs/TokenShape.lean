import Scriptlet.Token.Scan

/-! # What the tokens of a text say

The kind of a token tells what it can say: a sign or keyword says its own spelling, a number says a
number, a name or text literal says some text. Tokens that do so are *shaped* (`Token.Shaped`), and
all tokens that a scan finds are (`scan_shaped`).
-/
namespace Scriptlet

/-- How a sign or keyword is written; the other kinds of tokens have no spelling of their own. -/
def TokenKind.spelling? (k : TokenKind) : Option String :=
  ((Scanner.signs ++ Scanner.keywords).find? fun entry => entry.2 = k).map Prod.fst

/-- A token says what tokens of its kind say. -/
def Token.Shaped (t : Token) : Prop :=
  match t.kind with
  | .number => (∃ n, t.content = .int n) ∨ ∃ x, t.content = .float x
  | .text | .identifier => ∃ s, t.content = .text s
  | .newline => t.content = .text "\\n"
  | .endOfFile => t.content = .nothing
  | kind => ∃ s, kind.spelling? = some s ∧ t.content = .text s

namespace Token.Shaped

/-- A token whose kind has a spelling is shaped if it says that. -/
theorem iff_of_spelling {kind : TokenKind} {content : TokenContent} {s : String} (p : Pos)
    (h : kind.spelling? = some s) : Token.Shaped ⟨kind, content, p⟩ ↔ content = .text s := by
  have hplain : Token.Shaped ⟨kind, content, p⟩ ↔
      ∃ s, kind.spelling? = some s ∧ content = .text s := by
    cases kind with
    | number | text | identifier | newline | endOfFile => cases h
    | _ => exact Iff.rfl
  rw [hplain]
  constructor
  · rintro ⟨s', hs', rfl⟩
    rw [h] at hs'
    cases hs'
    rfl
  · intro hc
    exact ⟨s, h, hc⟩

theorem text_eq {t : Token} {s : String} (h : t.Shaped) (hs : t.kind.spelling? = some s) :
    t.text = s := by
  obtain ⟨kind, content, pos⟩ := t
  rw [Token.text, (iff_of_spelling pos hs).mp h]
  rfl

end Token.Shaped

theorem Token.text_of_content {t : Token} {x : String} (hc : t.content = .text x) : t.text = x := by
  rw [Token.text, hc]
  rfl

namespace Scanner

/-- All tokens found so far are shaped. -/
def AllShaped (s : Scanner) : Prop :=
  ∀ t ∈ s.tokens, t.Shaped

variable {s : Scanner}

theorem AllShaped.advance (h : s.AllShaped) (n : Nat) : (s.advance n).AllShaped := h

theorem AllShaped.report (h : s.AllShaped) (p : ScanProblem) : (s.report p).AllShaped := h

theorem AllShaped.emit (h : s.AllShaped) {kind : TokenKind} {content : TokenContent}
    (ht : Token.Shaped ⟨kind, content, s.pos⟩) : (s.emit kind content).AllShaped := by
  intro t hm
  rcases Array.mem_push.mp hm with hm | rfl
  · exact h t hm
  · exact ht

theorem AllShaped.breakLine (h : s.AllShaped) : s.breakLine.AllShaped := by
  intro t hm
  rcases Array.mem_push.mp hm with hm | rfl
  · exact h t hm
  · rfl

theorem AllShaped.skipComment {cs : List Char} (h : s.AllShaped) :
    (skipComment s cs).AllShaped := by
  fun_induction Scanner.skipComment s cs with
  | case1 => exact h.report _
  | case2 => exact h.advance _
  | case3 _ _ ih => exact ih (h.breakLine.advance _)
  | case4 _ _ _ _ _ ih => exact ih (h.advance _)

theorem AllShaped.scanText {mark : Char} {body cs : List Char} (h : s.AllShaped) :
    (scanText mark body s cs).AllShaped := by
  fun_induction Scanner.scanText mark body s cs with
  | case1 => exact (h.report _).advance _
  | case2 _ _ _ ih => exact ih (h.advance 1).breakLine
  | case3 => exact (h.advance _).emit ⟨_, rfl⟩
  | case4 _ _ _ _ _ _ ih => exact ih (h.advance _)

theorem AllShaped.scanNumber (h : s.AllShaped) : s.scanNumber.1.AllShaped := by
  unfold Scanner.scanNumber numberContent
  simp only
  split
  · rename_i content hc
    refine (h.advance _).emit ?_
    split at hc
    · split at hc
      · cases hc
        exact .inr ⟨_, rfl⟩
      · cases hc
    · split at hc
      · cases hc
        exact .inl ⟨_, rfl⟩
      · cases hc
  · exact h.advance _

theorem spelling?_of_mem_signs : ∀ entry ∈ signs, entry.2.spelling? = some entry.1 := by
  decide

theorem spelling?_of_mem_keywords : ∀ entry ∈ keywords, entry.2.spelling? = some entry.1 := by
  decide

theorem AllShaped.scanWord (h : s.AllShaped) : s.scanWord.AllShaped := by
  unfold Scanner.scanWord
  simp only
  refine (h.advance _).emit ?_
  cases hk : keywords.lookup (String.ofList (s.rest.takeWhile isNamePart)) with
  | none => exact ⟨_, rfl⟩
  | some kind =>
    obtain ⟨l₁, l₂, hl, -⟩ := List.lookup_eq_some_iff.mp hk
    have hm : (String.ofList (s.rest.takeWhile isNamePart), kind) ∈ keywords := by
      rw [hl]
      exact List.mem_append_right _ List.mem_cons_self
    exact (Token.Shaped.iff_of_spelling _ (spelling?_of_mem_keywords _ hm)).mpr rfl

/-- One step keeps the tokens shaped. -/
theorem AllShaped.stepAt (h : s.AllShaped) (c : Char) (cs : List Char) :
    (s.stepAt c cs).1.AllShaped := by
  unfold Scanner.stepAt
  split
  · exact h.advance _
  split
  · exact (h.advance 1).breakLine
  split
  · exact h.advance _
  split
  · exact (h.advance _).skipComment
  split
  · rename_i sign kind hfind
    have hm := List.mem_of_find?_eq_some hfind
    have hspelling := spelling?_of_mem_signs _ hm
    exact (h.emit ((Token.Shaped.iff_of_spelling _ hspelling).mpr rfl)).advance _
  split
  · exact h.scanNumber
  split
  · exact (h.advance _).scanText
  split
  · exact h.scanWord
  · exact (h.report _).advance _

/-- A whole run keeps the tokens shaped. -/
theorem AllShaped.run (h : s.AllShaped) : s.run.scanner.AllShaped := by
  fun_induction Scanner.run s with
  | case1 s hs =>
    intro t hm
    rcases Array.mem_push.mp hm with hm | rfl
    · exact h t hm
    · rfl
  | case2 s c cs hs s' fault hstep =>
    have := h.stepAt c cs
    rwa [hstep] at this
  | case3 s c cs hs s' hstep hlt ih =>
    have := h.stepAt c cs
    rw [hstep] at this
    exact ih this

end Scanner

/-- **All tokens of a source text are shaped**, also those found before a fault. -/
theorem scan_shaped (source : String) : ∀ t ∈ (scan source).scanner.tokens, t.Shaped :=
  Scanner.AllShaped.run (s := { rest := source.toList }) (by intro t ht; simp at ht)

end Scriptlet
