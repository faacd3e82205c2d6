import Scriptlet.Proofs.ExposedCalls
import Scriptlet.Proofs.NormalForm
import Scriptlet.Proofs.TerminatorMistakes
import Scriptlet.Source

/-! # How the reading of a source text fails

Each step has its own faults. A scan fails at a number that cannot be read. Where it does not, the
tokens end once, and normalizing them can fail only by leaving them; then a mistake has been
reported. Where it reports none, the normalized tokens end once again, and reading the program from
them can fail only for the place of a call.

So a text is left by its reader (`stumbles`) only in the second step, and only if nothing was
reported before: what was reported earlier ends the reading behind the scan.
-/
namespace Scriptlet

/-! ## Scanning -/

/-- The fault of a number that cannot be read. -/
def Fault.IsBadNumber (f : Fault) : Prop :=
  ∃ text, f = .badInteger text ∨ f = .badFloat text

theorem Fault.IsBadNumber.ne_outOfRange {f : Fault} (h : f.IsBadNumber) : f ≠ .outOfRange := by
  rintro rfl
  obtain ⟨text, h | h⟩ := h <;> cases h

namespace Scanner

theorem isBadNumber_of_numberContent {text : String} {fraction : Bool} {f : Fault}
    (h : numberContent text fraction = .error f) : f.IsBadNumber := by
  rw [numberContent] at h
  split at h <;> split at h <;> cases h
  · exact ⟨_, .inr rfl⟩
  · exact ⟨_, .inl rfl⟩

/-- Of all tokens, only numbers can be such that what they say cannot be told. -/
theorem number_of_error {l : List Char} {k : TokenKind} {f : Fault} (h : Lexeme l k (.error f)) :
    k = .number ∧ f.IsBadNumber := by
  generalize herror : (Except.error f : Except Fault TokenContent) = v at h
  cases h with
  | whole | fraction => exact ⟨rfl, isBadNumber_of_numberContent herror.symm⟩
  | sign | keyword | name | text => cases herror

/-- The piece at which a scan fails is a number. -/
theorem number_of_pass {s s' : Scanner} {c : Char} {cs : List Char} {f : Fault}
    (h : s.pass (Piece.first c cs) = (s', some f)) :
    ∃ l, Lexeme l .number (.error f) ∧ l <+: c :: cs := by
  have hfound := Piece.found_first c cs
  generalize Piece.first c cs = p at h hfound
  cases hfound with
  | @lexeme l rest k v hlexeme _ htext =>
    cases v with
    | ok content => cases h
    | error fault =>
      cases h
      obtain ⟨rfl, -⟩ := number_of_error hlexeme
      exact ⟨l, hlexeme, rest, htext.symm⟩
  | _ => cases h

/-- A scan fails only at a number that cannot be read. -/
theorem isBadNumber_of_run {s : Scanner} {f : Fault} (h : s.run.fault = some f) :
    f.IsBadNumber := by
  induction s using pass_induction with
  | nil s hrest =>
    rw [run_of_rest_nil hrest] at h
    cases h
  | fault s c cs s' g hrest hpass =>
    rw [run_of_fault hrest hpass] at h
    cases h
    obtain ⟨l, hlexeme, -⟩ := number_of_pass hpass
    exact (number_of_error hlexeme).2
  | next s c cs s' hrest hpass ih =>
    rw [run_of_pass hrest hpass] at h
    exact ih h

end Scanner

/-- The tokens of a text that is scanned without a fault end once. -/
theorem endsOnce_scan {source : String} (h : (scan source).fault = none) :
    EndsOnce (scan source).scanner.tokens.toList := by
  have hstart : Scanner.InOrder { rest := source.toList } := by
    constructor <;> simp
  obtain ⟨e, horder, htokens⟩ := hstart.run h
  exact ⟨e.tokens.toList, _, htokens, rfl, horder.plain⟩

/-! ## Normalizing -/

/-- Normalizing fails only by leaving the tokens, and not without a report. -/
theorem EndsOnce.normalize_fault {tokens : List Token} (h : EndsOnce tokens) :
    (normalize tokens).fault = none ∨
      (normalize tokens).fault = some .outOfRange ∧ (normalize tokens).reports ≠ [] := by
  obtain ⟨body, last, rfl, hlast, hbody⟩ := h
  rw [normalize]
  cases TerminatorWalk.run_ends hlast body {} hbody with
  | finished hrun =>
    rw [hrun]
    exact .inl rfl
  | lost _ _ hreport hfault =>
    obtain ⟨d, hd, -⟩ := hreport
    exact .inr ⟨hfault, List.ne_nil_of_mem hd⟩

/-- Normalizing without a report gives tokens that end once again. -/
theorem EndsOnce.normalize {tokens : List Token} (h : EndsOnce tokens)
    (hreports : (normalize tokens).reports = []) : EndsOnce (normalize tokens).tokens := by
  obtain ⟨body, last, rfl, hlast, hbody⟩ := h
  obtain ⟨w, hkept, hrun⟩ := TerminatorWalk.kept_start.run hlast hbody hreports
  obtain ⟨tail, htail, htokens⟩ := TerminatorWalk.exists_closes w hlast
  rw [Scriptlet.normalize, hrun, htokens]
  exact (hkept.isNormalForm hlast htail).ends

/-! ## Reading -/

namespace Reading

variable {earlier : List Diagnostic} {source : String}

theorem goesOn_iff {r : Reading} : r.goesOn false = true ↔ r.fault = none ∧ r.reports = [] := by
  rw [goesOn, Bool.false_or, Bool.and_eq_true, Option.isNone_iff_eq_none, List.isEmpty_iff]

/-- A text is read up to the scan, or it is scanned without a report and then normalized. -/
theorem ofTokens_cases (earlier : List Diagnostic) (source : String) :
    (ofTokens false earlier source = scan earlier source ∧
      (scan earlier source).goesOn false = false) ∨
    (scan earlier source).goesOn false = true ∧ earlier = [] ∧ EndsOnce (scan earlier source).tokens ∧
      ofTokens false earlier source = (scan earlier source).normalize := by
  cases hgoes : (scan earlier source).goesOn false with
  | false => exact .inl ⟨by rw [ofTokens, andThen, hgoes]; rfl, rfl⟩
  | true =>
    obtain ⟨hfault, hreports⟩ := goesOn_iff.mp hgoes
    exact .inr ⟨rfl, (List.append_eq_nil_iff.mp hreports).1, endsOnce_scan hfault,
      by rw [ofTokens, andThen, hgoes]; rfl⟩

/-- What was reported earlier ends the reading behind the scan. -/
theorem ofTokens_of_earlier (h : earlier ≠ []) :
    ofTokens false earlier source = scan earlier source := by
  obtain ⟨hscan, -⟩ | ⟨-, hearlier, -⟩ := ofTokens_cases earlier source
  · exact hscan
  · exact absurd hearlier h

theorem ofSource_of_earlier (h : earlier ≠ []) :
    ofSource false earlier source = scan earlier source := by
  have hstops : ¬ (scan earlier source).goesOn false = true := fun hgoes =>
    h (List.append_eq_nil_iff.mp (goesOn_iff.mp hgoes).2).1
  rw [ofSource, ofTokens_of_earlier h, andThen, if_neg hstops]

/-- The reader of a text leaves its tokens. -/
def stumbles (source : String) : Bool :=
  (ofTokens false [] source).fault = some .outOfRange

theorem fault_scan_ne_outOfRange : (scan earlier source).fault ≠ some .outOfRange :=
  fun h => (Scanner.isBadNumber_of_run h).ne_outOfRange rfl

/-- **The tokens are left exactly if nothing was reported before and the text makes its reader
stumble**, and then there is a report. -/
theorem fault_ofTokens_iff : (ofTokens false earlier source).fault = some .outOfRange ↔
    earlier = [] ∧ stumbles source = true := by
  refine ⟨fun h => ?_, fun ⟨hearlier, h⟩ => hearlier ▸ of_decide_eq_true h⟩
  by_cases hearlier : earlier = []
  · subst hearlier
    exact ⟨rfl, decide_eq_true h⟩
  · rw [ofTokens_of_earlier hearlier] at h
    exact absurd h fault_scan_ne_outOfRange

theorem reports_ofTokens_ne_nil (h : (ofTokens false earlier source).fault = some .outOfRange) :
    (ofTokens false earlier source).reports ≠ [] := by
  obtain ⟨hscan, -⟩ | ⟨-, -, hends, hnormal⟩ := ofTokens_cases earlier source
  · exact absurd (hscan ▸ h) fault_scan_ne_outOfRange
  · rw [hnormal] at h ⊢
    obtain hnone | ⟨-, hreports⟩ := hends.normalize_fault
    · cases hnone.symm.trans h
    · exact fun hnil => hreports (List.append_eq_nil_iff.mp hnil).2

/-- Where the grammar is applied, the tokens end once. -/
theorem endsOnce_ofTokens (h : (ofTokens false earlier source).goesOn false = true) :
    EndsOnce (ofTokens false earlier source).tokens := by
  obtain ⟨hscan, hstops⟩ | ⟨-, -, hends, hnormal⟩ := ofTokens_cases earlier source
  · rw [hscan, hstops] at h
    cases h
  · rw [hnormal] at h ⊢
    exact hends.normalize (List.append_eq_nil_iff.mp (goesOn_iff.mp h).2).2

/-- The grammar adds no way to leave the tokens: a program is read to its end. -/
theorem ofSource_of_fault (h : (ofSource false earlier source).fault = some .outOfRange) :
    ofSource false earlier source = ofTokens false earlier source := by
  rw [ofSource, andThen] at h ⊢
  split
  · rename_i hgoes
    rw [if_pos hgoes, parse] at h
    cases hparse : parseProgram (ofTokens false earlier source).tokens with
    | ok n s =>
      rw [hparse] at h
      cases (goesOn_iff.mp hgoes).1.symm.trans h
    | error f s =>
      rw [hparse] at h
      cases Parse.eq_callPlace_of_parseProgram (endsOnce_ofTokens hgoes) hparse
      cases h
  · rfl

theorem fault_ofSource_iff : (ofSource false earlier source).fault = some .outOfRange ↔
    earlier = [] ∧ stumbles source = true := by
  rw [← fault_ofTokens_iff]
  refine ⟨fun h => ofSource_of_fault h ▸ h, fun h => ?_⟩
  rw [ofSource, andThen, if_neg]
  · exact h
  · intro hgoes
    cases (goesOn_iff.mp hgoes).1.symm.trans h

theorem eq_nil_of_goesOn (h : (ofSource false earlier source).goesOn false = true) :
    earlier = [] := by
  by_cases hearlier : earlier = []
  · exact hearlier
  · rw [ofSource_of_earlier hearlier] at h
    exact (List.append_eq_nil_iff.mp (goesOn_iff.mp h).2).1

theorem reports_ofSource_ne_nil (h : (ofSource false earlier source).fault = some .outOfRange) :
    (ofSource false earlier source).reports ≠ [] := by
  have heq := ofSource_of_fault h
  rw [heq] at h ⊢
  exact reports_ofTokens_ne_nil h

end Reading

end Scriptlet
