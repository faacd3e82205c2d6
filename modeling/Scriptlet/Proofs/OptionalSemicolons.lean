import Scriptlet.Proofs.StatementSoundness
import Mathlib.Data.List.Chain

/-! # Semicolons that may be missing

Between statements a semicolon may stand or be missing, except behind a declaration whose last
variable is not initialised. So from a program that is read without a report any semicolons can be
dropped, as long as one is left right behind each such declaration: the same nodes are read, with
the same places and scopes (`parseProgram_dropSemicolons`).

Which tokens are dropped is given by marks. The proof goes along the derivation of the program: a
segment that is no sequence of statements holds semicolons in its blocks only, and nowhere else does
the grammar look at what was dropped.
-/
namespace Scriptlet

open ParseState

/-! ## Tokens with marks -/

namespace Marked

/-- All tokens, without their marks. -/
def tokens (m : List (Token × Bool)) : List Token :=
  m.map Prod.fst

/-- The tokens that are marked to be kept. -/
def kept (m : List (Token × Bool)) : List Token :=
  tokens (m.filter Prod.snd)

variable {m r : List (Token × Bool)} {seg seg' : List Token} {t : Token}

@[simp] theorem tokens_append (m r : List (Token × Bool)) :
    tokens (m ++ r) = tokens m ++ tokens r :=
  List.map_append

@[simp] theorem kept_append (m r : List (Token × Bool)) : kept (m ++ r) = kept m ++ kept r := by
  simp [kept]

/-- A declaration whose last variable is not initialised. -/
def IsBareDeclaration (d : List Token) : Prop :=
  ∃ k t seg ds, d = k :: t :: seg ∧ (k.kind = .varWord ∨ k.kind = .letWord) ∧
    t.kind ∈ [TokenKind.intWord, .floatWord, .stringWord, .boolWord] ∧
    Introduces t.text (decide (k.kind ≠ .letWord)) t.pos seg true ds

/-- Whether tokens begin with a semicolon. -/
def BeginsWithSemicolon (ts : List Token) : Prop :=
  ∃ t ∈ ts.head?, t.kind = .semicolon

/-- **Only semicolons are dropped**, and if semicolons stand behind a declaration whose last variable
is not initialised, then one of them is left there. -/
structure DropsSemicolons (m : List (Token × Bool)) : Prop where
  dropped : ∀ p ∈ m, p.2 = false → p.1.kind = .semicolon
  left : ∀ d r, d ++ r <:+ m → IsBareDeclaration (tokens d) → BeginsWithSemicolon (tokens r) →
    BeginsWithSemicolon (kept r)

namespace DropsSemicolons

theorem of_suffix (h : DropsSemicolons m) (hr : r <:+ m) : DropsSemicolons r where
  dropped := fun p hp => h.dropped p (hr.subset hp)
  left := fun d r' hd => h.left d r' (hd.trans hr)

/-- A token that is no semicolon is kept, and so are those before it. -/
theorem exists_cons (h : DropsSemicolons (m ++ r)) (hm : tokens m = t :: seg)
    (ht : t.kind ≠ .semicolon) :
    ∃ m', kept m = t :: kept m' ∧ tokens m' = seg ∧ DropsSemicolons (m' ++ r) := by
  obtain ⟨⟨t', stays⟩, m', rfl, rfl, hm'⟩ := List.map_eq_cons_iff.mp hm
  refine ⟨m', ?_, hm', h.of_suffix (List.suffix_cons _ _)⟩
  cases stays with
  | false => exact absurd (h.dropped _ List.mem_cons_self rfl) ht
  | true => rfl

theorem exists_append (h : DropsSemicolons (m ++ r)) (hm : tokens m = seg ++ seg') :
    ∃ m₁ m₂, m = m₁ ++ m₂ ∧ tokens m₁ = seg ∧ tokens m₂ = seg' ∧
      DropsSemicolons (m₁ ++ (m₂ ++ r)) ∧ DropsSemicolons (m₂ ++ r) := by
  obtain ⟨m₁, m₂, rfl, hm₁, hm₂⟩ := List.map_eq_append_iff.mp hm
  rw [List.append_assoc] at h
  exact ⟨m₁, m₂, rfl, hm₁, hm₂, h, h.of_suffix (List.suffix_append _ _)⟩

/-- Where there is no semicolon, all is kept. -/
theorem kept_eq (h : DropsSemicolons (m ++ r)) (hm : tokens m = seg)
    (hseg : ∀ t ∈ seg, t.kind ≠ .semicolon) : kept m = seg := by
  induction seg generalizing m with
  | nil =>
    rw [List.map_eq_nil_iff.mp hm]
    rfl
  | cons t seg ih =>
    obtain ⟨ht, hseg⟩ := List.forall_mem_cons.mp hseg
    obtain ⟨m', hkept, hm', h'⟩ := h.exists_cons hm ht
    rw [hkept, ih h' hm' hseg]

/-- What is left behind a declaration stands before the next token that is no semicolon. -/
theorem exists_left {d : List (Token × Bool)} (h : DropsSemicolons (d ++ (m ++ r)))
    (hd : IsBareDeclaration (tokens d)) (hm : BeginsWithSemicolon (tokens m))
    (hr : ∀ t ∈ (tokens r).head?, t.kind ≠ .semicolon) :
    ∃ t ts, kept m = t :: ts ∧ t.kind = .semicolon := by
  have hleft : BeginsWithSemicolon (kept (m ++ r)) := by
    refine h.left d (m ++ r) List.suffix_rfl hd ?_
    obtain ⟨t, ht, hsemi⟩ := hm
    exact ⟨t, by rw [tokens_append, List.head?_append, ht]; rfl, hsemi⟩
  obtain ⟨t, ht, hsemi⟩ := hleft
  rw [kept_append] at ht
  cases hkept : kept m with
  | cons u us =>
    rw [hkept] at ht
    have hu : u = t := Option.some.inj ht
    exact ⟨u, us, rfl, hu ▸ hsemi⟩
  | nil =>
    rw [hkept, List.nil_append] at ht
    cases r with
    | nil => cases ht
    | cons p r =>
      have hp : p.1.kind ≠ .semicolon := hr p.1 rfl
      have hrest : DropsSemicolons (p :: r ++ []) := by
        rw [List.append_nil]
        exact h.of_suffix ((List.suffix_append m _).trans (List.suffix_append d _))
      obtain ⟨m', hhead, -⟩ := hrest.exists_cons (m := p :: r) rfl hp
      rw [hhead] at ht
      cases ht
      exact absurd hsemi hp

end DropsSemicolons

end Marked

open Marked

/-! ## Segments without some of their semicolons -/

theorem Spans.kind_ne_semicolon {before : Pos} {seg : List Token} {p : Phrase}
    (h : Spans before seg p) : ∀ t ∈ seg, t.kind ≠ .semicolon := by
  intro t ht hk
  have hin := h.inExpression t ht
  rw [hk] at hin
  cases hin

theorem Introduces.kind_ne_semicolon {type : String} {isMutable isBare : Bool} {before : Pos}
    {seg : List Token} {ds : List Node} (h : Introduces type isMutable before seg isBare ds) :
    ∀ t ∈ seg, t.kind ≠ .semicolon := by
  intro t ht hk
  rcases h.kind_of_mem t ht with hin | hin <;> rw [hk] at hin <;> cases hin

/-- A statement behind which a semicolon has to stand is a declaration. -/
theorem Composes.isBareDeclaration {scope : ScopeId} {σ σ' : Scopes} {seg : List Token}
    {ns : List Node} (h : Composes scope σ seg σ' (.statement true ns)) : IsBareDeclaration seg := by
  cases h with
  | declaration hk ht declared => exact ⟨_, _, _, _, rfl, hk, ht, declared⟩

/-- **What is kept of a segment makes the same clause.** Behind a sequence of statements stands no
semicolon that could be mistaken for one of its own. -/
theorem Composes.kept {scope : ScopeId} {σ σ' : Scopes} {seg : List Token} {c : Clause}
    (h : Composes scope σ seg σ' c) :
    ∀ {m r : List (Token × Bool)}, tokens m = seg → DropsSemicolons (m ++ r) →
      (c.isBody = true → ∀ t ∈ (tokens r).head?, t.kind ≠ .semicolon) →
      Composes scope σ (Marked.kept m) σ' c := by
  -- the kinds of single tokens
  have hne : ∀ {t : Token} {k : TokenKind}, t.kind = k → k ≠ .semicolon → t.kind ≠ .semicolon :=
    fun hk hne => hk ▸ hne
  -- only sequences of statements need to know what follows
  have hno : ∀ {p : Prop}, false = true → p := fun hfalse => absurd hfalse Bool.false_ne_true
  induction h with
  | @declaration scope σ k t seg isBare ds hk ht declared =>
    intro m r hm hdrop _
    have hk' : k.kind ≠ .semicolon := hk.elim (hne · (by decide)) (hne · (by decide))
    have ht' : t.kind ≠ .semicolon := by
      intro hsemi
      rw [hsemi] at ht
      revert ht
      decide
    rw [hdrop.kept_eq hm (by simpa [hk', ht'] using declared.kind_ne_semicolon)]
    exact .declaration hk ht declared
  | call hk hl hr args =>
    intro m r hm hdrop _
    rw [hdrop.kept_eq hm (by simpa [hk, hl, hr, or_imp, forall_and] using args.kind_ne_semicolon)]
    exact .call hk hl hr args
  | assignment hk ha value =>
    intro m r hm hdrop _
    rw [hdrop.kept_eq hm (by simpa [hk, ha] using value.kind_ne_semicolon)]
    exact .assignment hk ha value
  | @update scope σ t a op seg e hk ha value =>
    intro m r hm hdrop _
    have ha' : a.kind ≠ .semicolon := by
      intro hsemi
      rw [hsemi] at ha
      cases ha
    rw [hdrop.kept_eq hm (by simpa [hk, ha'] using value.kind_ne_semicolon)]
    exact .update hk ha value
  | @conditional scope σ σ' t r' seg bs hk branches ih =>
    intro m r hm hdrop _
    obtain ⟨m, hkept, hm, hdrop⟩ := hdrop.exists_cons hm (hne hk (by decide))
    have hbranches := ih hm hdrop hno
    -- the last brace is kept
    obtain ⟨init, r'', hlast, hr'⟩ := branches.exists_last rfl
    obtain ⟨rfl, hsame⟩ := List.append_inj' hlast rfl
    obtain ⟨m₁, m₂, rfl, hm₁, hm₂, -, hdrop₂⟩ := hdrop.exists_append hm
    have hkept₂ : Marked.kept m₂ = [r'] := by
      refine hdrop₂.kept_eq hm₂ ?_
      rw [hsame]
      exact List.forall_mem_singleton.mpr hr'
    rw [kept_append, hkept₂] at hbranches hkept
    rw [hkept]
    exact .conditional hk hbranches
  | conditionalElse hk branches ho otherwise ihb iho =>
    intro m r hm hdrop _
    obtain ⟨m, hkept, hm, hdrop⟩ := hdrop.exists_cons hm (hne hk (by decide))
    obtain ⟨m₁, m₂, rfl, hm₁, hm₂, hdrop₁, hdrop₂⟩ := hdrop.exists_append hm
    obtain ⟨m₃, hkept₂, hm₃, hdrop₃⟩ := hdrop₂.exists_cons hm₂ (hne ho (by decide))
    rw [hkept, kept_append, hkept₂]
    exact .conditionalElse hk (ihb hm₁ hdrop₁ hno) ho (iho hm₃ hdrop₃ hno)
  | loop hk condition block ih =>
    intro m r hm hdrop _
    obtain ⟨m, hkept, hm, hdrop⟩ := hdrop.exists_cons hm (hne hk (by decide))
    obtain ⟨m₁, m₂, rfl, hm₁, hm₂, hdrop₁, hdrop₂⟩ := hdrop.exists_append hm
    rw [hkept, kept_append, hdrop₁.kept_eq hm₁ condition.kind_ne_semicolon]
    exact .loop hk condition (ih hm₂ hdrop₂ hno)
  | endless hk block ih =>
    intro m r hm hdrop _
    obtain ⟨m, hkept, hm, hdrop⟩ := hdrop.exists_cons hm (hne hk (by decide))
    rw [hkept]
    exact .endless hk (ih hm hdrop hno)
  | breakLoop hk =>
    intro m r hm hdrop _
    rw [hdrop.kept_eq hm (by simp [hk])]
    exact .breakLoop hk
  | continueLoop hk =>
    intro m r hm hdrop _
    rw [hdrop.kept_eq hm (by simp [hk])]
    exact .continueLoop hk
  | branch condition block ih =>
    intro m r hm hdrop _
    obtain ⟨m₁, m₂, rfl, hm₁, hm₂, hdrop₁, hdrop₂⟩ := hdrop.exists_append hm
    rw [kept_append, hdrop₁.kept_eq hm₁ condition.kind_ne_semicolon]
    exact .branch condition (ih hm₂ hdrop₂ hno)
  | branchMore condition block ho more ihb ihm =>
    intro m r hm hdrop _
    obtain ⟨m₁, m₂, rfl, hm₁, hm₂, hdrop₁, hdrop₂⟩ := hdrop.exists_append hm
    obtain ⟨m₃, m₄, rfl, hm₃, hm₄, hdrop₃, hdrop₄⟩ := hdrop₂.exists_append hm₂
    obtain ⟨m₅, hkept₄, hm₅, hdrop₅⟩ := hdrop₄.exists_cons hm₄ (hne ho (by decide))
    rw [kept_append, kept_append, hkept₄, hdrop₁.kept_eq hm₁ condition.kind_ne_semicolon]
    exact .branchMore condition (ihb hm₃ hdrop₃ hno) ho (ihm hm₅ hdrop₅ hno)
  | @block scope σ σ' l r' seg ss hl hr body ih =>
    intro m r hm hdrop _
    obtain ⟨m, hkept, hm, hdrop⟩ := hdrop.exists_cons hm (hne hl (by decide))
    obtain ⟨m₁, m₂, rfl, hm₁, hm₂, hdrop₁, hdrop₂⟩ := hdrop.exists_append hm
    have hr' : r'.kind ≠ .semicolon := hne hr (by decide)
    rw [hkept, kept_append, hdrop₂.kept_eq hm₂ (List.forall_mem_singleton.mpr hr')]
    refine .block hl hr (ih hm₁ hdrop₁ fun _ => ?_)
    simpa [hm₂] using hr'
  | nil =>
    intro m r hm hdrop _
    rw [hdrop.kept_eq hm (List.forall_mem_nil _)]
    exact .nil
  | semicolon hk rest ih =>
    intro m r hm hdrop hr
    obtain ⟨⟨t, stays⟩, m, rfl, rfl, hm'⟩ := List.map_eq_cons_iff.mp hm
    have hrest := ih hm' (hdrop.of_suffix (List.suffix_cons _ _)) hr
    cases stays with
    | false => exact hrest
    | true => exact .semicolon hk hrest
  | @cons scope σ σ₁ σ' seg seg' isBare ns ss first rest hbare ihf ihr =>
    intro m r hm hdrop hr
    obtain ⟨m₁, m₂, rfl, hm₁, hm₂, hdrop₁, hdrop₂⟩ := hdrop.exists_append hm
    rw [kept_append]
    refine .cons (ihf hm₁ hdrop₁ hno) (ihr hm₂ hdrop₂ hr) fun hb => ?_
    subst hb
    obtain ⟨t, ts, hseg', hsemi⟩ := hbare rfl
    refine hdrop₁.exists_left ?_ ⟨t, ?_, hsemi⟩ (hr rfl)
    · rw [hm₁]
      exact first.isBareDeclaration
    · rw [hm₂, hseg']
      rfl

/-! ## Programs -/

/-- **Semicolons may be dropped.** If a program is read without a report, then so is what is left
of it when semicolons are dropped, as long as one is left right behind each declaration whose last
variable is not initialised. The nodes are the same, with all their places, and so are the scopes. -/
theorem parseProgram_dropSemicolons {m : List (Token × Bool)} {n : Node} {s : ParseState}
    (h : parseProgram (tokens m) = .ok n s) (hquiet : s.reports = []) (hdrop : DropsSemicolons m) :
    ∃ s', parseProgram (kept m) = .ok n s' ∧ s'.reports = [] ∧ s'.scopes = s.scopes := by
  obtain ⟨body, u, more, σ, ss, htokens, hu, rfl, rfl, hcomposes, hexposes⟩ :=
    exists_composes_of_parseProgram h hquiet
  rw [← List.append_nil m] at hdrop
  obtain ⟨m₁, m₂, rfl, hm₁, hm₂, hdrop₁, hdrop₂⟩ := hdrop.exists_append htokens
  have hu' : u.kind ≠ .semicolon := by
    rw [hu]
    decide
  obtain ⟨m₃, hkept, hm₃, -⟩ := hdrop₂.exists_cons hm₂ hu'
  have hbody : Composes Scopes.root {} (kept m₁) σ (.body ss) := by
    refine hcomposes.kept hm₁ hdrop₁ fun _ => ?_
    simpa [hm₂] using hu'
  rw [kept_append, hkept]
  exact ⟨_, hbody.parseProgram_eq hexposes hu _, rfl, rfl⟩

/-- A declaration whose last variable is not initialised ends with the name of that variable. -/
theorem Introduces.exists_last_name {type : String} {isMutable isBare : Bool} {before : Pos}
    {seg : List Token} {ds : List Node} (h : Introduces type isMutable before seg isBare ds)
    (hbare : isBare = true) : ∃ init t, seg = init ++ [t] ∧ t.kind = .identifier := by
  induction h with
  | initialised => cases hbare
  | bare hk => exact ⟨[], _, rfl, hk⟩
  | @initialisedMore before t a c seg seg' e isBare ds hk ha value hcomma more ih =>
    obtain ⟨init, x, rfl, hx⟩ := ih hbare
    exact ⟨t :: a :: (seg ++ c :: init), x, by simp, hx⟩
  | @bareMore before t c seg' isBare ds hk hcomma more ih =>
    obtain ⟨init, x, rfl, hx⟩ := ih hbare
    exact ⟨t :: c :: init, x, rfl, hx⟩

/-- It is enough to keep every semicolon that stands right behind a name. -/
theorem Marked.DropsSemicolons.of_isChain {m : List (Token × Bool)}
    (hdropped : ∀ p ∈ m, p.2 = false → p.1.kind = .semicolon)
    (hnames : m.IsChain fun p q => p.1.kind = .identifier → q.1.kind = .semicolon → q.2 = true) :
    DropsSemicolons m where
  dropped := hdropped
  left := by
    rintro d r hsuffix ⟨k, t, seg, ds, hd, -, -, declared⟩ ⟨u, hu, hsemi⟩
    obtain ⟨init, x, rfl, hx⟩ := declared.exists_last_name rfl
    rw [← List.cons_append, ← List.cons_append] at hd
    obtain ⟨d', ds', rfl, -, hlast⟩ := List.map_eq_append_iff.mp hd
    obtain ⟨p, rfl, rfl⟩ := List.map_eq_singleton_iff.mp hlast
    cases r with
    | nil => cases hu
    | cons q r =>
      have huq : q.1 = u := Option.some.inj hu
      have hkept : q.2 = true := by
        rw [List.append_assoc] at hsuffix
        have hlast := hnames.suffix ((List.suffix_append d' _).trans hsuffix)
        exact (List.isChain_cons_cons.mp hlast).1 hx (huq ▸ hsemi)
      refine ⟨u, ?_, hsemi⟩
      simp [kept, tokens, hkept, huq]

/-- The tokens of `var int x;; x = 1; loop {break;;};`, of which only the first semicolon is kept. -/
def manySemicolons : List (Token × Bool) :=
  [(⟨.varWord, .text "var", ⟨1, 0⟩⟩, true), (⟨.intWord, .text "int", ⟨1, 4⟩⟩, true),
   (⟨.identifier, .text "x", ⟨1, 8⟩⟩, true), (⟨.semicolon, .text ";", ⟨1, 9⟩⟩, true),
   (⟨.semicolon, .text ";", ⟨1, 10⟩⟩, false), (⟨.identifier, .text "x", ⟨1, 12⟩⟩, true),
   (⟨.assign, .text "=", ⟨1, 14⟩⟩, true), (⟨.number, .int 1, ⟨1, 16⟩⟩, true),
   (⟨.semicolon, .text ";", ⟨1, 17⟩⟩, false), (⟨.loopWord, .text "loop", ⟨1, 19⟩⟩, true),
   (⟨.leftBrace, .text "\x7b", ⟨1, 24⟩⟩, true), (⟨.breakWord, .text "break", ⟨1, 25⟩⟩, true),
   (⟨.semicolon, .text ";", ⟨1, 30⟩⟩, false), (⟨.semicolon, .text ";", ⟨1, 31⟩⟩, false),
   (⟨.rightBrace, .text "\x7d", ⟨1, 32⟩⟩, true), (⟨.semicolon, .text ";", ⟨1, 33⟩⟩, false),
   (Token.endOfFile, true)]

/-- All its semicolons but the first can be dropped. -/
theorem manySemicolons_dropped :
    ∃ n s s', parseProgram (tokens manySemicolons) = .ok n s ∧ s.reports = [] ∧
      DropsSemicolons manySemicolons ∧ parseProgram (kept manySemicolons) = .ok n s' ∧
      s'.reports = [] := by
  obtain ⟨n, s, hread, hquiet⟩ :
      ∃ n s, parseProgram (tokens manySemicolons) = .ok n s ∧ s.reports = [] :=
    ⟨_, _, by with_unfolding_all rfl, by with_unfolding_all rfl⟩
  have hdrop : DropsSemicolons manySemicolons := .of_isChain (by decide) (by decide)
  obtain ⟨s', hread', hquiet', -⟩ := parseProgram_dropSemicolons hread hquiet hdrop
  exact ⟨n, s, s', hread, hquiet, hdrop, hread', hquiet'⟩

end Scriptlet
