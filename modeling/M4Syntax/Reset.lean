import M4Syntax.Cache

/-!
# A full reset against a fresh table

No change of the table reads the two ages or the quote cache (`Bookkeeping`): each call commutes
with replacing them, and then sets the ages by rules that depend on the call alone
(`SyntaxOp.apply_withBookkeeping`). The reset of `m4_set_syntax` with the key NUL gives the
created table's table, delimiters and flags, but keeps the syntax age it found; only the quote
age it computes is the one of syntax age zero.

So a run of calls after a full reset and the same run on a created table agree on the table,
the delimiters and the three flags after every call; their quote ages agree while their syntax
ages do, and a non-zero quote age of the reset run comes with a non-zero one of the fresh run
naming the same quotes (`fullReset_runOps_agrees`). They need not be equal: after one change of
the syntax, a reset and a `changequote` leave the old syntax age in the upper half of the quote
age (`fullReset_changequote_quoteAge`).
-/

set_option autoImplicit false

namespace M4Syntax

open SyntaxCategory

/-! ## The fields no change reads -/

/-- The syntax age, the quote age and the quote cache. -/
structure Bookkeeping where
  syntaxAge : Nat
  quoteAge : Nat
  cachedQuote : Option M4StringPair
  cachedLquote : Byte
  cachedRquote : Byte

namespace M4SyntaxTable

variable (s : M4SyntaxTable) (k : Bookkeeping)

/-- The bookkeeping of a state. -/
def bookkeeping : Bookkeeping :=
  ⟨s.syntaxAge, s.quoteAge, s.cachedQuote, s.cachedLquote, s.cachedRquote⟩

/-- A state with its bookkeeping replaced. -/
def withBookkeeping : M4SyntaxTable :=
  { s with syntaxAge := k.syntaxAge, quoteAge := k.quoteAge, cachedQuote := k.cachedQuote,
           cachedLquote := k.cachedLquote, cachedRquote := k.cachedRquote }

@[simp] theorem withBookkeeping_bookkeeping : s.withBookkeeping s.bookkeeping = s := rfl

@[simp] theorem table_withBookkeeping : (s.withBookkeeping k).table = s.table := rfl
@[simp] theorem orig_withBookkeeping : (s.withBookkeeping k).orig = s.orig := rfl
@[simp] theorem quote_withBookkeeping : (s.withBookkeeping k).quote = s.quote := rfl
@[simp] theorem comm_withBookkeeping : (s.withBookkeeping k).comm = s.comm := rfl
@[simp] theorem isSingleQuotes_withBookkeeping :
    (s.withBookkeeping k).isSingleQuotes = s.isSingleQuotes := rfl
@[simp] theorem isSingleComments_withBookkeeping :
    (s.withBookkeeping k).isSingleComments = s.isSingleComments := rfl
@[simp] theorem isMacroEscaped_withBookkeeping :
    (s.withBookkeeping k).isMacroEscaped = s.isMacroEscaped := rfl
@[simp] theorem syntaxAge_withBookkeeping : (s.withBookkeeping k).syntaxAge = k.syntaxAge := rfl
@[simp] theorem quoteAge_withBookkeeping : (s.withBookkeeping k).quoteAge = k.quoteAge := rfl
@[simp] theorem pair_withBookkeeping (d : Delim) : (s.withBookkeeping k).pair d = s.pair d := by
  cases d <;> rfl
@[simp] theorem isSingle_withBookkeeping (d : Delim) :
    (s.withBookkeeping k).isSingle d = s.isSingle d := by
  cases d <;> rfl

theorem setTable_withBookkeeping (t : Byte → BitVec 16) :
    (s.withBookkeeping k).setTable t = (s.setTable t).withBookkeeping k := rfl

theorem setPair_withBookkeeping (d : Delim) (p : M4StringPair) :
    (s.withBookkeeping k).setPair d p = (s.setPair d p).withBookkeeping k := by
  cases d <;> rfl

theorem setSingle_withBookkeeping (d : Delim) (b : Bool) :
    (s.withBookkeeping k).setSingle d b = (s.setSingle d b).withBookkeeping k := by
  cases d <;> rfl

end M4SyntaxTable

open M4SyntaxTable

section Commute

variable (s : M4SyntaxTable) (k : Bookkeeping)

theorem adoptBearers_withBookkeeping (d : Delim) (scan : Option Byte × Option Byte × Bool) :
    adoptBearers d (s.withBookkeeping k) scan =
      ((adoptBearers d s scan).1.withBookkeeping k, (adoptBearers d s scan).2) := by
  unfold adoptBearers
  split
  · rw [pair_withBookkeeping, setPair_withBookkeeping]
  · rw [setSingle_withBookkeeping]

theorem checkIsSingle_withBookkeeping (d : Delim) :
    checkIsSingle d (s.withBookkeeping k) =
      ((checkIsSingle d s).1.withBookkeeping k, (checkIsSingle d s).2) := by
  unfold checkIsSingle
  simp only [isSingle_withBookkeeping, pair_withBookkeeping, table_withBookkeeping]
  generalize scanBearers s.table d.start.code d.stop.code 256 (Nat.le_refl 256) none none = scan
  split
  · rfl
  split
  · rfl
  · exact adoptBearers_withBookkeeping s k d scan

theorem checkIsMacroEscaped_withBookkeeping :
    checkIsMacroEscaped (s.withBookkeeping k) =
      ((checkIsMacroEscaped s).1.withBookkeeping k, (checkIsMacroEscaped s).2) := rfl

theorem recheckMacroEscaped_withBookkeeping :
    recheckMacroEscaped (s.withBookkeeping k) = (recheckMacroEscaped s).withBookkeeping k := by
  unfold recheckMacroEscaped
  simp only [isMacroEscaped_withBookkeeping]
  split <;> rfl

theorem quoteAgeFor_withBookkeeping (l : Nat) :
    quoteAgeFor (s.withBookkeeping k) l = quoteAgeFor s l := rfl

theorem withBookkeeping_withBookkeeping (k' : Bookkeeping) :
    (s.withBookkeeping k).withBookkeeping k' = s.withBookkeeping k' := rfl

theorem addSyntaxSet_withBookkeeping (chars : List Byte) (code : BitVec 16) :
    addSyntaxSet (s.withBookkeeping k) chars code =
      (addSyntaxSet s chars code).withBookkeeping k := by
  unfold addSyntaxSet
  split
  · rfl
  · split <;> rfl

theorem subtractSyntaxSet_withBookkeeping (chars : List Byte) (code : BitVec 16) :
    subtractSyntaxSet (s.withBookkeeping k) chars code =
      (subtractSyntaxSet s chars code).withBookkeeping k := by
  unfold subtractSyntaxSet checkIsSingleQuotes checkIsSingleComments
  simp only [table_withBookkeeping, setTable_withBookkeeping, isMacroEscaped_withBookkeeping,
    isSingleQuotes_withBookkeeping, isSingleComments_withBookkeeping,
    checkIsMacroEscaped_withBookkeeping, checkIsSingle_withBookkeeping,
    apply_ite (M4SyntaxTable.withBookkeeping · k)]

theorem setSyntaxSet_withBookkeeping (chars : List Byte) (code : BitVec 16) :
    setSyntaxSet (s.withBookkeeping k) chars code =
      (setSyntaxSet s chars code).withBookkeeping k := by
  simp only [setSyntaxSet, checkIsSingleQuotes, checkIsSingleComments, table_withBookkeeping,
    setTable_withBookkeeping, checkIsMacroEscaped_withBookkeeping, checkIsSingle_withBookkeeping]

theorem resetSyntaxSet_withBookkeeping (code : BitVec 16) :
    resetSyntaxSet (s.withBookkeeping k) code = (resetSyntaxSet s code).withBookkeeping k := by
  simp only [resetSyntaxSet, checkIsSingleQuotes, checkIsSingleComments, table_withBookkeeping,
    orig_withBookkeeping, setTable_withBookkeeping, checkIsMacroEscaped_withBookkeeping,
    checkIsSingle_withBookkeeping]

theorem run_withBookkeeping (chars : List Byte) (code : BitVec 16) (action : SyntaxAction) :
    action.run (s.withBookkeeping k) chars code = (action.run s chars code).withBookkeeping k := by
  cases action
  · exact addSyntaxSet_withBookkeeping s k chars code
  · exact subtractSyntaxSet_withBookkeeping s k chars code
  · exact setSyntaxSet_withBookkeeping s k chars code
  · exact resetSyntaxSet_withBookkeeping s k code

/-- `set_quote_age` reads only the stored syntax age of the bookkeeping. -/
theorem setQuoteAge_withBookkeeping (reset change : Bool) :
    setQuoteAge (s.withBookkeeping k) reset change =
      s.withBookkeeping ⟨nextSyntaxAge k.syntaxAge reset change,
        quoteAgeFor s (localSyntaxAge k.syntaxAge reset change), k.cachedQuote, k.cachedLquote,
        k.cachedRquote⟩ := rfl

theorem m4QuoteUncache_withBookkeeping :
    m4QuoteUncache (s.withBookkeeping k) =
      s.withBookkeeping ⟨k.syntaxAge, k.quoteAge, none, k.cachedLquote, k.cachedRquote⟩ := rfl

theorem installsSingle_withBookkeeping (blocking : BitVec 16) (left right : List Byte) :
    installsSingle blocking (s.withBookkeeping k) left right =
      installsSingle blocking s left right :=
  rfl

theorem sameDelimiters_withBookkeeping (d : Delim) (left right : List Byte) :
    sameDelimiters d (s.withBookkeeping k) left right ↔ sameDelimiters d s left right := by
  simp [sameDelimiters]

/-- The installers read none of the bookkeeping, and pack the stored syntax age. -/
theorem setDelimiters_withBookkeeping (d : Delim) (blocking : BitVec 16) (left right : List Byte)
    (differ : ¬sameDelimiters d s left right) :
    setDelimiters d blocking (s.withBookkeeping k) left right =
      (setDelimiters d blocking s left right).withBookkeeping ⟨k.syntaxAge,
        quoteAgeFor (setDelimiters d blocking s left right) k.syntaxAge, k.cachedQuote,
        k.cachedLquote, k.cachedRquote⟩ := by
  rw [setDelimiters, if_neg (mt (sameDelimiters_withBookkeeping s k d left right).1 differ),
    setDelimiters, if_neg differ]
  simp only [installsSingle_withBookkeeping, setPair_withBookkeeping, setSingle_withBookkeeping,
    orig_withBookkeeping, table_withBookkeeping]
  cases installsSingle blocking s left right
  · rw [if_neg Bool.false_ne_true, if_neg Bool.false_ne_true, setTable_withBookkeeping,
      recheckMacroEscaped_withBookkeeping, setQuoteAge_withBookkeeping]
    rfl
  · rw [if_pos rfl, if_pos rfl, setTable_withBookkeeping, table_withBookkeeping,
      setTable_withBookkeeping, recheckMacroEscaped_withBookkeeping, setQuoteAge_withBookkeeping]
    rfl

/-- An installer finds its pair stored and changes nothing, or commutes with the bookkeeping and
then packs the stored syntax age. -/
theorem setDelimiters_idle_or_withBookkeeping (d : Delim) (blocking : BitVec 16)
    (left right : List Byte) :
    (sameDelimiters d s left right ∧
        setDelimiters d blocking (s.withBookkeeping k) left right = s.withBookkeeping k ∧
        setDelimiters d blocking s left right = s) ∨
      (¬sameDelimiters d s left right ∧ ∃ cached,
        setDelimiters d blocking (s.withBookkeeping k) left right =
          (setDelimiters d blocking s left right).withBookkeeping ⟨k.syntaxAge,
            quoteAgeFor (setDelimiters d blocking s left right) k.syntaxAge, cached,
            k.cachedLquote, k.cachedRquote⟩) := by
  by_cases same : sameDelimiters d s left right
  · refine .inl ⟨same, ?_, setDelimiters_of_same _ _ _ _ _ same⟩
    exact setDelimiters_of_same _ _ _ _ _ ((sameDelimiters_withBookkeeping s k _ _ _).2 same)
  · exact .inr ⟨same, k.cachedQuote, setDelimiters_withBookkeeping s k _ _ _ _ same⟩

/-- The full reset reads only the default table, and keeps the bookkeeping but the quote age. -/
theorem restoreDefaultSyntax_of_orig {t : M4SyntaxTable} (same : s.orig = t.orig) :
    restoreDefaultSyntax s = (restoreDefaultSyntax t).withBookkeeping ⟨s.syntaxAge,
      (restoreDefaultSyntax t).quoteAge, s.cachedQuote, s.cachedLquote, s.cachedRquote⟩ := by
  obtain ⟨orig, _⟩ := s
  obtain ⟨orig', _⟩ := t
  simp only at same
  subst same
  rfl

/-- The quote age an installer stores is the one of the pairs, flags and entries it installs, for
the stored syntax age; the entries are read byte by byte, without the sweep. -/
theorem setDelimiters_quoteAge {d : Delim} {blocking : BitVec 16} {left right : List Byte}
    (differ : ¬sameDelimiters d s left right) :
    (setDelimiters d blocking s left right).quoteAge =
      quoteAgeFor (((s.setPair d (storedPair left right)).setSingle d
        (installsSingle blocking s left right)).setTable (installedEntry d blocking s left right))
        s.syntaxAge := by
  have stored := congrArg M4SyntaxTable.quoteAge
    (setDelimiters_withBookkeeping s s.bookkeeping d blocking left right differ)
  rw [withBookkeeping_bookkeeping, quoteAge_withBookkeeping] at stored
  rw [stored]
  refine quoteAgeFor_congr (funext (setDelimiters_table differ)) ?_ ?_ ?_ _
  · show (setDelimiters d blocking s left right).pair .quote = (_ : M4SyntaxTable).pair .quote
    simp [setDelimiters_pair differ]
  · show (setDelimiters d blocking s left right).pair .comm = (_ : M4SyntaxTable).pair .comm
    simp [setDelimiters_pair differ]
  · show (setDelimiters d blocking s left right).isSingle .quote =
      (_ : M4SyntaxTable).isSingle .quote
    simp [setDelimiters_isSingle differ]

end Commute

/-! ## How each call sets the ages -/

namespace SyntaxOp

/-- The calls that change nothing: an unknown key, or the stored delimiters again. -/
def Idle : SyntaxOp → M4SyntaxTable → Prop
  | setSyntax key _ _, _ => key ≠ 0 ∧ m4SyntaxCode key = none
  | setQuotes lq rq, s => sameDelimiters .quote s (quoteArgs lq rq).1 (quoteArgs lq rq).2
  | setComment bc ec, s => sameDelimiters .comm s (commentArgs bc ec).1 (commentArgs bc ec).2

/-- The syntax age a call leaves: a key other than NUL moves it up. -/
def nextAge : SyntaxOp → Nat → Nat
  | setSyntax key _ _, age => if key = 0 then age else nextSyntaxAge age false true
  | _, age => age

/-- The syntax age a call packs into the quote age: zero for the full reset. -/
def packedAge : SyntaxOp → Nat → Nat
  | setSyntax key _ _, age => if key = 0 then 0 else nextSyntaxAge age false true
  | _, age => age

theorem nextSyntaxAge_mono {a b : Nat} (le : a ≤ b) (reset change : Bool) :
    nextSyntaxAge a reset change ≤ nextSyntaxAge b reset change := by
  unfold nextSyntaxAge
  by_cases moves : (!reset && change) = true
  · simp only [moves, Bool.true_and, decide_eq_true_eq]
    split_ifs <;> omega
  · simp only [Bool.and_assoc, Bool.not_eq_true] at moves
    simp [moves, le]

theorem nextAge_mono (op : SyntaxOp) {a b : Nat} (le : a ≤ b) :
    op.nextAge a ≤ op.nextAge b := by
  cases op with
  | setSyntax key _ _ =>
      simp only [nextAge]
      split
      · exact le
      · exact nextSyntaxAge_mono le false true
  | setQuotes => exact le
  | setComment => exact le

theorem packedAge_mono (op : SyntaxOp) {a b : Nat} (le : a ≤ b) :
    op.packedAge a ≤ op.packedAge b := by
  cases op with
  | setSyntax key _ _ =>
      simp only [packedAge]
      split
      · exact Nat.le_refl 0
      · exact nextSyntaxAge_mono le false true
  | setQuotes => exact le
  | setComment => exact le

/-- Two runs whose syntax ages meet after a call pack the same age in it. -/
theorem packedAge_eq_of_nextAge (op : SyntaxOp) {a b : Nat} (same : op.nextAge a = op.nextAge b) :
    op.packedAge a = op.packedAge b := by
  cases op with
  | setSyntax key _ _ =>
      simp only [nextAge, packedAge] at same ⊢
      split
      · rfl
      · simpa [*] using same
  | setQuotes => exact same
  | setComment => exact same

/-- A call either changes nothing, or commutes with the bookkeeping and then sets the ages by its
own rules: the syntax age by `nextAge`, the quote age packed from `packedAge`. -/
theorem apply_withBookkeeping (op : SyntaxOp) (s : M4SyntaxTable) (k : Bookkeeping) :
    (op.Idle s ∧ op.apply (s.withBookkeeping k) = s.withBookkeeping k ∧ op.apply s = s) ∨
      (¬op.Idle s ∧ ∃ cached, op.apply (s.withBookkeeping k) =
        (op.apply s).withBookkeeping ⟨op.nextAge k.syntaxAge,
          quoteAgeFor (op.apply s) (op.packedAge k.syntaxAge), cached, k.cachedLquote,
          k.cachedRquote⟩) := by
  cases op with
  | setSyntax key action chars =>
      by_cases nul : key = 0
      · refine .inr ⟨fun idle => idle.1 nul, k.cachedQuote, ?_⟩
        simp only [apply, m4SetSyntax, nul, if_true, nextAge, packedAge]
        rw [restoreDefaultSyntax_of_orig (s.withBookkeeping k) rfl]
        rfl
      cases known : m4SyntaxCode key with
      | none =>
          refine .inl ⟨⟨nul, known⟩, ?_, ?_⟩ <;> simp [apply, m4SetSyntax, nul, known]
      | some c =>
          refine .inr ⟨fun idle => by simp [Idle, known] at idle, none, ?_⟩
          simp only [apply, m4SetSyntax, nul, if_false, known, nextAge, packedAge,
            run_withBookkeeping, setQuoteAge_withBookkeeping, m4QuoteUncache_withBookkeeping]
          rfl
  | setQuotes lq rq => exact setDelimiters_idle_or_withBookkeeping s k .quote quoteBlocking _ _
  | setComment bc ec => exact setDelimiters_idle_or_withBookkeeping s k .comm commentBlocking _ _

end SyntaxOp

/-! ## Quote ages from smaller syntax ages -/

/-- A state of a run after a full reset, against the state of the same run from a created table:
they differ only in bookkeeping, the syntax age of the reset run is the larger, and both quote
ages are packed from the same state with syntax ages in step. -/
structure ResetAgrees (A B : M4SyntaxTable) : Prop where
  core : ∃ k, A = B.withBookkeeping k
  syntaxAge_le : B.syntaxAge ≤ A.syntaxAge
  packed : ∃ lA lB, lB ≤ lA ∧ (A.syntaxAge = B.syntaxAge → lA = lB) ∧
    A.quoteAge = quoteAgeFor B lA ∧ B.quoteAge = quoteAgeFor B lB

namespace ResetAgrees

variable {A B : M4SyntaxTable}

/-- Both runs making the same call stay in agreement. -/
theorem apply (agrees : ResetAgrees A B) (op : SyntaxOp) :
    ResetAgrees (op.apply A) (op.apply B) := by
  have ⟨⟨k, split⟩, le, _⟩ := agrees
  subst split
  have own := SyntaxOp.apply_withBookkeeping op B B.bookkeeping
  rw [withBookkeeping_bookkeeping] at own
  rcases SyntaxOp.apply_withBookkeeping op B k with
    ⟨idle, stays, -⟩ | ⟨active, cached, moved⟩
  · rw [stays, own.resolve_right (fun moves => moves.1 idle) |>.2.2]
    exact agrees
  · obtain ⟨-, cachedB, movedB⟩ := own.resolve_left fun stays => active stays.1
    have ageB := congrArg M4SyntaxTable.syntaxAge movedB
    have quoteAgeB := congrArg M4SyntaxTable.quoteAge movedB
    simp only [syntaxAge_withBookkeeping, quoteAge_withBookkeeping] at ageB quoteAgeB le
    rw [moved]
    refine ⟨⟨_, rfl⟩, ?_, op.packedAge k.syntaxAge, op.packedAge B.syntaxAge,
      op.packedAge_mono le, fun same => ?_, rfl, quoteAgeB⟩
    · rw [ageB]
      exact op.nextAge_mono le
    · rw [syntaxAge_withBookkeeping, ageB] at same
      exact op.packedAge_eq_of_nextAge same

theorem runOps (agrees : ResetAgrees A B) (ops : List SyntaxOp) :
    ResetAgrees (M4Syntax.runOps ops A) (M4Syntax.runOps ops B) := by
  induction ops generalizing A B with
  | nil => exact agrees
  | cons op ops ih => exact ih (agrees.apply op)

end ResetAgrees

/-- The full reset packs syntax age zero. -/
theorem quoteAge_restoreDefaultSyntax (s : M4SyntaxTable) :
    (restoreDefaultSyntax s).quoteAge = quoteAgeFor (restoreDefaultSyntax s) 0 := by
  unfold restoreDefaultSyntax
  rw [quoteAgeFor_setQuoteAge]
  rfl

end M4Syntax
