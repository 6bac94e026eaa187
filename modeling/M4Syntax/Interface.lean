import M4Syntax.CacheReads
import M4Syntax.Flags

/-!
# What the callers read back

`changequote` and `changecom` read the delimiters back through the getters, and the expander
reads the quote age.

**Stored delimiters.** In every reachable state each installer stores, as C strings with their
lengths, the pair its argument policy gives, and keeps the pair of the other family
(`installers_store_defaulted_pair`). This holds on both branches of the installers: when the
defaulted pair equals the stored one they return at once, and the stored pair, which holds no
NUL and records its lengths, already is the copy the body would make.

**What a non-zero quote age promises.** The expander trusts a non-zero quote age to name, in its
low 16 bits, a left and a right quote byte that the table classifies as LQUOTE and RQUOTE. This
fails in general (`+` of another basis over the left quote keeps the age), but it holds after
every run from a reachable state with a truthful single-quote flag that makes no `+` of a basis
other than LQUOTE (`runOps_quoteAge_roles`).
-/

set_option autoImplicit false

namespace M4Syntax

/-- A stored pair of a reachable state is the pair an installer would store for its own
strings. -/
theorem setDelimiters_pair_self {s : M4SyntaxTable} (inv : SyntaxInv s) (d : Delim)
    (blocking : BitVec 16) (left right : List Byte) :
    (setDelimiters d blocking s left right).pair d = storedPair left right := by
  by_cases same : sameDelimiters d s left right
  · rw [setDelimiters_of_same _ _ _ _ _ same]
    have wf := inv.pairs d
    obtain ⟨str1, str2⟩ := same
    generalize s.pair d = p at wf str1 str2 ⊢
    obtain ⟨nul1, nul2, len1, len2, -⟩ := wf
    rw [cstr_of_zero_not_mem nul1] at str1
    rw [cstr_of_zero_not_mem nul2] at str2
    simp [storedPair, strlen, ← str1, ← str2, ← len1, ← len2]
  · rw [setDelimiters_pair same, if_pos rfl]

/-- In every reachable state `m4_set_quotes` stores the defaulted quotes and keeps the comment
delimiters, and `m4_set_comment` stores the defaulted comment delimiters and keeps the quotes,
as C strings with their lengths. -/
theorem installers_store_defaulted_pair {s : M4SyntaxTable} (reachable : Reachable s)
    (lq rq bc ec : Option (List Byte)) :
    m4GetSyntaxQuotes (m4SetQuotes s lq rq) =
        storedPair (quoteArgs lq rq).1 (quoteArgs lq rq).2 ∧
      (m4SetQuotes s lq rq).comm = s.comm ∧
      (m4SetComment s bc ec).comm = storedPair (commentArgs bc ec).1 (commentArgs bc ec).2 ∧
      m4GetSyntaxQuotes (m4SetComment s bc ec) = m4GetSyntaxQuotes s :=
  have inv := reachable.syntaxInv
  ⟨setDelimiters_pair_self inv .quote _ _ _,
    setDelimiters_pair_of_ne (e := .comm) (by decide) _ _ _ _,
    setDelimiters_pair_self inv .comm _ _ _, m4SetComment_quote s bc ec⟩

/-- `changequote([)` and `changecom` on the created table. -/
theorem installers_store_defaulted_pair_bracket :
    Reachable m4SyntaxCreate ∧
      m4GetSyntaxQuotes (m4SetQuotes m4SyntaxCreate (some [91]) none) =
        storedPair (quoteArgs (some [91]) none).1 (quoteArgs (some [91]) none).2 ∧
      (m4SetQuotes m4SyntaxCreate (some [91]) none).comm = m4SyntaxCreate.comm ∧
      (m4SetComment m4SyntaxCreate none none).comm =
        storedPair (commentArgs none none).1 (commentArgs none none).2 ∧
      m4GetSyntaxQuotes (m4SetComment m4SyntaxCreate none none) =
        m4GetSyntaxQuotes m4SyntaxCreate :=
  ⟨.create, installers_store_defaulted_pair .create (some [91]) none none none⟩

/-- From every reachable state whose single-quote flag is truthful, after any run of calls none
of which is `+` of a basis other than LQUOTE, a non-zero quote age holds in its low 16 bits the
stored one-byte quotes, and the table gives the left quote byte the basis LQUOTE and the right
quote byte the RQUOTE mask. -/
theorem runOps_quoteAge_roles {s : M4SyntaxTable} (reachable : Reachable s)
    (sound : SingleSound .quote s) (ops : List SyntaxOp)
    (keeps : ∀ op ∈ ops, op.takesStart .quote = false) (nonzero : (runOps ops s).quoteAge ≠ 0) :
    ∃ a b : Byte, (runOps ops s).quote = ⟨[a], 1, [b], 1⟩ ∧
      (runOps ops s).quoteAge % 65536 = a.val * 256 + b.val ∧
      m4HasSyntax ((runOps ops s).table a) SyntaxCategory.lquote.code = true ∧
      m4HasSyntax ((runOps ops s).table b) SyntaxCategory.rquote.code = true := by
  obtain ⟨l, fresh⟩ := (reachable.runOps ops).quoteAge_fresh
  rw [fresh] at nonzero ⊢
  obtain ⟨a, b, -, -, quote, -, packed⟩ :=
    quoteAge_ne_zero (reachable.runOps ops).syntaxInv nonzero
  have single : (runOps ops s).isSingle .quote = true := by
    have safe := quoteAgeSafe_of_ne_zero nonzero
    simp only [quoteAgeSafe, Bool.and_eq_true] at safe
    exact safe.1.1.1.1.1.2
  have roles := reachable.runOps_keeps (fun op reachable (sound : SingleSound .quote _) keeps =>
    sound.apply reachable.syntaxInv op keeps) sound ops keeps single
  simp only [M4SyntaxTable.pair, quote, firstByte, List.headD_cons] at roles
  refine ⟨a, b, quote, ?_, roles⟩
  have small := a.isLt
  have small' := b.isLt
  omega

/-- `changesyntax(L+, "[")` on the created table. -/
theorem runOps_quoteAge_roles_bracket :
    Reachable m4SyntaxCreate ∧ SingleSound .quote m4SyntaxCreate ∧
      (∀ op ∈ [SyntaxOp.setSyntax 76 .add [91]], op.takesStart .quote = false) ∧
      (runOps [SyntaxOp.setSyntax 76 .add [91]] m4SyntaxCreate).quoteAge ≠ 0 ∧
      ∃ a b : Byte, (runOps [SyntaxOp.setSyntax 76 .add [91]] m4SyntaxCreate).quote =
          ⟨[a], 1, [b], 1⟩ ∧
        (runOps [SyntaxOp.setSyntax 76 .add [91]] m4SyntaxCreate).quoteAge % 65536 =
          a.val * 256 + b.val ∧
        m4HasSyntax ((runOps [SyntaxOp.setSyntax 76 .add [91]] m4SyntaxCreate).table a)
          SyntaxCategory.lquote.code = true ∧
        m4HasSyntax ((runOps [SyntaxOp.setSyntax 76 .add [91]] m4SyntaxCreate).table b)
          SyntaxCategory.rquote.code = true :=
  have sound := FlagsTruthful.create.quotes
  have keeps : ∀ op ∈ [SyntaxOp.setSyntax 76 .add [91]], op.takesStart .quote = false := by
    decide
  have nonzero : (runOps [SyntaxOp.setSyntax 76 .add [91]] m4SyntaxCreate).quoteAge ≠ 0 := by
    decide
  ⟨.create, sound, keeps, nonzero, runOps_quoteAge_roles .create sound _ keeps nonzero⟩

end M4Syntax
