import M4Syntax.SyntaxAge

/-!
# What the stored ages tell their readers

The macro expander never recomputes the quote age: it reads `quote_age` and trusts it. That is
sound because the stored value is never stale. In every reachable state it is what
`set_quote_age` computes from the state as it is now: for the stored syntax age, or for age zero,
and then only in a state the full reset left (`reachable_quoteAge_coherent`). Every call ends
with `set_quote_age`, and nothing after it touches what the age is computed from
(`SyntaxOp.apply_ages`); the age it packs is the age it leaves, unless it is the full reset
(`QuoteAgeCoherent.apply`).

From that, a non-zero quote age decodes: its upper half is the syntax age or zero, its low half
the two one-byte quotes, and the safety test of `set_quote_age` holds of the current table and
delimiters (`reachable_quoteAge_decode`). So two reachable states with one non-zero quote age
have the same quotes (`quoteAge_determines_quotes`), and `m4__quote_cache` returns the current
quotes whenever it rebuilds them from a non-zero age or makes a fresh copy
(`quoteCache_read_agrees`); only a copy kept from before a change goes stale.

The syntax age itself has a closed form over any run: it moves up by one for each call of
`m4_set_syntax` with a known key other than NUL, and saturates at `0xffff`
(`runOps_syntaxAge`).
-/

set_option autoImplicit false

namespace M4Syntax

open SyntaxCategory M4SyntaxTable

/-! ## Each call sets both ages -/

namespace SyntaxOp

/-- The age a call packs is the age it leaves, unless the call is the full reset. -/
theorem packedAge_eq (op : SyntaxOp) (a : Nat) :
    op.packedAge a = op.nextAge a ∨ ∀ s, op.apply s = restoreDefaultSyntax s := by
  cases op with
  | setSyntax key _ _ =>
      by_cases nul : key = 0
      · exact .inr fun s => by simp only [apply, m4SetSyntax, if_pos nul]
      · exact .inl (by simp only [packedAge, nextAge, if_neg nul])
  | setQuotes => exact .inl rfl
  | setComment => exact .inl rfl

/-- A call leaves the state as it was, or sets the syntax age by `nextAge` and the quote age of
the state it leaves, packed from `packedAge`. -/
theorem apply_ages (op : SyntaxOp) (s : M4SyntaxTable) :
    op.apply s = s ∨ ((op.apply s).syntaxAge = op.nextAge s.syntaxAge ∧
      (op.apply s).quoteAge = quoteAgeFor (op.apply s) (op.packedAge s.syntaxAge)) := by
  have own := apply_withBookkeeping op s s.bookkeeping
  rw [withBookkeeping_bookkeeping] at own
  rcases own with ⟨-, -, same⟩ | ⟨-, _, moved⟩
  · exact .inl same
  · exact .inr ⟨congrArg M4SyntaxTable.syntaxAge moved, congrArg M4SyntaxTable.quoteAge moved⟩

end SyntaxOp

/-! ## The stored quote age is never stale -/

/-- The stored quote age is the one `set_quote_age` computes from the state as it is now: for the
stored syntax age, or for age zero in a state the full reset left. -/
def QuoteAgeCoherent (s : M4SyntaxTable) : Prop :=
  s.quoteAge = quoteAgeFor s s.syntaxAge ∨
    (s.quoteAge = quoteAgeFor s 0 ∧ ∃ t, s = restoreDefaultSyntax t)

theorem quoteAgeCoherent_restoreDefaultSyntax (t : M4SyntaxTable) :
    QuoteAgeCoherent (restoreDefaultSyntax t) :=
  .inr ⟨quoteAge_restoreDefaultSyntax t, t, rfl⟩

/-- Every call keeps the stored quote age coherent: it changes nothing, or it sets the quote age
for the syntax age it leaves, or it is the full reset. -/
theorem QuoteAgeCoherent.apply {s : M4SyntaxTable} (coherent : QuoteAgeCoherent s)
    (op : SyntaxOp) : QuoteAgeCoherent (op.apply s) := by
  rcases op.apply_ages s with same | ⟨age, packed⟩
  · rwa [same]
  rcases op.packedAge_eq s.syntaxAge with moved | full
  · exact .inl (by rw [packed, moved, age])
  · rw [full]
    exact quoteAgeCoherent_restoreDefaultSyntax s

/-- In every reachable state the stored quote age is the one `set_quote_age` computes from the
state as it is now: for the stored syntax age, or for zero in a state the full reset left. -/
theorem reachable_quoteAge_coherent {s : M4SyntaxTable} (reachable : Reachable s) :
    s.quoteAge = quoteAgeFor s s.syntaxAge ∨
      (s.quoteAge = quoteAgeFor s 0 ∧ ∃ t, s = restoreDefaultSyntax t) :=
  Reachable.invariant (P := QuoteAgeCoherent) (quoteAgeCoherent_restoreDefaultSyntax _)
    (fun op _ coherent => coherent.apply op) reachable

/-- `changesyntax(O+, "!")` and the full reset: the syntax age is one, and the quote age packs
zero. -/
theorem reachable_quoteAge_coherent_reset :
    let s := (m4SetSyntax (m4SetSyntax m4SyntaxCreate 79 .add [33]).1 0 .reset []).1
    Reachable s ∧ (s.quoteAge = quoteAgeFor s s.syntaxAge ∨
      (s.quoteAge = quoteAgeFor s 0 ∧ ∃ t, s = restoreDefaultSyntax t)) :=
  have reachable := (Reachable.create.step (.setSyntax 79 .add [33])).step (.setSyntax 0 .reset [])
  ⟨reachable, reachable_quoteAge_coherent reachable⟩

/-! ## Reading a non-zero quote age -/

theorem quoteAgeSafe_of_ne_zero {s : M4SyntaxTable} {l : Nat} (nonzero : quoteAgeFor s l ≠ 0) :
    quoteAgeSafe s l = true := by
  by_contra notSafe
  simp [quoteAgeFor_eq_pack, notSafe] at nonzero

/-- In every reachable state a non-zero quote age packs the syntax age or zero above the two
stored one-byte quotes, and the safety test of `set_quote_age` holds of the state as it is. -/
theorem reachable_quoteAge_decode {s : M4SyntaxTable} (reachable : Reachable s)
    (nonzero : s.quoteAge ≠ 0) :
    ∃ (l : Nat) (a b : Byte), (l = s.syntaxAge ∨ l = 0) ∧ quoteAgeSafe s l = true ∧ a ≠ 0 ∧
      b ≠ 0 ∧ s.quote = ⟨[a], 1, [b], 1⟩ ∧ s.quoteAge = l * 65536 + a.val * 256 + b.val := by
  have coherent : QuoteAgeCoherent s :=
    Reachable.invariant (P := QuoteAgeCoherent) (quoteAgeCoherent_restoreDefaultSyntax _)
      (fun op _ coherent => coherent.apply op) reachable
  obtain ⟨l, age, stored⟩ : ∃ l, (l = s.syntaxAge ∨ l = 0) ∧ s.quoteAge = quoteAgeFor s l := by
    rcases coherent with stored | ⟨stored, -⟩
    exacts [⟨_, .inl rfl, stored⟩, ⟨_, .inr rfl, stored⟩]
  rw [stored] at nonzero ⊢
  obtain ⟨a, b, nonzeroA, nonzeroB, quote, -, packed⟩ :=
    quoteAge_ne_zero reachable.syntaxInv nonzero
  exact ⟨l, a, b, age, quoteAgeSafe_of_ne_zero nonzero, nonzeroA, nonzeroB, quote, packed⟩

/-- The created table: syntax age zero over `` ` `` and `'`. -/
theorem reachable_quoteAge_decode_create :
    m4SyntaxCreate.quoteAge ≠ 0 ∧
      ∃ (l : Nat) (a b : Byte), (l = m4SyntaxCreate.syntaxAge ∨ l = 0) ∧
        quoteAgeSafe m4SyntaxCreate l = true ∧ a ≠ 0 ∧ b ≠ 0 ∧
        m4SyntaxCreate.quote = ⟨[a], 1, [b], 1⟩ ∧
        m4SyntaxCreate.quoteAge = l * 65536 + a.val * 256 + b.val :=
  have nonzero : m4SyntaxCreate.quoteAge ≠ 0 := by decide
  ⟨nonzero, reachable_quoteAge_decode .create nonzero⟩

/-- Two reachable states with one non-zero quote age have the same quotes: the quote age is a
sound key for them. -/
theorem quoteAge_determines_quotes {s t : M4SyntaxTable} (reachableS : Reachable s)
    (reachableT : Reachable t) (same : s.quoteAge = t.quoteAge) (nonzero : s.quoteAge ≠ 0) :
    s.quote = t.quote := by
  obtain ⟨l, freshS⟩ := reachableS.quoteAge_fresh
  obtain ⟨l', freshT⟩ := reachableT.quoteAge_fresh
  obtain ⟨a, b, -, -, quoteS, -, ageS⟩ :=
    quoteAge_ne_zero reachableS.syntaxInv (by rwa [← freshS])
  obtain ⟨a', b', -, -, quoteT, -, ageT⟩ :=
    quoteAge_ne_zero reachableT.syntaxInv (by rwa [← freshT, ← same])
  rw [← freshS] at ageS
  rw [← freshT] at ageT
  have decodeS := pack_decode l a.val b.val a.isLt b.isLt
  have decodeT := pack_decode l' a'.val b'.val a'.isLt b'.isLt
  have high : a'.val = a.val := by rw [← decodeT.2.1, ← ageT, ← same, ageS, decodeS.2.1]
  have low : b'.val = b.val := by rw [← decodeT.2.2, ← ageT, ← same, ageS, decodeS.2.2]
  rw [quoteS, quoteT, Fin.ext high, Fin.ext low]

/-- The created table and `changecom(;)` on it share the quote age and the quotes. -/
theorem quoteAge_determines_quotes_changecom :
    Reachable (m4SetComment m4SyntaxCreate (some [59]) none) ∧
      m4SyntaxCreate.quoteAge = (m4SetComment m4SyntaxCreate (some [59]) none).quoteAge ∧
      m4SyntaxCreate.quoteAge ≠ 0 ∧
      m4SyntaxCreate.quote = (m4SetComment m4SyntaxCreate (some [59]) none).quote :=
  have reachable : Reachable (m4SetComment m4SyntaxCreate (some [59]) none) :=
    Reachable.create.step (.setComment (some [59]) none)
  have same :
      m4SyntaxCreate.quoteAge = (m4SetComment m4SyntaxCreate (some [59]) none).quoteAge := by
    rw [m4SetComment, setDelimiters_quoteAge _ (by decide)]
    decide
  have nonzero : m4SyntaxCreate.quoteAge ≠ 0 := by decide
  ⟨reachable, same, nonzero, quoteAge_determines_quotes .create reachable same nonzero⟩

/-! ## Reads of the quote cache -/

theorem cstr_append_nul {buffer : List Byte} (noNul : (0 : Byte) ∉ buffer) :
    cstr (buffer ++ [0]) = buffer := by
  rw [cstr, List.takeWhile_append_of_pos fun b member => by
    simpa using fun same : b = 0 => noNul (same ▸ member)]
  simp

/-- The copy `m4__quote_cache` makes of a stored pair holds the same C strings and lengths. -/
theorem PairWF.copy {p : M4StringPair} (wf : PairWF p) :
    cstr (p.str1.take p.len1 ++ [0]) = cstr p.str1 ∧
      cstr (p.str2.take p.len2 ++ [0]) = cstr p.str2 := by
  rw [wf.len1, wf.len2, List.take_length, List.take_length, cstr_append_nul wf.nul1,
    cstr_append_nul wf.nul2, cstr_of_zero_not_mem wf.nul1, cstr_of_zero_not_mem wf.nul2]
  exact ⟨rfl, rfl⟩

/-- In every reachable state a read of the quote cache, with an obstack, the current quote age and
the stored quotes, returns the stored quotes as C strings with their lengths, whenever the age is
non-zero or no copy is kept. -/
theorem quoteCache_read_agrees {s : M4SyntaxTable} (reachable : Reachable s)
    (fresh : s.quoteAge ≠ 0 ∨ s.cachedQuote = none) :
    ∃ p, (m4QuoteCache s true s.quoteAge (some (m4GetSyntaxQuotes s))).2 = some p ∧
      cstr p.str1 = cstr s.quote.str1 ∧ p.len1 = s.quote.len1 ∧
      cstr p.str2 = cstr s.quote.str2 ∧ p.len2 = s.quote.len2 := by
  by_cases nonzero : s.quoteAge = 0
  · have read : (m4QuoteCache s true s.quoteAge (some (m4GetSyntaxQuotes s))).2 =
        some ⟨s.quote.str1.take s.quote.len1 ++ [0], s.quote.len1,
          s.quote.str2.take s.quote.len2 ++ [0], s.quote.len2⟩ := by
      simp only [m4QuoteCache, nonzero, bne_self_eq_false, Bool.false_eq_true, if_false,
        Bool.not_true, fresh.resolve_left (not_not.2 nonzero)]
      rfl
    have copy := (reachable.syntaxInv.pairs .quote).copy
    exact ⟨_, read, copy.1, rfl, copy.2, rfl⟩
  · exact ⟨_, m4QuoteCache_of_quoteAge_ne_zero reachable nonzero true, rfl, rfl, rfl, rfl⟩

/-- The read on the created table rebuilds the quotes from the age. -/
theorem quoteCache_read_agrees_create :
    ∃ p, (m4QuoteCache m4SyntaxCreate true m4SyntaxCreate.quoteAge
        (some (m4GetSyntaxQuotes m4SyntaxCreate))).2 = some p ∧
      cstr p.str1 = cstr m4SyntaxCreate.quote.str1 ∧ p.len1 = m4SyntaxCreate.quote.len1 ∧
      cstr p.str2 = cstr m4SyntaxCreate.quote.str2 ∧ p.len2 = m4SyntaxCreate.quote.len2 :=
  quoteCache_read_agrees .create (.inl (by decide))

/-! ## The syntax age over a run -/

/-- The calls that move the syntax age: `m4_set_syntax` with a known key other than NUL. -/
def SyntaxOp.movesAge : SyntaxOp → Bool
  | .setSyntax key _ _ => key != 0 && (m4SyntaxCode key).isSome
  | _ => false

/-- The verbs leave the syntax age to `set_quote_age`. -/
theorem SyntaxAction.syntaxAge_run (action : SyntaxAction) (s : M4SyntaxTable) (chars : List Byte)
    (code : BitVec 16) : (action.run s chars code).syntaxAge = s.syntaxAge := by
  have kept :=
    congrArg M4SyntaxTable.syntaxAge (run_withBookkeeping s s.bookkeeping chars code action)
  rwa [withBookkeeping_bookkeeping] at kept

theorem SyntaxOp.syntaxAge_apply_eq (op : SyntaxOp) (s : M4SyntaxTable) :
    (op.apply s).syntaxAge =
      if op.movesAge then nextSyntaxAge s.syntaxAge false true else s.syntaxAge := by
  cases op with
  | setSyntax key action chars =>
      simp only [apply, movesAge, m4SetSyntax]
      by_cases nul : key = 0
      · simp only [nul, if_true, bne_self_eq_false, Bool.false_and, Bool.false_eq_true]
        rfl
      · rw [if_neg nul]
        split <;> rename_i known
        · simp [nul, known]
        · rw [if_pos (by simp [nul, known])]
          exact congrArg (nextSyntaxAge · false true) (action.syntaxAge_run s chars _)
  | setQuotes lq rq =>
      rcases SyntaxOp.apply_ages (.setQuotes lq rq) s with same | ⟨age, -⟩
      · rw [same]; rfl
      · exact age
  | setComment bc ec =>
      rcases SyntaxOp.apply_ages (.setComment bc ec) s with same | ⟨age, -⟩
      · rw [same]; rfl
      · exact age

/-- From any state whose syntax age fits its `unsigned short`, a run moves the age up by one
for each call of `m4_set_syntax` with a known key other than NUL, saturating at `0xffff`. -/
theorem runOps_syntaxAge {s : M4SyntaxTable} (bounded : s.syntaxAge ≤ 0xffff)
    (ops : List SyntaxOp) :
    (runOps ops s).syntaxAge = min (s.syntaxAge + ops.countP SyntaxOp.movesAge) 0xffff := by
  induction ops generalizing s with
  | nil => simp [runOps, bounded]
  | cons op ops ih =>
      have step := op.syntaxAge_apply_eq s
      have stepBounded : (op.apply s).syntaxAge ≤ 0xffff := by
        rw [step]
        split
        exacts [nextSyntaxAge_le bounded false true, bounded]
      show (runOps ops (op.apply s)).syntaxAge = _
      rw [ih stepBounded, step, List.countP_cons]
      by_cases moves : op.movesAge = true
      · rw [if_pos moves, if_pos moves, nextSyntaxAge_change bounded]
        omega
      · rw [if_neg moves, if_neg moves]
        omega

/-- `changesyntax(O+, "!")`, `changequote([, ])`, an unknown key and the full reset on a created
table: one call moves the age. -/
theorem runOps_syntaxAge_mixed :
    m4SyntaxCreate.syntaxAge ≤ 0xffff ∧
      (runOps [.setSyntax 79 .add [33], .setQuotes (some [91]) (some [93]),
          .setSyntax 63 .add [33], .setSyntax 0 .reset []] m4SyntaxCreate).syntaxAge =
        min (m4SyntaxCreate.syntaxAge + [SyntaxOp.setSyntax 79 .add [33],
          .setQuotes (some [91]) (some [93]), .setSyntax 63 .add [33],
          .setSyntax 0 .reset []].countP SyntaxOp.movesAge) 0xffff :=
  have bounded : m4SyntaxCreate.syntaxAge ≤ 0xffff := by decide
  ⟨bounded, runOps_syntaxAge bounded _⟩

end M4Syntax
