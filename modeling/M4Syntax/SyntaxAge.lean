import M4Syntax.Reset

/-!
# The syntax age over long runs, and the packing in `int`

A call of `m4_set_syntax` with a known key moves the syntax age up by one and saturates it at
`0xffff` (`nextSyntaxAge`); no other call moves it up. So in every reachable state the age fits
the `unsigned short` that stores it (`Reachable.syntaxAge_le`).

A call with a known key and an empty string, such as `changesyntax(O+, "")`, changes only the
ages and drops the quote cache (`m4SetSyntax_add_nil`). From any state, `n` of them leave the
state as it was but for the ages: the syntax age moves up by `n`, saturating at `0xffff`, and
the quote age is the one `set_quote_age` computes for it (`runOps_addNothing`).

`set_quote_age` packs `local_syntax_age << 16` with the two quote bytes. C promotes the
`unsigned short` to a 32-bit `int` before the shift, and a shift whose value does not fit in an
`int` is undefined (`packQuoteAgeInt`). Below the age `0x8000` the packing is defined, is the
model's, and decodes back to the age and the two bytes (`packQuoteAgeInt_of_safe`,
`quoteAgeFor_decode`). From `0x8000` on it is undefined, and a reachable state gets there: after
`0x7fff` calls `changesyntax(O+, "")` on a created table, one more takes the non-zero branch of
`set_quote_age` with the local age `0x8000` (`setQuoteAge_shift_overflows`).
-/

set_option autoImplicit false

namespace M4Syntax

open SyntaxCategory M4SyntaxTable

/-! ## The packing as C evaluates it -/

/-- The packing of `set_quote_age`,
`(local_syntax_age << 16) | ((*quote.str1 & 0xff) << 8) | (*quote.str2 & 0xff)`, as C evaluates
it. `local_syntax_age` is an `unsigned short`, promoted to a 32-bit `int` before the shift, and
the shift is undefined when its value, the age times `0x10000`, exceeds `INT_MAX = 0x7fffffff`
(`none`). The two byte terms are masked to eight bits and cannot overflow. -/
def packQuoteAgeInt (localAge : Nat) (lq rq : Byte) : Option Nat :=
  if localAge * 0x10000 ≤ 0x7fffffff then
    some ((localAge <<< 16) ||| ((lq.val &&& 0xff) <<< 8) ||| (rq.val &&& 0xff))
  else none

/-- The shift is undefined exactly from the age `0x8000` on. -/
theorem packQuoteAgeInt_eq_none_iff (localAge : Nat) (lq rq : Byte) :
    packQuoteAgeInt localAge lq rq = none ↔ 0x8000 ≤ localAge := by
  unfold packQuoteAgeInt
  by_cases fits : localAge * 0x10000 ≤ 0x7fffffff
  · simp only [fits, if_true, reduceCtorEq, false_iff, Nat.not_le]
    omega
  · simp only [fits, if_false, true_iff]
    omega

/-- Where C defines the packing of a safe state, it is the quote age of the model. -/
theorem packQuoteAgeInt_of_safe {s : M4SyntaxTable} {l : Nat} (safe : quoteAgeSafe s l = true)
    (fits : l < 0x8000) :
    packQuoteAgeInt l (firstByte s.quote.str1) (firstByte s.quote.str2) =
      some (quoteAgeFor s l) := by
  rw [packQuoteAgeInt, if_pos (by omega), quoteAgeFor, if_pos safe]

/-- The quote age of a safe state decodes back to the syntax age and the two quote bytes. -/
theorem quoteAgeFor_decode {s : M4SyntaxTable} {l : Nat} (safe : quoteAgeSafe s l = true) :
    quoteAgeFor s l >>> 16 = l ∧
      (quoteAgeFor s l >>> 8) &&& 0xff = (firstByte s.quote.str1).val ∧
      quoteAgeFor s l &&& 0xff = (firstByte s.quote.str2).val := by
  rw [quoteAgeFor_eq_pack, if_pos safe]
  exact pack_decode _ _ _ (firstByte s.quote.str1).isLt (firstByte s.quote.str2).isLt

/-! ## The syntax age fits its `unsigned short` -/

theorem nextSyntaxAge_le {a : Nat} (le : a ≤ 0xffff) (reset change : Bool) :
    nextSyntaxAge a reset change ≤ 0xffff := by
  unfold nextSyntaxAge
  split
  · rename_i moves
    simp only [Bool.and_eq_true, decide_eq_true_eq] at moves
    omega
  · exact le

/-- A change that is not a reset moves the age up by one, saturating at `0xffff`. -/
theorem nextSyntaxAge_change {a : Nat} (le : a ≤ 0xffff) :
    nextSyntaxAge a false true = min (a + 1) 0xffff := by
  unfold nextSyntaxAge
  split
  · rename_i moves
    simp only [Bool.not_false, Bool.true_and, decide_eq_true_eq] at moves
    omega
  · rename_i stays
    simp only [Bool.not_false, Bool.true_and, decide_eq_true_eq] at stays
    omega

theorem SyntaxOp.nextAge_le (op : SyntaxOp) {a : Nat} (le : a ≤ 0xffff) :
    op.nextAge a ≤ 0xffff := by
  cases op with
  | setSyntax key _ _ =>
      simp only [nextAge]
      split
      · exact le
      · exact nextSyntaxAge_le le false true
  | setQuotes => exact le
  | setComment => exact le

/-- A call keeps the syntax age or moves it by its own rule. -/
theorem SyntaxOp.syntaxAge_apply (op : SyntaxOp) (s : M4SyntaxTable) :
    (op.apply s).syntaxAge = s.syntaxAge ∨ (op.apply s).syntaxAge = op.nextAge s.syntaxAge := by
  have own := SyntaxOp.apply_withBookkeeping op s s.bookkeeping
  rw [withBookkeeping_bookkeeping] at own
  rcases own with ⟨-, -, same⟩ | ⟨-, cached, moved⟩
  · exact .inl (congrArg M4SyntaxTable.syntaxAge same)
  · exact .inr (congrArg M4SyntaxTable.syntaxAge moved)

theorem Reachable.syntaxAge_le {s : M4SyntaxTable} (reachable : Reachable s) :
    s.syntaxAge ≤ 0xffff := by
  induction reachable with
  | create => decide
  | step op _ bounded =>
      rcases op.syntaxAge_apply _ with same | moved
      · rwa [same]
      · rw [moved]
        exact op.nextAge_le bounded

/-! ## Calls that move only the ages -/

/-- `m4_set_syntax` with a known key and an empty string adds nothing to the table, and then
sets the quote age with a change and drops the quote cache. -/
theorem m4SetSyntax_add_nil {key : Byte} {c : SyntaxCategory} (known : m4SyntaxCode key = some c)
    (s : M4SyntaxTable) :
    (m4SetSyntax s key .add []).1 = m4QuoteUncache (setQuoteAge s false true) := by
  rw [m4SetSyntax_of_known s [] c known]
  rfl

theorem addNothing_withBookkeeping {key : Byte} {c : SyntaxCategory}
    (known : m4SyntaxCode key = some c) (t : M4SyntaxTable) (k : Bookkeeping) :
    (m4SetSyntax (t.withBookkeeping k) key .add []).1 =
      t.withBookkeeping ⟨nextSyntaxAge k.syntaxAge false true,
        quoteAgeFor t (nextSyntaxAge k.syntaxAge false true), none, k.cachedLquote,
        k.cachedRquote⟩ := by
  rw [m4SetSyntax_add_nil known, setQuoteAge_withBookkeeping, m4QuoteUncache_withBookkeeping]
  rfl

/-- A run of `n + 1` such calls moves the syntax age up by `n + 1`, saturating at `0xffff`,
recomputes the quote age and drops the cache; the table, the delimiters and the flags stay. -/
theorem runOps_addNothing {key : Byte} {c : SyntaxCategory} (known : m4SyntaxCode key = some c)
    (t : M4SyntaxTable) (n : Nat) :
    ∀ k : Bookkeeping, k.syntaxAge ≤ 0xffff →
      runOps (List.replicate (n + 1) (.setSyntax key .add [])) (t.withBookkeeping k) =
        t.withBookkeeping ⟨min (k.syntaxAge + (n + 1)) 0xffff,
          quoteAgeFor t (min (k.syntaxAge + (n + 1)) 0xffff), none, k.cachedLquote,
          k.cachedRquote⟩ := by
  induction n with
  | zero =>
      intro k le
      show (m4SetSyntax (t.withBookkeeping k) key .add []).1 = _
      rw [addNothing_withBookkeeping known, nextSyntaxAge_change le]
  | succ n ih =>
      intro k le
      show runOps (List.replicate (n + 1) _) (m4SetSyntax (t.withBookkeeping k) key .add []).1 = _
      rw [addNothing_withBookkeeping known, ih _ (nextSyntaxAge_le le false true)]
      have age : min (nextSyntaxAge k.syntaxAge false true + (n + 1)) 0xffff =
          min (k.syntaxAge + (n + 1 + 1)) 0xffff := by
        rw [nextSyntaxAge_change le]
        omega
      simp only [age]

theorem quoteAgeSafe_withBookkeeping (s : M4SyntaxTable) (k : Bookkeeping) (l : Nat) :
    quoteAgeSafe (s.withBookkeeping k) l = quoteAgeSafe s l := rfl

/-- The created table is safe at every syntax age short of saturation. -/
theorem quoteAgeSafe_create (l : Nat) : quoteAgeSafe m4SyntaxCreate l = decide (l < 0xffff) := by
  unfold quoteAgeSafe
  cases decide (l < 0xffff)
  · rfl
  · decide

/-! ## The shift overflows in a reachable state -/

/-- After `0x7fff` calls `changesyntax(O+, "")` on a created table, the next such call runs
`set_quote_age(s, false, true)` on the state it finds, takes the non-zero branch, and shifts
the local syntax age `0x8000` past `INT_MAX`. -/
theorem setQuoteAge_shift_overflows :
    ∃ s : M4SyntaxTable, Reachable s ∧
      (m4SetSyntax s 79 .add []).1 = m4QuoteUncache (setQuoteAge s false true) ∧
      quoteAgeSafe s (localSyntaxAge s.syntaxAge false true) = true ∧
      packQuoteAgeInt (localSyntaxAge s.syntaxAge false true) (firstByte s.quote.str1)
        (firstByte s.quote.str2) = none := by
  have known : m4SyntaxCode 79 = some other := rfl
  have run := runOps_addNothing known m4SyntaxCreate 0x7ffe m4SyntaxCreate.bookkeeping
    (by decide)
  have created : m4SyntaxCreate.bookkeeping.syntaxAge = 0 := rfl
  rw [withBookkeeping_bookkeeping, created] at run
  refine ⟨runOps (List.replicate (0x7ffe + 1) (.setSyntax 79 .add [])) m4SyntaxCreate,
    Reachable.create.runOps _, m4SetSyntax_add_nil known _, ?_, ?_⟩ <;>
    rw [run, syntaxAge_withBookkeeping]
  · rw [quoteAgeSafe_withBookkeeping, quoteAgeSafe_create]
    decide
  · exact (packQuoteAgeInt_eq_none_iff _ _ _).2 (by decide)

end M4Syntax
