import M4Syntax.Installers

/-!
# The quote age and the quote cache

`set_quote_age` packs the syntax age and the two one-byte quotes into one word when the state is
safe (`quoteAgeFor_eq_pack`). Every call that changes the table ends with `set_quote_age`, and
nothing after it touches the fields the age is computed from, so the stored quote age of every
reachable state is the age of the state itself for some syntax age (`Reachable.quoteAge_fresh`).
A non-zero age therefore names the stored quotes, one byte each (`quoteAge_ne_zero`).

`m4__quote_cache` rebuilds the pair from a non-zero age, which in a reachable state gives the
stored quotes back (`m4QuoteCache_of_quoteAge_ne_zero`). With a zero age and an obstack it returns
a copy of the quotes made on the first such call and kept in `cached_quote`. Only the path of
`m4_set_syntax` for a known key drops that copy: the installers keep it
(`cachedQuote_setDelimiters`). So in a run that reads the cache between calls (`runCached`), after
`changequote(<<, >>)`, a read and `changequote([[, ]])`, a second read returns the old pair
(`quoteCache_stale_after_changequote`).
-/

set_option autoImplicit false

namespace M4Syntax

open SyntaxCategory

/-! ## The packed quote age -/

theorem pack_eq (l a b : Nat) (smallA : a < 256) (smallB : b < 256) :
    (l <<< 16) ||| ((a &&& 0xff) <<< 8) ||| (b &&& 0xff) = l * 65536 + a * 256 + b := by
  have low : ∀ x : Nat, x < 256 → x &&& 0xff = x := fun x small => by
    rw [show (0xff : Nat) = 2 ^ 8 - 1 from rfl, Nat.and_pow_two_sub_one_eq_mod,
      Nat.mod_eq_of_lt small]
  have lowWord : a * 256 + b < 2 ^ 16 := by omega
  rw [low a smallA, low b smallB, Nat.or_assoc, Nat.shiftLeft_eq, Nat.shiftLeft_eq,
    ← Nat.mul_comm (2 ^ 8), ← Nat.mul_add_lt_is_or (by omega : b < 2 ^ 8),
    ← Nat.mul_comm (2 ^ 16), ← Nat.mul_add_lt_is_or (by omega : 2 ^ 8 * a + b < 2 ^ 16)]
  omega

/-- The packed word gives back its three parts. -/
theorem pack_decode (l a b : Nat) (smallA : a < 256) (smallB : b < 256) :
    (l * 65536 + a * 256 + b) >>> 16 = l ∧ ((l * 65536 + a * 256 + b) >>> 8) &&& 0xff = a ∧
      (l * 65536 + a * 256 + b) &&& 0xff = b := by
  have mask : ∀ x : Nat, x &&& 0xff = x % 256 := fun x => Nat.and_pow_two_sub_one_eq_mod x 8
  simp only [mask, Nat.shiftRight_eq_div_pow]
  omega

theorem quoteAgeFor_eq_pack (s : M4SyntaxTable) (l : Nat) :
    quoteAgeFor s l =
      if quoteAgeSafe s l then
        l * 65536 + (firstByte s.quote.str1).val * 256 + (firstByte s.quote.str2).val
      else 0 := by
  rw [quoteAgeFor, pack_eq _ _ _ (firstByte s.quote.str1).isLt (firstByte s.quote.str2).isLt]

/-- A stored pair of one-byte strings is two non-NUL bytes. -/
theorem PairWF.eq_single {p : M4StringPair} (wf : PairWF p) (one1 : p.len1 = 1)
    (one2 : p.len2 = 1) : ∃ a b : Byte, a ≠ 0 ∧ b ≠ 0 ∧ p = ⟨[a], 1, [b], 1⟩ := by
  obtain ⟨str1, len1, str2, len2⟩ := p
  obtain ⟨nul1, nul2, same1, same2, -⟩ := wf
  simp only at one1 one2 same1 same2 nul1 nul2
  obtain ⟨a, rfl⟩ := List.length_eq_one.1 (same1 ▸ one1)
  obtain ⟨b, rfl⟩ := List.length_eq_one.1 (same2 ▸ one2)
  refine ⟨a, b, fun zero => nul1 (by simp [zero]), fun zero => nul2 (by simp [zero]), ?_⟩
  rw [one1, one2]

/-- A non-zero quote age of a state satisfying the invariant names its quotes, one non-NUL byte
each, below a syntax age short of saturation. -/
theorem quoteAge_ne_zero {s : M4SyntaxTable} (inv : SyntaxInv s) {l : Nat}
    (nonzero : quoteAgeFor s l ≠ 0) :
    ∃ a b : Byte, a ≠ 0 ∧ b ≠ 0 ∧ s.quote = ⟨[a], 1, [b], 1⟩ ∧ l < 0xffff ∧
      quoteAgeFor s l = l * 65536 + a.val * 256 + b.val := by
  rw [quoteAgeFor_eq_pack] at nonzero ⊢
  have safe : quoteAgeSafe s l = true := by
    by_contra notSafe
    simp [notSafe] at nonzero
  rw [if_pos safe]
  simp only [quoteAgeSafe, Bool.and_eq_true, decide_eq_true_eq] at safe
  obtain ⟨⟨⟨⟨⟨⟨below, single⟩, -⟩, -⟩, -⟩, -⟩, -⟩ := safe
  obtain ⟨a, b, nonzeroA, nonzeroB, quote⟩ :=
    (inv.pairs .quote).eq_single (inv.single .quote single).1 (inv.single .quote single).2
  refine ⟨a, b, nonzeroA, nonzeroB, quote, below, ?_⟩
  rw [show s.quote = s.pair .quote from rfl, quote]
  rfl

/-! ## Every change ends by setting the quote age -/

theorem quoteAge_setQuoteAge (s : M4SyntaxTable) (reset change : Bool) :
    ∃ l, (setQuoteAge s reset change).quoteAge = quoteAgeFor (setQuoteAge s reset change) l :=
  ⟨_, rfl⟩

/-- A call leaves the state as it was, or ends by setting the quote age of the state it
leaves. -/
theorem SyntaxOp.apply_quoteAge (op : SyntaxOp) (s : M4SyntaxTable) :
    op.apply s = s ∨ ∃ l, (op.apply s).quoteAge = quoteAgeFor (op.apply s) l := by
  cases op with
  | setSyntax key action chars =>
      simp only [SyntaxOp.apply, m4SetSyntax]
      split
      · exact .inr (quoteAge_setQuoteAge _ true false)
      · split
        · exact .inl rfl
        · exact .inr (quoteAge_setQuoteAge _ false true)
  | setQuotes lq rq =>
      simp only [SyntaxOp.apply, m4SetQuotes, setDelimiters]
      split
      · exact .inl rfl
      · exact .inr (quoteAge_setQuoteAge _ false false)
  | setComment bc ec =>
      simp only [SyntaxOp.apply, m4SetComment, setDelimiters]
      split
      · exact .inl rfl
      · exact .inr (quoteAge_setQuoteAge _ false false)

/-- The stored quote age of a reachable state is its own age for some syntax age. -/
theorem Reachable.quoteAge_fresh {s : M4SyntaxTable} (reachable : Reachable s) :
    ∃ l, s.quoteAge = quoteAgeFor s l := by
  induction reachable with
  | create => exact quoteAge_setQuoteAge _ true false
  | step op _ fresh =>
      rcases SyntaxOp.apply_quoteAge op _ with same | stored
      · rwa [same]
      · exact stored

/-! ## The cache -/

/-- `m4__quote_cache`: the state after the call and the pair it returns (`none` is NULL). `obs`
says whether an obstack was passed. With an obstack the pair passed must be the stored quote
pair and the obstack must be empty when the copy is made; these are `assert`s of the code and
are not modelled. A copy made by `obstack_copy0` ends in a NUL. -/
def m4QuoteCache (s : M4SyntaxTable) (obs : Bool) (age : Nat) (quotes : Option M4StringPair) :
    M4SyntaxTable × Option M4StringPair :=
  match quotes with
  | none => (s, none)
  | some quotes =>
      if age != 0 then
        let s := { s with cachedLquote := Fin.ofNat ((age >>> 8) &&& 0xff),
                          cachedRquote := Fin.ofNat (age &&& 0xff) }
        (s, some s.cachedSimple)
      else if !obs then (s, some quotes)
      else
        match s.cachedQuote with
        | some cached => (s, some cached)
        | none =>
            let cached : M4StringPair :=
              ⟨quotes.str1.take quotes.len1 ++ [0], quotes.len1,
                quotes.str2.take quotes.len2 ++ [0], quotes.len2⟩
            ({ s with cachedQuote := some cached }, some cached)

/-- A non-zero quote age that `set_quote_age` would store now rebuilds the stored quotes. -/
theorem m4QuoteCache_of_fresh {s : M4SyntaxTable} (inv : SyntaxInv s) {l : Nat}
    (fresh : s.quoteAge = quoteAgeFor s l) (nonzero : s.quoteAge ≠ 0) (obs : Bool) :
    (m4QuoteCache s obs s.quoteAge (some (m4GetSyntaxQuotes s))).2 =
      some (m4GetSyntaxQuotes s) := by
  obtain ⟨a, b, -, -, quote, -, packed⟩ := quoteAge_ne_zero inv (fresh ▸ nonzero)
  rw [← fresh] at packed
  have byte : ∀ (c : Byte) (v : Nat), v % 256 = c.val → (Fin.ofNat v : Byte) = c :=
    fun c v same => Fin.ext (by simpa [Fin.ofNat] using same)
  have high : ((s.quoteAge >>> 8) &&& 0xff) % 256 = a.val := by
    rw [show (0xff : Nat) = 2 ^ 8 - 1 from rfl, Nat.and_pow_two_sub_one_eq_mod,
      Nat.shiftRight_eq_div_pow, packed]
    omega
  have low : (s.quoteAge &&& 0xff) % 256 = b.val := by
    rw [show (0xff : Nat) = 2 ^ 8 - 1 from rfl, Nat.and_pow_two_sub_one_eq_mod, packed]
    omega
  simp only [m4QuoteCache, bne_iff_ne, ne_eq, nonzero, not_false_eq_true, if_true,
    M4SyntaxTable.cachedSimple, m4GetSyntaxQuotes, quote, byte a _ high, byte b _ low]

/-- In a reachable state a non-zero quote age rebuilds the stored quotes. -/
theorem m4QuoteCache_of_quoteAge_ne_zero {s : M4SyntaxTable} (reachable : Reachable s)
    (nonzero : s.quoteAge ≠ 0) (obs : Bool) :
    (m4QuoteCache s obs s.quoteAge (some (m4GetSyntaxQuotes s))).2 =
      some (m4GetSyntaxQuotes s) :=
  let ⟨_, fresh⟩ := reachable.quoteAge_fresh
  m4QuoteCache_of_fresh reachable.syntaxInv fresh nonzero obs

@[simp] theorem cachedQuote_setQuoteAge (s : M4SyntaxTable) (reset change : Bool) :
    (setQuoteAge s reset change).cachedQuote = s.cachedQuote := rfl

@[simp] theorem cachedQuote_setTable (s : M4SyntaxTable) (t : Byte → BitVec 16) :
    (s.setTable t).cachedQuote = s.cachedQuote := rfl

@[simp] theorem cachedQuote_setPair (s : M4SyntaxTable) (d : Delim) (p : M4StringPair) :
    (s.setPair d p).cachedQuote = s.cachedQuote := by
  cases d <;> rfl

@[simp] theorem cachedQuote_setSingle (s : M4SyntaxTable) (d : Delim) (b : Bool) :
    (s.setSingle d b).cachedQuote = s.cachedQuote := by
  cases d <;> rfl

@[simp] theorem cachedQuote_recheckMacroEscaped (s : M4SyntaxTable) :
    (recheckMacroEscaped s).cachedQuote = s.cachedQuote := by
  unfold recheckMacroEscaped
  split <;> rfl

/-- The installers keep the memoised copy. -/
theorem cachedQuote_setDelimiters (d : Delim) (blocking : BitVec 16) (s : M4SyntaxTable)
    (left right : List Byte) :
    (setDelimiters d blocking s left right).cachedQuote = s.cachedQuote := by
  by_cases same : sameDelimiters d s left right
  · rw [setDelimiters_of_same d blocking s left right same]
  · rw [setDelimiters, if_neg same]
    dsimp only
    cases installsSingle blocking s left right
    · rw [if_neg Bool.false_ne_true, cachedQuote_setQuoteAge, cachedQuote_recheckMacroEscaped,
        cachedQuote_setTable, cachedQuote_setSingle, cachedQuote_setPair]
    · rw [if_pos rfl, cachedQuote_setQuoteAge, cachedQuote_recheckMacroEscaped,
        cachedQuote_setTable, cachedQuote_setTable, cachedQuote_setSingle, cachedQuote_setPair]

/-! ## Runs that read the cache -/

/-- A step of a run that also reads the quote cache: a call, or a cache read as the macro
expander makes it, with an obstack, the current quote age and the stored quotes. -/
inductive CachedOp
  | op (op : SyntaxOp)
  | quoteCache

/-- A run of calls and cache reads: the state it ends in and, for each cache read, the pair the
read returned beside the quotes stored at that moment. -/
def runCached : List CachedOp → M4SyntaxTable →
    M4SyntaxTable × List (Option M4StringPair × M4StringPair)
  | [], s => (s, [])
  | .op op :: rest, s => runCached rest (op.apply s)
  | .quoteCache :: rest, s =>
      let read := m4QuoteCache s true s.quoteAge (some (m4GetSyntaxQuotes s))
      ((runCached rest read.1).1, (read.2, m4GetSyntaxQuotes s) :: (runCached rest read.1).2)

/-- `changequote(<<, >>)`, a cache read, `changequote([[, ]])` and a second cache read: both reads
return the copy of the first quotes, the second while the stored quotes are the new ones. -/
theorem quoteCache_stale_after_changequote :
    (runCached [.op (.setQuotes (some [60, 60]) (some [62, 62])), .quoteCache,
        .op (.setQuotes (some [91, 91]) (some [93, 93])), .quoteCache] m4SyntaxCreate).2 =
      [(some ⟨[60, 60, 0], 2, [62, 62, 0], 2⟩, ⟨[60, 60], 2, [62, 62], 2⟩),
        (some ⟨[60, 60, 0], 2, [62, 62, 0], 2⟩, ⟨[91, 91], 2, [93, 93], 2⟩)] := by
  decide

end M4Syntax
