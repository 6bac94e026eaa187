import M4Syntax.QuoteAge

/-!
# Runs that read the quote cache

The macro expander reads the quotes through `m4__quote_cache`, with an obstack, the current
quote age and the stored quotes. A non-zero age rebuilds the quotes from the age. A zero age
returns the copy made at the first such read, and only `m4_set_syntax` of a known key drops that
copy (`m4__quote_uncache`).

The copy is coherent when it holds the stored quotes (`CacheCoherent`). Every call keeps it
coherent except `m4_set_quotes` and the full reset, which change the stored quotes and keep the
copy (`quoteCache_stale_after_changequote` is such a run). A read keeps it coherent, and a read
from a coherent state returns the stored quotes (`CacheCoherent.read`). So from a reachable
state with a coherent copy, along any run of calls and reads without those two calls, every read
returns the quotes stored at that moment (`runCached_reads_agree`).

A read changes only the cache fields. The states of such a run therefore keep the invariant of
reachable states and a quote age that `set_quote_age` would store now (`ReadInv`), which is all a
read relies on.
-/

set_option autoImplicit false

namespace M4Syntax

/-- Two pairs hold the same C strings with the same lengths. -/
def SamePair (p q : M4StringPair) : Prop :=
  cstr p.str1 = cstr q.str1 ∧ p.len1 = q.len1 ∧ cstr p.str2 = cstr q.str2 ∧ p.len2 = q.len2

/-- The memoised quote copy, when there is one, holds the stored quotes. -/
def CacheCoherent (s : M4SyntaxTable) : Prop :=
  ∀ p, s.cachedQuote = some p → SamePair p s.quote

/-- The steps that keep the memoised copy coherent: every call but `m4_set_quotes` and the full
reset, and every read. -/
def CachedOp.keepsCache : CachedOp → Bool
  | .op (.setSyntax key _ _) => key != 0
  | .op (.setQuotes _ _) => false
  | .op (.setComment _ _) => true
  | .quoteCache => true

/-- What the states of a run of calls and reads keep: the invariant of reachable states, and a
stored quote age that `set_quote_age` would compute now. -/
structure ReadInv (s : M4SyntaxTable) : Prop where
  inv : SyntaxInv s
  fresh : ∃ l, s.quoteAge = quoteAgeFor s l

theorem Reachable.readInv {s : M4SyntaxTable} (reachable : Reachable s) : ReadInv s :=
  ⟨reachable.syntaxInv, reachable.quoteAge_fresh⟩

/-- An installer keeps the pair of the other family. -/
theorem setDelimiters_pair_of_ne {d e : Delim} (other : e ≠ d) (blocking : BitVec 16)
    (s : M4SyntaxTable) (left right : List Byte) :
    (setDelimiters d blocking s left right).pair e = s.pair e := by
  by_cases same : sameDelimiters d s left right
  · rw [setDelimiters_of_same _ _ _ _ _ same]
  · rw [setDelimiters_pair same, if_neg other]

/-- The comment installer keeps the stored quotes. -/
theorem m4SetComment_quote (s : M4SyntaxTable) (bc ec : Option (List Byte)) :
    (m4SetComment s bc ec).quote = s.quote :=
  setDelimiters_pair_of_ne (e := .quote) (by decide) _ _ _ _

namespace ReadInv

variable {s : M4SyntaxTable}

theorem apply (ready : ReadInv s) (op : SyntaxOp) : ReadInv (op.apply s) := by
  refine ⟨ready.inv.apply op, ?_⟩
  rcases op.apply_quoteAge s with same | stored
  · rw [same]
    exact ready.fresh
  · exact stored

/-- The invariant reads no cache field. -/
theorem cache (ready : ReadInv s) (c : Option M4StringPair) (l r : Byte) :
    ReadInv { s with cachedQuote := c, cachedLquote := l, cachedRquote := r } :=
  ⟨⟨ready.inv.orig, ready.inv.entries, ready.inv.nul,
    fun | .quote => ready.inv.pairs .quote | .comm => ready.inv.pairs .comm,
    fun | .quote => ready.inv.single .quote | .comm => ready.inv.single .comm⟩, ready.fresh⟩

end ReadInv

namespace CacheCoherent

variable {s : M4SyntaxTable}

theorem of_none (none : s.cachedQuote = none) : CacheCoherent s := fun _ cached =>
  absurd (none.symm.trans cached) (by simp)

theorem apply (coherent : CacheCoherent s) :
    ∀ op : SyntaxOp, (CachedOp.op op).keepsCache = true → CacheCoherent (op.apply s)
  | .setSyntax key action chars, keeps => by
      have nonzero : key ≠ 0 := by simpa [CachedOp.keepsCache] using keeps
      show CacheCoherent (m4SetSyntax s key action chars).1
      rw [m4SetSyntax, if_neg nonzero]
      split
      · exact coherent
      · exact of_none rfl
  | .setQuotes _ _, keeps => absurd keeps Bool.false_ne_true
  | .setComment bc ec, _ => fun p cached => by
      rw [SyntaxOp.apply, m4SetComment_quote]
      rw [SyntaxOp.apply, m4SetComment, cachedQuote_setDelimiters] at cached
      exact coherent p cached

/-- A read keeps the invariant and a coherent copy, and returns the stored quotes: rebuilt from
a non-zero age, or the coherent copy, or a fresh copy of the stored quotes. -/
theorem read (ready : ReadInv s) (coherent : CacheCoherent s) :
    ReadInv (m4QuoteCache s true s.quoteAge (some (m4GetSyntaxQuotes s))).1 ∧
      CacheCoherent (m4QuoteCache s true s.quoteAge (some (m4GetSyntaxQuotes s))).1 ∧
      ∃ p, (m4QuoteCache s true s.quoteAge (some (m4GetSyntaxQuotes s))).2 = some p ∧
        SamePair p s.quote := by
  obtain ⟨l, fresh⟩ := ready.fresh
  by_cases zero : s.quoteAge = 0
  · have age : (s.quoteAge != 0) = false := by simp [zero]
    cases cached : s.cachedQuote with
    | some p =>
        simp only [m4QuoteCache, age, cached, Bool.not_true, Bool.false_eq_true, ↓reduceIte]
        exact ⟨ready, coherent, p, rfl, coherent p cached⟩
    | none =>
        have copy := (ready.inv.pairs .quote).copy
        simp only [m4QuoteCache, age, cached, Bool.not_true, Bool.false_eq_true, ↓reduceIte,
          m4GetSyntaxQuotes]
        refine ⟨ready.cache _ s.cachedLquote s.cachedRquote, fun q stored => ?_,
          _, rfl, copy.1, rfl, copy.2, rfl⟩
        cases stored
        exact ⟨copy.1, rfl, copy.2, rfl⟩
  · have rebuilt := m4QuoteCache_of_fresh ready.inv fresh zero true
    simp only [m4QuoteCache, bne_iff_ne, ne_eq, zero, not_false_eq_true, if_true] at rebuilt ⊢
    exact ⟨ready.cache s.cachedQuote _ _, coherent, _, rebuilt, rfl, rfl, rfl, rfl⟩

end CacheCoherent

/-- Along a run of calls and reads from a state that keeps the invariant and a coherent copy,
without `m4_set_quotes` and without the full reset, every read returns the stored quotes. -/
theorem runCached_agree :
    ∀ (steps : List CachedOp) (s : M4SyntaxTable), ReadInv s → CacheCoherent s →
      (∀ step ∈ steps, step.keepsCache = true) →
        ∀ read ∈ (runCached steps s).2, ∃ p, read.1 = some p ∧ SamePair p read.2
  | [], _, _, _, _ => fun _ none => nomatch none
  | .op op :: rest, s, ready, coherent, keeps =>
      runCached_agree rest (op.apply s) (ready.apply op)
        (coherent.apply op (keeps _ (List.mem_cons_self _ _)))
        fun step mem => keeps step (List.mem_cons_of_mem _ mem)
  | .quoteCache :: rest, s, ready, coherent, keeps => by
      obtain ⟨ready', coherent', p, returned, same⟩ := coherent.read ready
      intro read mem
      simp only [runCached, List.mem_cons] at mem
      rcases mem with rfl | later
      · exact ⟨p, returned, same⟩
      · exact runCached_agree rest _ ready' coherent'
          (fun step mem => keeps step (List.mem_cons_of_mem _ mem)) read later

/-- From every reachable state whose memoised quote copy holds the stored quotes, along any run of
calls and cache reads without `m4_set_quotes` and without the full reset, every read returns the
quotes stored at that moment, as C strings with their lengths. -/
theorem runCached_reads_agree {s : M4SyntaxTable} (reachable : Reachable s)
    (coherent : CacheCoherent s) (steps : List CachedOp)
    (keeps : ∀ step ∈ steps, step.keepsCache = true) :
    ∀ read ∈ (runCached steps s).2, ∃ p, read.1 = some p ∧ SamePair p read.2 :=
  runCached_agree steps s reachable.readInv coherent keeps

/-- A read, `changecom(;)`, `changesyntax(L+, "[")` and a read on the created table. -/
theorem runCached_reads_agree_changecom :
    Reachable m4SyntaxCreate ∧ CacheCoherent m4SyntaxCreate ∧
      (∀ step ∈ [CachedOp.quoteCache, .op (.setComment (some [59]) none),
        .op (.setSyntax 76 .add [91]), .quoteCache], step.keepsCache = true) ∧
      ∀ read ∈ (runCached [CachedOp.quoteCache, .op (.setComment (some [59]) none),
        .op (.setSyntax 76 .add [91]), .quoteCache] m4SyntaxCreate).2,
        ∃ p, read.1 = some p ∧ SamePair p read.2 :=
  have keeps : ∀ step ∈ [CachedOp.quoteCache, .op (.setComment (some [59]) none),
      .op (.setSyntax 76 .add [91]), .quoteCache], step.keepsCache = true := by decide
  ⟨.create, CacheCoherent.of_none rfl, keeps,
    runCached_reads_agree .create (CacheCoherent.of_none rfl) _ keeps⟩

end M4Syntax
