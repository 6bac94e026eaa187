import M4Syntax.Stale

/-!
# Composing `+` calls

`add_syntax_set` writes one entry per byte of its string, and the writes of `+` are idempotent
and touch only the bytes written; its one flag, the escape flag, is only ever set. So `+` calls
compose like writes to disjoint cells.

**Batching.** Two `+` calls with the same key leave the table, the delimiters and the flags of
one call on the concatenated C string; only the ages and the quote cache may differ, since each
call moves the syntax age (`m4SetSyntax_add_batch`).

**Commuting.** Two `+` calls with keys other than NUL on strings with no byte in common give the
same state in either order, ages included (`m4SetSyntax_add_comm`).

Both rest on one description of `add_syntax_set` as a record update (`addSyntaxSet_eq_update`).
Neither holds for `-`, whose checks can adopt a bearer that a later `-` removes.

**`=` then `+`.** A `+` after `=` with the same key leaves the table of one `=` on the
concatenated string (`m4SetSyntax_set_add_table`); only the table, since `+` runs no check.
-/

set_option autoImplicit false

namespace M4Syntax

open SyntaxCategory

section Strings

theorem cstr_cstr_append (a b : List Byte) : cstr (cstr a ++ b) = cstr a ++ cstr b := by
  rw [cstr, List.takeWhile_append_of_pos fun x member => by
    simpa using fun same : x = 0 => zero_not_mem_cstr a (same ▸ member)]
  rfl

theorem firstByte_cstr_append (a b : List Byte) :
    (firstByte (cstr a ++ b) != 0) = (firstByte a != 0 || firstByte b != 0) := by
  by_cases empty : firstByte a = 0
  · rw [cstr_eq_nil_of_firstByte empty, empty]
    simp
  · obtain ⟨x, rest, split⟩ := List.exists_cons_of_ne_nil ((cstr_ne_nil_iff a).2 empty)
    have first : firstByte a = x := by rw [← firstByte_cstr, split]; rfl
    have head : firstByte (x :: (rest ++ b)) = x := rfl
    rw [split, List.cons_append, head, ← first]
    simp [empty]

end Strings

section Add

variable (s : M4SyntaxTable) (chars : List Byte) (c : SyntaxCategory)

/-- `add_syntax_set` as a record update: the entries of the bytes of the string get the
category, and the escape flag is set when the category is ESCAPE and the string is not empty. -/
theorem addSyntaxSet_eq_update :
    addSyntaxSet s chars c.code =
      { s with table := fun x => if x ∈ cstr chars then addSyntaxAttribute (s.table x) c.code
                                 else s.table x,
               isMacroEscaped := s.isMacroEscaped || (c == escape && firstByte chars != 0) } := by
  have table : (addSyntaxSet s chars c.code).table = fun x =>
      if x ∈ cstr chars then addSyntaxAttribute (s.table x) c.code else s.table x :=
    funext (table_addSyntaxSet s chars c)
  rw [← table]
  unfold addSyntaxSet
  by_cases empty : firstByte chars = 0
  · simp [empty]
  · by_cases escaped : c = escape
    · subst escaped
      simp [empty, M4SyntaxTable.setTable]
    · simp [empty, escaped, mt code_inj.1 escaped, M4SyntaxTable.setTable]

/-- Two `+` of the same category make one `+` on the concatenated C string. -/
theorem addSyntaxSet_append (a b : List Byte) :
    addSyntaxSet (addSyntaxSet s a c.code) b c.code = addSyntaxSet s (cstr a ++ b) c.code := by
  simp only [addSyntaxSet_eq_update, cstr_cstr_append, List.mem_append, firstByte_cstr_append,
    M4SyntaxTable.mk.injEq, and_true, true_and]
  constructor
  · funext x
    by_cases inB : x ∈ cstr b <;> by_cases inA : x ∈ cstr a <;>
      simp [inA, inB, addSyntaxAttribute_idem]
  · cases s.isMacroEscaped <;> cases c == escape <;> simp [Bool.or_comm]

/-- Two `+` on strings with no byte in common commute. -/
theorem addSyntaxSet_comm {a b : List Byte} (disjoint : ∀ x ∈ cstr a, x ∉ cstr b)
    (c' : SyntaxCategory) :
    addSyntaxSet (addSyntaxSet s a c.code) b c'.code =
      addSyntaxSet (addSyntaxSet s b c'.code) a c.code := by
  simp only [addSyntaxSet_eq_update, M4SyntaxTable.mk.injEq, and_true, true_and]
  constructor
  · funext x
    by_cases inA : x ∈ cstr a
    · simp [inA, disjoint x inA]
    · simp [inA]
  · simp only [Bool.or_assoc]
    rw [Bool.or_comm (c == escape && _)]

@[simp] theorem syntaxAge_addSyntaxSet : (addSyntaxSet s chars c.code).syntaxAge = s.syntaxAge := by
  rw [addSyntaxSet_eq_update]

@[simp] theorem cachedLquote_addSyntaxSet :
    (addSyntaxSet s chars c.code).cachedLquote = s.cachedLquote := by
  rw [addSyntaxSet_eq_update]

@[simp] theorem cachedRquote_addSyntaxSet :
    (addSyntaxSet s chars c.code).cachedRquote = s.cachedRquote := by
  rw [addSyntaxSet_eq_update]

end Add

/-- Two `+` calls with known keys run both table loops, then leave the ages of two calls and no
quote cache. -/
theorem m4SetSyntax_add_add (s : M4SyntaxTable) {key key' : Byte} {c c' : SyntaxCategory}
    (known : m4SyntaxCode key = some c) (known' : m4SyntaxCode key' = some c') (a b : List Byte) :
    (m4SetSyntax (m4SetSyntax s key .add a).1 key' .add b).1 =
      (addSyntaxSet (addSyntaxSet s a c.code) b c'.code).withBookkeeping
        ⟨nextSyntaxAge (nextSyntaxAge s.syntaxAge false true) false true,
          quoteAgeFor (addSyntaxSet (addSyntaxSet s a c.code) b c'.code)
            (localSyntaxAge (nextSyntaxAge s.syntaxAge false true) false true),
          none, s.cachedLquote, s.cachedRquote⟩ := by
  rw [m4SetSyntax_add _ _ known, m4SetSyntax_add _ _ known',
    m4QuoteUncache_setQuoteAge (addSyntaxSet s a c.code),
    addSyntaxSet_withBookkeeping, m4QuoteUncache_setQuoteAge]
  simp only [withBookkeeping_withBookkeeping, M4SyntaxTable.syntaxAge_withBookkeeping,
    quoteAgeFor_withBookkeeping, syntaxAge_addSyntaxSet, cachedLquote_addSyntaxSet,
    cachedRquote_addSyntaxSet]
  rfl

/-- For every state, two `+` calls with the same key leave the table, the delimiters and the
three flags of one `+` call on the concatenated C string; only the ages and the quote cache may
differ. -/
theorem m4SetSyntax_add_batch (s : M4SyntaxTable) (key : Byte) (a b : List Byte) :
    ∃ k : Bookkeeping, (m4SetSyntax (m4SetSyntax s key .add a).1 key .add b).1 =
      (m4SetSyntax s key .add (cstr a ++ b)).1.withBookkeeping k := by
  by_cases nul : key = 0
  · have reset : ∀ t chars, (m4SetSyntax t key .add chars).1 = restoreDefaultSyntax t :=
      fun t chars => by rw [m4SetSyntax, if_pos nul]
    rw [reset, reset, reset]
    exact ⟨_, restoreDefaultSyntax_of_orig _ rfl⟩
  cases known : m4SyntaxCode key with
  | none =>
      have same : ∀ t chars, (m4SetSyntax t key .add chars).1 = t :=
        fun t chars => by simp [m4SetSyntax, nul, known]
      rw [same, same, same]
      exact ⟨s.bookkeeping, (M4SyntaxTable.withBookkeeping_bookkeeping s).symm⟩
  | some c =>
      rw [m4SetSyntax_add_add s known known, addSyntaxSet_append, m4SetSyntax_add _ _ known,
        m4QuoteUncache_setQuoteAge]
      exact ⟨_, (withBookkeeping_withBookkeeping _ _ _).symm⟩

/-- For every state, two `+` calls with keys other than NUL on strings with no byte in common
give the same state in either order. -/
theorem m4SetSyntax_add_comm (s : M4SyntaxTable) {key key' : Byte} (nonzero : key ≠ 0)
    (nonzero' : key' ≠ 0) {a b : List Byte} (disjoint : ∀ x ∈ cstr a, x ∉ cstr b) :
    (m4SetSyntax (m4SetSyntax s key .add a).1 key' .add b).1 =
      (m4SetSyntax (m4SetSyntax s key' .add b).1 key .add a).1 := by
  cases known : m4SyntaxCode key with
  | none => simp [m4SetSyntax, nonzero, known]
  | some c =>
      cases known' : m4SyntaxCode key' with
      | none => simp [m4SetSyntax, nonzero', known']
      | some c' =>
          rw [m4SetSyntax_add_add s known known', m4SetSyntax_add_add s known' known,
            addSyntaxSet_comm s c disjoint c']

/-- `changesyntax(W+, "-")` and `changesyntax(D+, "_")` on the created table. -/
theorem m4SetSyntax_add_comm_word :
    (87 : Byte) ≠ 0 ∧ (68 : Byte) ≠ 0 ∧ (∀ x ∈ cstr [45], x ∉ cstr [95]) ∧
      (m4SetSyntax (m4SetSyntax m4SyntaxCreate 87 .add [45]).1 68 .add [95]).1 =
        (m4SetSyntax (m4SetSyntax m4SyntaxCreate 68 .add [95]).1 87 .add [45]).1 :=
  have disjoint : ∀ x ∈ cstr [45], x ∉ cstr [95] := by simp [cstr]
  ⟨by decide, by decide, disjoint,
    m4SetSyntax_add_comm m4SyntaxCreate (by decide) (by decide) disjoint⟩

/-- For every state, `=` with a key and then `+` with the same key leave the table of one `=` on
the concatenated C string. Only the table: `+` runs no check, so the flags and the delimiters the
checks adopt may differ. -/
theorem m4SetSyntax_set_add_table (s : M4SyntaxTable) (key : Byte) (a b : List Byte) :
    (m4SetSyntax (m4SetSyntax s key .set a).1 key .add b).1.table =
      (m4SetSyntax s key .set (cstr a ++ b)).1.table := by
  by_cases nul : key = 0
  · simp only [m4SetSyntax, if_pos nul, restoreDefaultSyntax_table]
    rfl
  cases known : m4SyntaxCode key with
  | none => simp [m4SetSyntax, nul, known]
  | some c =>
      funext x
      simp only [m4SetSyntax_of_known _ _ c known, table_m4QuoteUncache, table_setQuoteAge,
        table_run, cstr_cstr_append, List.mem_append]
      by_cases inB : x ∈ cstr b <;> by_cases inA : x ∈ cstr a <;>
        simp [inA, inB, addSyntaxAttribute_idem]

end M4Syntax
