import M4Syntax.Twice

/-!
# What no call changes

Some parts of the state are out of reach of every call. The default table `orig` is the one
`m4_syntax_create` computes ("This table never changes during operation"), and the NUL byte keeps
the category OTHER, with no mask, that it gets there: the byte loops of `m4_set_syntax` stop at
the NUL that ends the string, the sweeps only ever give it OTHER back, and the installers write
only the first bytes of one-byte delimiters (`reachable_default_and_nul_fixed`). The stored
delimiters never hold a NUL, and a non-empty start delimiter always comes with a non-empty end
delimiter (`reachable_delimiters_closed`).

`m4_set_syntax` with a key other than NUL never makes a family single, and changes its stored
delimiters only through the check of a family that was single, which rewrites the first byte of
each string and keeps the lengths (`m4SetSyntax_delimiters`). The relation between the state
before and after is `KeepsDelimiters`; every step of the call keeps it, and it composes.
-/

set_option autoImplicit false

namespace M4Syntax

open SyntaxCategory M4SyntaxTable

/-! ## The NUL byte -/

section Nul

variable {s : M4SyntaxTable}

theorem setSweepEntry_other (c : SyntaxCategory) :
    setSweepEntry c.code other.code = other.code := by
  cases c <;> decide

theorem resetEntry_zero_other (c : SyntaxCategory) :
    resetEntry m4SyntaxOrig c.code 0 other.code = other.code := by
  cases c <;> decide

/-- A verb leaves the NUL byte OTHER. -/
theorem SyntaxAction.run_table_zero (inv : SyntaxInv s) (nul : s.table 0 = other.code)
    (action : SyntaxAction) (chars : List Byte) (c : SyntaxCategory) :
    (action.run s chars c.code).table 0 = other.code := by
  rw [table_run]
  cases action <;>
    simp [zero_not_mem_cstr, nul, setSweepEntry_other, inv.orig, resetEntry_zero_other]

theorem m4SetSyntax_table_zero (inv : SyntaxInv s) (nul : s.table 0 = other.code) (key : Byte)
    (action : SyntaxAction) (chars : List Byte) :
    (m4SetSyntax s key action chars).1.table 0 = other.code := by
  unfold m4SetSyntax
  split
  · rw [restoreDefaultSyntax_table, inv.orig]
    decide
  · split
    · exact nul
    · exact SyntaxAction.run_table_zero inv nul action chars _

theorem setDelimiters_table_zero (inv : SyntaxInv s) (d : Delim) (blocking : BitVec 16)
    (left right : List Byte) : (setDelimiters d blocking s left right).table 0 = s.table 0 := by
  rw [setDelimiters_table_apply]
  split
  · rfl
  · exact installedEntry_zero inv.nul

/-- Every call leaves the NUL byte OTHER. -/
theorem SyntaxOp.apply_table_zero (inv : SyntaxInv s) (nul : s.table 0 = other.code) :
    ∀ op : SyntaxOp, (op.apply s).table 0 = other.code
  | .setSyntax key action chars => m4SetSyntax_table_zero inv nul key action chars
  | .setQuotes _ _ => (setDelimiters_table_zero inv _ _ _ _).trans nul
  | .setComment _ _ => (setDelimiters_table_zero inv _ _ _ _).trans nul

end Nul

/-- In every reachable state the default table is the one `m4_syntax_create` computed, and the
NUL byte has the category OTHER and no mask. -/
theorem reachable_default_and_nul_fixed {s : M4SyntaxTable} (reachable : Reachable s) :
    s.orig = m4SyntaxOrig ∧ s.table 0 = other.code :=
  ⟨reachable.syntaxInv.orig, Reachable.invariant (P := fun t => t.table 0 = other.code)
    (by decide) (fun op reachable nul => op.apply_table_zero reachable.syntaxInv nul) reachable⟩

/-- `changesyntax(O=, " ")` on the created table sweeps OTHER over every byte. -/
theorem reachable_default_and_nul_fixed_setOther :
    Reachable (m4SetSyntax m4SyntaxCreate 79 .set [32]).1 ∧
      (m4SetSyntax m4SyntaxCreate 79 .set [32]).1.orig = m4SyntaxOrig ∧
      (m4SetSyntax m4SyntaxCreate 79 .set [32]).1.table 0 = other.code :=
  have reachable : Reachable (m4SetSyntax m4SyntaxCreate 79 .set [32]).1 :=
    Reachable.create.step (.setSyntax 79 .set [32])
  ⟨reachable, reachable_default_and_nul_fixed reachable⟩

/-! ## The stored delimiters -/

/-- In every reachable state the stored delimiters hold no NUL, and a non-empty start delimiter
comes with a non-empty end delimiter. -/
theorem reachable_delimiters_closed {s : M4SyntaxTable} (reachable : Reachable s) (d : Delim) :
    (0 : Byte) ∉ (s.pair d).str1 ∧ (0 : Byte) ∉ (s.pair d).str2 ∧
      ((s.pair d).str1 ≠ [] → (s.pair d).str2 ≠ []) :=
  have wf := reachable.syntaxInv.pairs d
  ⟨wf.nul1, wf.nul2, wf.closed⟩

/-- `changecom(;)` on the created table: the end delimiter defaults to newline. -/
theorem reachable_delimiters_closed_changecom :
    Reachable (m4SetComment m4SyntaxCreate (some [59]) none) ∧
      (0 : Byte) ∉ ((m4SetComment m4SyntaxCreate (some [59]) none).pair .comm).str1 ∧
      (0 : Byte) ∉ ((m4SetComment m4SyntaxCreate (some [59]) none).pair .comm).str2 ∧
      (((m4SetComment m4SyntaxCreate (some [59]) none).pair .comm).str1 ≠ [] →
        ((m4SetComment m4SyntaxCreate (some [59]) none).pair .comm).str2 ≠ []) :=
  have reachable : Reachable (m4SetComment m4SyntaxCreate (some [59]) none) :=
    Reachable.create.step (.setComment (some [59]) none)
  ⟨reachable, reachable_delimiters_closed reachable .comm⟩

/-! ## `m4_set_syntax` and the delimiters -/

/-- What `m4_set_syntax` may do to one family's delimiters: clear the flag, and rewrite the first
bytes of a pair whose flag was set, keeping the lengths. -/
def KeepsDelimiters (d : Delim) (s t : M4SyntaxTable) : Prop :=
  (t.isSingle d = true → s.isSingle d = true) ∧
    (t.pair d = s.pair d ∨ (s.isSingle d = true ∧ ∃ a b : Byte,
      t.pair d = ⟨setFirstByte (s.pair d).str1 a, (s.pair d).len1,
        setFirstByte (s.pair d).str2 b, (s.pair d).len2⟩))

namespace KeepsDelimiters

variable {d : Delim} {s t u : M4SyntaxTable}

theorem of_frame (pair : t.pair d = s.pair d) (single : t.isSingle d = s.isSingle d) :
    KeepsDelimiters d s t :=
  ⟨fun set => single ▸ set, .inl pair⟩

theorem refl : KeepsDelimiters d s s := of_frame rfl rfl

theorem trans (first : KeepsDelimiters d s t) (second : KeepsDelimiters d t u) :
    KeepsDelimiters d s u := by
  refine ⟨fun set => first.1 (second.1 set), ?_⟩
  rcases second.2 with same | ⟨set, a, b, written⟩
  · rw [same]
    exact first.2
  · refine .inr ⟨first.1 set, ?_⟩
    rcases first.2 with same | ⟨-, a', b', written'⟩
    · exact ⟨a, b, by rw [written, same]⟩
    · refine ⟨a, b, ?_⟩
      rw [written, written']
      simp only [setFirstByte, List.set_set]

theorem ite {p : Prop} [Decidable p] (yes : KeepsDelimiters d s t) (no : KeepsDelimiters d s u) :
    KeepsDelimiters d s (if p then t else u) := by
  split
  · exact yes
  · exact no

theorem checkIsSingle (e : Delim) : KeepsDelimiters d s (M4Syntax.checkIsSingle e s).1 := by
  by_cases same : e = d
  · subst same
    obtain ⟨keeps, stored⟩ := checkIsSingle_stores e s
    refine ⟨keeps, ?_⟩
    rcases stored with unchanged | ⟨start, stop, -, -, written⟩
    · exact .inl unchanged
    · cases set : s.isSingle e
      · rw [checkIsSingle_of_clear s set]
        exact .inl rfl
      · exact .inr ⟨rfl, start, stop, written⟩
  · exact of_frame (pair_checkIsSingle_of_ne _ _ _ (Ne.symm same))
      (isSingle_checkIsSingle_of_ne _ _ _ (Ne.symm same))

theorem checkIsMacroEscaped : KeepsDelimiters d s (M4Syntax.checkIsMacroEscaped s).1 :=
  of_frame (pair_checkIsMacroEscaped _ _) (isSingle_checkIsMacroEscaped _ _)

theorem setTable (table : Byte → BitVec 16) : KeepsDelimiters d s (s.setTable table) :=
  of_frame (pair_setTable _ _ _) (isSingle_setTable _ _ _)

theorem checkAll : KeepsDelimiters d s (M4Syntax.checkAll s) :=
  (checkIsMacroEscaped.trans (checkIsSingle .quote)).trans (checkIsSingle .comm)

end KeepsDelimiters

section Verbs

variable (s : M4SyntaxTable) (chars : List Byte) (c : SyntaxCategory) (d : Delim)

theorem KeepsDelimiters.addSyntaxSet :
    KeepsDelimiters d s (M4Syntax.addSyntaxSet s chars c.code) := by
  unfold M4Syntax.addSyntaxSet
  split
  · exact .refl
  · refine .trans ?_ (.setTable _)
    split
    · exact .of_frame (by cases d <;> rfl) (by cases d <;> rfl)
    · exact .refl

theorem KeepsDelimiters.subtractCheck (code : BitVec 16) (t : M4SyntaxTable) :
    KeepsDelimiters d t (M4Syntax.subtractCheck code t) := by
  unfold M4Syntax.subtractCheck
  exact .ite (.ite .checkIsMacroEscaped .refl) (.ite (.ite (.checkIsSingle _) .refl)
    (.ite (.ite (.checkIsSingle _) .refl) .refl))

theorem SyntaxAction.keepsDelimiters (action : SyntaxAction) :
    KeepsDelimiters d s (action.run s chars c.code) := by
  cases action
  · exact .addSyntaxSet s chars c d
  · rw [SyntaxAction.run, subtractSyntaxSet_eq]
    exact .ite .refl ((KeepsDelimiters.setTable _).trans (.subtractCheck d c.code _))
  · rw [SyntaxAction.run, setSyntaxSet_eq]
    exact (KeepsDelimiters.setTable _).trans .checkAll
  · rw [SyntaxAction.run, resetSyntaxSet_eq]
    exact (KeepsDelimiters.setTable _).trans .checkAll

end Verbs

/-- `m4_set_syntax` with a key other than NUL never sets a single-delimiter flag, and changes a
stored delimiter pair only when its flag was set, by rewriting the first byte of each string
and keeping the lengths. -/
theorem m4SetSyntax_delimiters (s : M4SyntaxTable) {key : Byte} (nonzero : key ≠ 0)
    (action : SyntaxAction) (chars : List Byte) (d : Delim) :
    ((m4SetSyntax s key action chars).1.isSingle d = true → s.isSingle d = true) ∧
      ((m4SetSyntax s key action chars).1.pair d = s.pair d ∨
        (s.isSingle d = true ∧ ∃ a b : Byte, (m4SetSyntax s key action chars).1.pair d =
          ⟨setFirstByte (s.pair d).str1 a, (s.pair d).len1,
            setFirstByte (s.pair d).str2 b, (s.pair d).len2⟩)) := by
  show KeepsDelimiters d s _
  cases known : m4SyntaxCode key with
  | none => simp only [m4SetSyntax, nonzero, if_false, known]; exact .refl
  | some c =>
      rw [m4SetSyntax_of_known s chars c known]
      exact (SyntaxAction.keepsDelimiters s chars c d action).trans
        (.of_frame (by simp) (by simp))

/-- `changesyntax(L-, "`")` after `changesyntax(L+, "[")`: the check finds one left quote and
rewrites the stored one. -/
theorem m4SetSyntax_delimiters_bracket :
    (76 : Byte) ≠ 0 ∧
      ((m4SetSyntax (m4SetSyntax m4SyntaxCreate 76 .add [91]).1 76 .subtract [96]).1.isSingle
          .quote = true →
        (m4SetSyntax m4SyntaxCreate 76 .add [91]).1.isSingle .quote = true) ∧
      ((m4SetSyntax (m4SetSyntax m4SyntaxCreate 76 .add [91]).1 76 .subtract [96]).1.pair .quote =
          (m4SetSyntax m4SyntaxCreate 76 .add [91]).1.pair .quote ∨
        ((m4SetSyntax m4SyntaxCreate 76 .add [91]).1.isSingle .quote = true ∧ ∃ a b : Byte,
          (m4SetSyntax (m4SetSyntax m4SyntaxCreate 76 .add [91]).1 76 .subtract [96]).1.pair
              .quote =
            ⟨setFirstByte ((m4SetSyntax m4SyntaxCreate 76 .add [91]).1.pair .quote).str1 a,
              ((m4SetSyntax m4SyntaxCreate 76 .add [91]).1.pair .quote).len1,
              setFirstByte ((m4SetSyntax m4SyntaxCreate 76 .add [91]).1.pair .quote).str2 b,
              ((m4SetSyntax m4SyntaxCreate 76 .add [91]).1.pair .quote).len2⟩)) :=
  ⟨by decide, m4SetSyntax_delimiters _ (by decide) .subtract [96] .quote⟩

end M4Syntax
