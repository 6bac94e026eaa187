import M4Syntax.Reset

/-!
# The escape flag never misses an escape

`is_macro_escaped` tells the tokenizer whether to look for escapes at all. It can be stale in
one direction: adding OTHER over the only ESCAPE byte leaves it set
(`addOther_escape_keeps_macro_escaped`). It is never stale in the other: in every reachable state
a byte with the basis ESCAPE comes with the flag set (`reachable_escape_flag_sound`).

The invariant is `EscapeSound`. The full reset installs the default table, which has no escape
(`EscapeSound.restoreDefaultSyntax`). The checks of `=` and of the reset recompute the flag from
the table (`EscapeSound.checkIsMacroEscaped`). Adding ESCAPE sets the flag; every other write of
`+` and `-` only removes escapes (`basisBits_addSyntaxAttribute_escape`,
`basisBits_subtractEntry_escape`), and `-` of ESCAPE rechecks a set flag. The installers only
remove escapes too (`installedEntry_escape`), and recheck a set flag; a clear flag means, by the
invariant, that there was no escape to remove.
-/

set_option autoImplicit false

namespace M4Syntax

open SyntaxCategory

/-- Every byte with the basis ESCAPE is seen by `is_macro_escaped`. -/
def EscapeSound (s : M4SyntaxTable) : Prop :=
  ∀ b, basisBits (s.table b) = escape.code → s.isMacroEscaped = true

/-! ## Entries that end as escapes -/

section Entries

variable {x : BitVec 16} {c : SyntaxCategory}

/-- A byte with the basis ESCAPE passes the bit test of `check_is_macro_escaped`. -/
theorem m4HasSyntax_escape_of_basisBits (escaped : basisBits x = escape.code) :
    m4HasSyntax x escape.code = true := by
  rw [m4HasSyntax_basis ((code_and_masks escape).2 rfl), escaped]
  decide

/-- Writing any category but ESCAPE makes no new escape. -/
theorem basisBits_addSyntaxAttribute_escape (notEscape : c ≠ escape)
    (escaped : basisBits (addSyntaxAttribute x c.code) = escape.code) :
    basisBits x = escape.code := by
  cases mask : c.isMask
  · rw [basisBits_addSyntaxAttribute x mask] at escaped
    exact absurd (code_inj.1 escaped) notEscape
  · rwa [addSyntaxAttribute_mask x mask, basisBits_or_of_inMasks (code_and_not_masks mask)]
      at escaped

/-- The body of `-` makes no new escape. -/
theorem basisBits_subtractEntry_escape
    (escaped : basisBits (subtractEntry c.code x) = escape.code) : basisBits x = escape.code := by
  unfold subtractEntry at escaped
  split at escaped
  · rename_i mask
    have masked : c.isMask = true := by
      by_contra basis
      simp [(code_and_masks c).2 (by simpa using basis)] at mask
    rwa [removeSyntaxAttribute, basisBits_and_not_of_inMasks (code_and_not_masks masked)]
      at escaped
  · split at escaped
    · exact basisBits_addSyntaxAttribute_escape (by decide) escaped
    · exact escaped

/-- The default table with the two delimiter masks has the default bases. -/
theorem basisBits_withDelimiterMasks (orig : Byte → BitVec 16) (b : Byte) :
    basisBits (withDelimiterMasks orig b) = basisBits (orig b) := by
  rw [withDelimiterMasks,
    basisBits_or_of_inMasks (ite_code_and_not_masks (rfl : ecomm.isMask = true) _),
    basisBits_or_of_inMasks (ite_code_and_not_masks (rfl : rquote.isMask = true) _)]

/-- No entry of the table the full reset installs is an escape. -/
theorem basisBits_withDelimiterMasks_ne_escape (b : Byte) :
    basisBits (withDelimiterMasks m4SyntaxOrig b) ≠ escape.code := by
  obtain ⟨o, basis, -, default⟩ := m4SyntaxOrig_basis b
  rw [basisBits_withDelimiterMasks, default, basisBits_code basis, ← default]
  exact m4SyntaxOrig_ne_escape b

/-- The sweep and the install of an installer make no new escape. -/
theorem installedEntry_escape {s : M4SyntaxTable} (inv : SyntaxInv s) {d : Delim}
    {blocking : BitVec 16} {left right : List Byte} {b : Byte}
    (escaped : basisBits (installedEntry d blocking s left right b) = escape.code) :
    basisBits (s.table b) = escape.code := by
  obtain ⟨o, basis, -, default⟩ := m4SyntaxOrig_basis b
  rw [basisBits_installedEntry rfl inv.orig] at escaped
  split at escaped
  · exact absurd escaped (by cases d <;> decide)
  · rw [basisBits_clearDelimEntry default basis (inv.entries b)] at escaped
    split at escaped
    · split at escaped
      · exact absurd escaped (by decide)
      · rw [code_inj.1 escaped] at default
        exact absurd default (m4SyntaxOrig_ne_escape b)
    · exact escaped

end Entries

/-! ## Every call keeps the invariant -/

namespace EscapeSound

variable {s : M4SyntaxTable}

theorem of_no_escape (none : ∀ b, basisBits (s.table b) ≠ escape.code) : EscapeSound s :=
  fun b escaped => absurd escaped (none b)

/-- The same flag beside a table whose escapes were all there before. -/
theorem of_table {t : M4SyntaxTable} (sound : EscapeSound s)
    (flag : t.isMacroEscaped = s.isMacroEscaped)
    (escapes : ∀ b, basisBits (t.table b) = escape.code → basisBits (s.table b) = escape.code) :
    EscapeSound t :=
  fun b escaped => flag ▸ sound b (escapes b escaped)

/-- `check_is_macro_escaped` computes the flag from the table. -/
theorem checkIsMacroEscaped (s : M4SyntaxTable) : EscapeSound (M4Syntax.checkIsMacroEscaped s).1 :=
  fun b escaped => (checkIsMacroEscaped_flag s).2 ⟨b, m4HasSyntax_escape_of_basisBits escaped⟩

/-- A set flag is rechecked, and so computed from the table. -/
theorem recheckMacroEscaped_of_flag (flag : s.isMacroEscaped = true) :
    EscapeSound (recheckMacroEscaped s) := by
  rw [recheckMacroEscaped, if_pos flag]
  exact EscapeSound.checkIsMacroEscaped s

theorem checkIsSingle (sound : EscapeSound s) (d : Delim) :
    EscapeSound (M4Syntax.checkIsSingle d s).1 :=
  sound.of_table (isMacroEscaped_checkIsSingle d s) fun b escaped => by
    rwa [table_checkIsSingle] at escaped

theorem setQuoteAge (sound : EscapeSound s) (reset change : Bool) :
    EscapeSound (M4Syntax.setQuoteAge s reset change) :=
  sound.of_table rfl fun _ escaped => escaped

theorem restoreDefaultSyntax (origEq : s.orig = m4SyntaxOrig) :
    EscapeSound (M4Syntax.restoreDefaultSyntax s) :=
  of_no_escape fun b => by
    rw [restoreDefaultSyntax_table, origEq]
    exact basisBits_withDelimiterMasks_ne_escape b

theorem addSyntaxSet (sound : EscapeSound s) (chars : List Byte) (c : SyntaxCategory) :
    EscapeSound (M4Syntax.addSyntaxSet s chars c.code) := by
  by_cases empty : firstByte chars = 0
  · rwa [M4Syntax.addSyntaxSet, if_pos empty]
  by_cases added : c = escape
  · subst added
    intro _ _
    rw [M4Syntax.addSyntaxSet, if_neg empty]
    rfl
  refine sound.of_table ?_ fun b escaped => ?_
  · rw [M4Syntax.addSyntaxSet, if_neg empty]
    dsimp only
    rw [if_neg (mt code_inj.1 added)]
    rfl
  · rw [table_addSyntaxSet] at escaped
    split at escaped
    · exact basisBits_addSyntaxAttribute_escape added escaped
    · exact escaped

theorem subtractSyntaxSet (sound : EscapeSound s) (chars : List Byte) (c : SyntaxCategory) :
    EscapeSound (M4Syntax.subtractSyntaxSet s chars c.code) := by
  unfold M4Syntax.subtractSyntaxSet
  by_cases empty : firstByte chars = 0
  · rwa [if_pos empty]
  have swept : EscapeSound (s.setTable (forEachChar chars (subtractEntry c.code) s.table)) :=
    sound.of_table rfl fun b escaped => by
      rw [M4SyntaxTable.table_setTable, forEachChar_apply (subtractEntry_idem · c)] at escaped
      split at escaped
      · exact basisBits_subtractEntry_escape escaped
      · exact escaped
  rw [if_neg empty]
  simp only [apply_ite EscapeSound, swept, EscapeSound.checkIsMacroEscaped, checkIsSingleQuotes,
    checkIsSingleComments, swept.checkIsSingle, ite_self]

theorem setSyntaxSet (chars : List Byte) (c : SyntaxCategory) :
    EscapeSound (M4Syntax.setSyntaxSet s chars c.code) :=
  ((EscapeSound.checkIsMacroEscaped _).checkIsSingle .quote).checkIsSingle .comm

theorem resetSyntaxSet (c : SyntaxCategory) : EscapeSound (M4Syntax.resetSyntaxSet s c.code) :=
  ((EscapeSound.checkIsMacroEscaped _).checkIsSingle .quote).checkIsSingle .comm

theorem m4SetSyntax (sound : EscapeSound s) (inv : SyntaxInv s) (key : Byte)
    (action : SyntaxAction) (chars : List Byte) :
    EscapeSound (M4Syntax.m4SetSyntax s key action chars).1 := by
  unfold M4Syntax.m4SetSyntax
  split
  · exact restoreDefaultSyntax inv.orig
  · split
    · exact sound
    · rename_i c _
      have verb : EscapeSound (action.run s chars c.code) := by
        cases action
        · exact sound.addSyntaxSet chars c
        · exact sound.subtractSyntaxSet chars c
        · exact setSyntaxSet chars c
        · exact resetSyntaxSet c
      exact (verb.setQuoteAge false true).of_table rfl fun _ escaped => escaped

/-- An installer with the flag set rechecks it; with the flag clear there was no escape, and the
installer makes none. -/
theorem setDelimiters (sound : EscapeSound s) (inv : SyntaxInv s) (d : Delim)
    (blocking : BitVec 16) (left right : List Byte) :
    EscapeSound (M4Syntax.setDelimiters d blocking s left right) := by
  by_cases same : sameDelimiters d s left right
  · rwa [setDelimiters_of_same _ _ _ _ _ same]
  by_cases flagged : s.isMacroEscaped = true
  · rw [M4Syntax.setDelimiters, if_neg same]
    dsimp only
    refine (recheckMacroEscaped_of_flag ?_).setQuoteAge false false
    cases installsSingle blocking s left right
    · rw [if_neg Bool.false_ne_true, M4SyntaxTable.isMacroEscaped_setTable,
        M4SyntaxTable.isMacroEscaped_setSingle, M4SyntaxTable.isMacroEscaped_setPair, flagged]
    · rw [if_pos rfl, M4SyntaxTable.isMacroEscaped_setTable, M4SyntaxTable.isMacroEscaped_setTable,
        M4SyntaxTable.isMacroEscaped_setSingle, M4SyntaxTable.isMacroEscaped_setPair, flagged]
  · refine of_no_escape fun b escaped => flagged (sound b ?_)
    rw [setDelimiters_table same] at escaped
    exact installedEntry_escape inv escaped

theorem apply (sound : EscapeSound s) (inv : SyntaxInv s) : ∀ op : SyntaxOp,
    EscapeSound (op.apply s)
  | .setSyntax key action chars => sound.m4SetSyntax inv key action chars
  | .setQuotes _ _ => sound.setDelimiters inv .quote quoteBlocking _ _
  | .setComment _ _ => sound.setDelimiters inv .comm commentBlocking _ _

end EscapeSound

/-- In every reachable state, a byte with the basis ESCAPE comes with `is_macro_escaped` set. -/
theorem reachable_escape_flag_sound {s : M4SyntaxTable} (reachable : Reachable s) (b : Byte)
    (escaped : basisBits (s.table b) = escape.code) : s.isMacroEscaped = true :=
  Reachable.invariant (P := EscapeSound) (.restoreDefaultSyntax rfl)
    (fun op reachable sound => sound.apply reachable.syntaxInv op) reachable b escaped

/-- `changesyntax(@+, "!")` on the created table. -/
theorem reachable_escape_flag_sound_bang :
    Reachable (m4SetSyntax m4SyntaxCreate 64 .add [33]).1 ∧
      basisBits ((m4SetSyntax m4SyntaxCreate 64 .add [33]).1.table 33) = escape.code ∧
      (m4SetSyntax m4SyntaxCreate 64 .add [33]).1.isMacroEscaped = true :=
  have reachable : Reachable (m4SetSyntax m4SyntaxCreate 64 .add [33]).1 :=
    Reachable.create.step (.setSyntax 64 .add [33])
  have escaped : basisBits ((m4SetSyntax m4SyntaxCreate 64 .add [33]).1.table 33) =
      escape.code := by decide
  ⟨reachable, escaped, reachable_escape_flag_sound reachable 33 escaped⟩

end M4Syntax
