import M4Syntax.Invariant

/-!
# What the changesyntax verbs do to the table

Each verb changes every entry by a function of the entry alone: the writes of the byte loop are
idempotent, so an entry of a byte of the string ends as one write of its old value
(`table_addSyntaxSet`, `table_subtractSyntaxSet`, `table_setSyntaxSet`), and the sweeps write
every entry once (`table_resetSyntaxSet`). On a well-formed entry the bit test of a basis code
is equality of bases, except for IGNORE, the empty basis, which the test never sees
(`m4HasSyntax_code_of_entryWF`).

So in every reachable state `m4_set_syntax` changes the table as the comments of the verb loops
say (`documentedVerbEntry`), for every key but IGNORE's; on the IGNORE key `-` and the reset
change nothing, and `+` and `=` clear the basis of the bytes of the string
(`m4SetSyntax_verb_table`). The comments fail for IGNORE, which `m4_syntax_code` marks FIXME: a
byte given the empty basis keeps it under `-`, under `=` with a string that leaves it out, and
under the reset verb (`ignore_verbs_keep_empty_basis`).

Resetting each of the seventeen categories, in any order and with repetitions, from any
reachable state, gives the table of the full reset (`runResets_table`): the reset of a byte's
current or default category restores it, and no later reset moves it again.

Adding runs no check of the derived flags. A basis added over a delimiter byte or over the only
ESCAPE byte leaves the flag claiming a role that no byte holds
(`addOther_backquote_keeps_single_quotes`, `addOther_hash_keeps_single_comments`,
`addOther_escape_keeps_macro_escaped`).
-/

set_option autoImplicit false

namespace M4Syntax

open SyntaxCategory

/-! ## Entries under one write -/

/-- A basis code is its own basis. -/
theorem basisBits_code {d : SyntaxCategory} (basis : d.isMask = false) :
    basisBits d.code = d.code := by
  simpa [maskBits] using @basisBits_maskBits_or 0 d.code ((code_and_masks d).2 basis)

section Entries

variable (x : BitVec 16) (c : SyntaxCategory)

theorem addSyntaxAttribute_idem :
    addSyntaxAttribute (addSyntaxAttribute x c.code) c.code = addSyntaxAttribute x c.code := by
  cases mask : c.isMask
  · rw [addSyntaxAttribute_basis _ mask, addSyntaxAttribute_basis _ mask,
      maskBits_maskBits_or ((code_and_masks c).2 mask)]
  · rw [addSyntaxAttribute_mask _ mask, addSyntaxAttribute_mask _ mask, BitVec.or_assoc,
      BitVec.or_self]

/-- The bit test of a category's code on a well-formed entry. -/
theorem m4HasSyntax_code_of_entryWF {x : BitVec 16} (wf : EntryWF x) {c : SyntaxCategory}
    (basis : c.isMask = false) :
    m4HasSyntax x c.code = (basisBits x == c.code && c != ignore) := by
  obtain ⟨b, _, bits⟩ := wf
  rw [m4HasSyntax_basis ((code_and_masks c).2 basis), bits, m4HasSyntax_code_code]
  by_cases same : b = c
  · rw [same]
    simp
  · have differ : (b.code == c.code) = false := by simpa [code_inj] using same
    simp [same, differ]

theorem subtractEntry_idem :
    subtractEntry c.code (subtractEntry c.code x) = subtractEntry c.code x := by
  cases mask : c.isMask
  · have basis : (c.code &&& syntaxMasks != 0) = false := by simp [(code_and_masks c).2 mask]
    simp only [subtractEntry, basis, Bool.false_eq_true, if_false]
    by_cases holds : m4HasSyntax x c.code
    · have bits : basisBits (addSyntaxAttribute x other.code) = other.code :=
        basisBits_addSyntaxAttribute x rfl
      rw [if_pos holds, m4HasSyntax_basis ((code_and_masks c).2 mask), bits,
        m4HasSyntax_code_code]
      by_cases same : other = c
      · subst same
        simp [addSyntaxAttribute_idem]
      · simp [same]
    · simp [holds]
  · have nonzero : (c.code &&& syntaxMasks != 0) = true := by simpa using code_and_masks_ne mask
    simp only [subtractEntry, nonzero, if_true, removeSyntaxAttribute, BitVec.and_assoc,
      BitVec.and_self]

theorem addSyntaxAttribute_eq :
    addSyntaxAttribute x c.code = if c.isMask then x ||| c.code else maskBits x ||| c.code := by
  cases mask : c.isMask
  · exact addSyntaxAttribute_basis x mask
  · exact addSyntaxAttribute_mask x mask

theorem and_not_or_self (y : BitVec 16) : x &&& ~~~y ||| y = x ||| y := by
  ext i
  simp only [BitVec.getLsbD_or, BitVec.getLsbD_and, BitVec.getLsbD_not]
  cases x.getLsbD i <;> cases y.getLsbD i <;> simp

/-- The sweep of `=` and the body of `-` agree on the code of a category. -/
theorem setSweepEntry_eq_subtractEntry :
    setSweepEntry c.code x = subtractEntry c.code x := by
  have same : (c.code == rquote.code || c.code == ecomm.code) =
      (c.code &&& syntaxMasks != 0) := by
    cases c <;> decide
  simp only [setSweepEntry, subtractEntry, same]

end Entries

section WellFormed

variable {x : BitVec 16} (wf : EntryWF x) {c : SyntaxCategory}
include wf

/-- The body of `-` on a well-formed entry: clear the mask, or turn a holder of the basis into
OTHER. -/
theorem subtractEntry_eq :
    subtractEntry c.code x =
      if c.isMask then x &&& ~~~c.code
      else if basisBits x = c.code ∧ c ≠ ignore then maskBits x ||| other.code else x := by
  cases mask : c.isMask
  · simp [subtractEntry, (code_and_masks c).2 mask, m4HasSyntax_code_of_entryWF wf mask,
      addSyntaxAttribute_basis x (rfl : other.isMask = false)]
  · have nonzero : (c.code &&& syntaxMasks != 0) = true := by simpa using code_and_masks_ne mask
    simp only [subtractEntry, nonzero, if_true, removeSyntaxAttribute]

/-- The reset sweep on a well-formed entry whose default is a basis code. -/
theorem resetEntry_eq {orig : Byte → BitVec 16} {b : Byte} {d : SyntaxCategory}
    (default : orig b = d.code) (basis : d.isMask = false) :
    resetEntry orig c.code b x =
      if c = rquote then (if b = 39 then x ||| c.code else x &&& ~~~c.code)
      else if c = ecomm then (if b = 10 then x ||| c.code else x &&& ~~~c.code)
      else if orig b = c.code ∨ (basisBits x = c.code ∧ c ≠ ignore) then maskBits x ||| orig b
      else x := by
  unfold resetEntry
  by_cases right : c = rquote
  · subst right
    simp [addSyntaxAttribute_mask _ (rfl : rquote.isMask = true), removeSyntaxAttribute]
  by_cases stop : c = ecomm
  · subst stop
    simp [addSyntaxAttribute_mask _ (rfl : ecomm.isMask = true), removeSyntaxAttribute, code_inj]
  have notMask : c.isMask = false := by cases c <;> simp_all [isMask]
  simp [right, stop, code_inj, m4HasSyntax_code_of_entryWF wf notMask, default,
    addSyntaxAttribute_basis x basis]

end WellFormed

/-! ## The table after each verb -/

section Tables

variable (s : M4SyntaxTable) (chars : List Byte) (c : SyntaxCategory) (b : Byte)

@[simp] theorem table_checkIsSingleQuotes : (checkIsSingleQuotes s).1.table = s.table :=
  table_checkIsSingle _ _

@[simp] theorem table_checkIsSingleComments : (checkIsSingleComments s).1.table = s.table :=
  table_checkIsSingle _ _

theorem cstr_eq_nil_of_firstByte {buffer : List Byte} (empty : firstByte buffer = 0) :
    cstr buffer = [] := by
  by_contra nonempty
  exact (cstr_ne_nil_iff buffer).1 nonempty empty

theorem table_addSyntaxSet :
    (addSyntaxSet s chars c.code).table b =
      if b ∈ cstr chars then addSyntaxAttribute (s.table b) c.code else s.table b := by
  unfold addSyntaxSet
  split
  · simp [cstr_eq_nil_of_firstByte ‹_›]
  · have flagged : (if c.code = escape.code then { s with isMacroEscaped := true } else s).table =
        s.table := by split <;> rfl
    rw [M4SyntaxTable.table_setTable, flagged,
      @forEachChar_apply (addSyntaxAttribute · c.code) (addSyntaxAttribute_idem · c)]

theorem table_subtractSyntaxSet :
    (subtractSyntaxSet s chars c.code).table b =
      if b ∈ cstr chars then subtractEntry c.code (s.table b) else s.table b := by
  have looped : (subtractSyntaxSet s chars c.code).table =
      if firstByte chars = 0 then s.table
      else forEachChar chars (subtractEntry c.code) s.table := by
    unfold subtractSyntaxSet
    by_cases empty : firstByte chars = 0
    · rw [if_pos empty, if_pos empty]
    · rw [if_neg empty, if_neg empty]
      simp only [apply_ite M4SyntaxTable.table, table_checkIsMacroEscaped,
        table_checkIsSingleQuotes, table_checkIsSingleComments, M4SyntaxTable.table_setTable,
        ite_self]
  rw [looped]
  split
  · simp [cstr_eq_nil_of_firstByte ‹_›]
  · exact forEachChar_apply (subtractEntry_idem · c) chars s.table b

theorem table_setSyntaxSet :
    (setSyntaxSet s chars c.code).table b =
      if b ∈ cstr chars then addSyntaxAttribute (setSweepEntry c.code (s.table b)) c.code
      else setSweepEntry c.code (s.table b) := by
  simp [setSyntaxSet,
    @forEachChar_apply (addSyntaxAttribute · c.code) (addSyntaxAttribute_idem · c)]

theorem table_resetSyntaxSet :
    (resetSyntaxSet s c.code).table b = resetEntry s.orig c.code b (s.table b) := by
  simp [resetSyntaxSet]

theorem table_run (action : SyntaxAction) :
    (action.run s chars c.code).table b =
      match action with
      | .add => if b ∈ cstr chars then addSyntaxAttribute (s.table b) c.code else s.table b
      | .subtract => if b ∈ cstr chars then subtractEntry c.code (s.table b) else s.table b
      | .set =>
          if b ∈ cstr chars then addSyntaxAttribute (setSweepEntry c.code (s.table b)) c.code
          else setSweepEntry c.code (s.table b)
      | .reset => resetEntry s.orig c.code b (s.table b) := by
  cases action
  · exact table_addSyntaxSet s chars c b
  · exact table_subtractSyntaxSet s chars c b
  · exact table_setSyntaxSet s chars c b
  · exact table_resetSyntaxSet s c b

theorem m4SetSyntax_of_known {key : Byte} (known : m4SyntaxCode key = some c)
    (action : SyntaxAction) :
    m4SetSyntax s key action chars =
      (m4QuoteUncache (setQuoteAge (action.run s chars c.code) false true),
        (c.code.toNat : Int)) := by
  have nonzero : key ≠ 0 := by
    rintro rfl
    cases known
  simp only [m4SetSyntax, nonzero, if_false, known]

/-- A call with a known key leaves the table its verb's loops leave. -/
theorem table_m4SetSyntax_of_known {key : Byte} (known : m4SyntaxCode key = some c)
    (action : SyntaxAction) :
    (m4SetSyntax s key action chars).1.table = (action.run s chars c.code).table := by
  rw [m4SetSyntax_of_known s chars c known, table_m4QuoteUncache, table_setQuoteAge]

end Tables

/-! ## `m4_set_syntax` on the table -/

/-- What the comments of the verb loops and the description of `changesyntax` say a verb on
category `c` does to the entry `x` of byte `b` whose default is `orig`, read for every category;
`inS` says whether `b` is a byte of the string. `+` gives `b` the mask, or the basis with its
masks kept; `-` clears the mask, or turns a holder of the basis into OTHER; `=` leaves the mask
on exactly the bytes of the string, or gives them the basis and turns every other holder into
OTHER ("all other characters that used to have the category get reset to OTHER"); the reset
puts RQUOTE on the apostrophe only and ECOMM on newline only, and gives a byte whose default or
current basis is `c` its default basis ("all other characters that used to have this category
get reset to their default state as well"). -/
def documentedVerbEntry (c : SyntaxCategory) (action : SyntaxAction) (b : Byte) (inS : Bool)
    (orig x : BitVec 16) : BitVec 16 :=
  match action with
  | .add =>
      if !inS then x
      else if c.isMask then x ||| c.code
      else maskBits x ||| c.code
  | .subtract =>
      if c.isMask then (if inS then x &&& ~~~c.code else x)
      else if inS && basisBits x == c.code then maskBits x ||| other.code
      else x
  | .set =>
      if c.isMask then (if inS then x ||| c.code else x &&& ~~~c.code)
      else if inS then maskBits x ||| c.code
      else if basisBits x == c.code then maskBits x ||| other.code
      else x
  | .reset =>
      if c = rquote then (if b = 39 then x ||| c.code else x &&& ~~~c.code)
      else if c = ecomm then (if b = 10 then x ||| c.code else x &&& ~~~c.code)
      else if orig == c.code || basisBits x == c.code then maskBits x ||| orig
      else x

/-- What the verbs do on the IGNORE key: `+` and `=` clear the basis of the bytes of the string,
and nothing else changes, since the bit test never sees the empty basis. -/
def ignoreVerbEntry (action : SyntaxAction) (inS : Bool) (x : BitVec 16) : BitVec 16 :=
  match action with
  | .add | .set => if inS then maskBits x else x
  | .subtract | .reset => x

/-- In every reachable state, `m4_set_syntax` with a known key changes each entry as the verbs
are documented to, except on the IGNORE key, where the bytes of the string lose their basis
under `+` and `=` and nothing else changes. -/
theorem m4SetSyntax_verb_table {s : M4SyntaxTable} (reachable : Reachable s) {key : Byte}
    {c : SyntaxCategory} (known : m4SyntaxCode key = some c) (action : SyntaxAction)
    (chars : List Byte) (b : Byte) :
    (m4SetSyntax s key action chars).1.table b =
      if c = ignore then ignoreVerbEntry action (decide (b ∈ cstr chars)) (s.table b)
      else documentedVerbEntry c action b (decide (b ∈ cstr chars)) (s.orig b) (s.table b) := by
  have inv := reachable.syntaxInv
  have wf := inv.entries b
  obtain ⟨d, basis, real, default⟩ := m4SyntaxOrig_basis b
  rw [table_m4SetSyntax_of_known s chars c known, table_run]
  by_cases ign : c = ignore
  · subst ign
    have orig_ne : s.orig b ≠ ignore.code := by
      rw [inv.orig, default]
      exact fun same => real (code_inj.1 same)
    cases action <;>
      simp only [table_run, addSyntaxAttribute_eq, setSweepEntry_eq_subtractEntry,
        subtractEntry_eq wf, resetEntry_eq wf (inv.orig ▸ default) basis, orig_ne] <;>
      simp [ignoreVerbEntry, isMask, code, maskBits]
  · cases action
    · by_cases member : b ∈ cstr chars <;> cases mask : c.isMask <;>
        simp [documentedVerbEntry, ign, member, mask, addSyntaxAttribute_eq]
    · by_cases member : b ∈ cstr chars <;> cases mask : c.isMask <;>
        simp [documentedVerbEntry, ign, member, mask, subtractEntry_eq wf]
    · by_cases member : b ∈ cstr chars <;> cases mask : c.isMask <;>
        simp [documentedVerbEntry, ign, member, mask, addSyntaxAttribute_eq,
          setSweepEntry_eq_subtractEntry, subtractEntry_eq wf, and_not_or_self, apply_ite maskBits,
          maskBits_maskBits_or ((code_and_masks other).2 rfl)]
    · simp [documentedVerbEntry, ign, resetEntry_eq wf (inv.orig ▸ default) basis]

/-- After `changesyntax(I+, "x")` the letter has the empty basis and no mask. Then the three
verbs that are documented to move it out of IGNORE leave it there: `changesyntax(I-, "x")` and
`changesyntax(I=, "z")`, after which it should be OTHER, and `changesyntax(I)`, after which it
should have its default basis ALPHA. -/
theorem ignore_verbs_keep_empty_basis :
    Reachable (m4SetSyntax m4SyntaxCreate 73 .add [120]).1 ∧ m4SyntaxCode 73 = some ignore ∧
      (m4SetSyntax m4SyntaxCreate 73 .add [120]).1.table 120 = 0 ∧
      (m4SetSyntax (m4SetSyntax m4SyntaxCreate 73 .add [120]).1 73 .subtract [120]).1.table 120 =
        0 ∧
      documentedVerbEntry ignore .subtract 120 true (m4SyntaxOrig 120) 0 = other.code ∧
      (m4SetSyntax (m4SetSyntax m4SyntaxCreate 73 .add [120]).1 73 .set [122]).1.table 120 = 0 ∧
      documentedVerbEntry ignore .set 120 false (m4SyntaxOrig 120) 0 = other.code ∧
      (m4SetSyntax (m4SetSyntax m4SyntaxCreate 73 .add [120]).1 73 .reset []).1.table 120 = 0 ∧
      documentedVerbEntry ignore .reset 120 false (m4SyntaxOrig 120) 0 = alpha.code := by
  have reachable : Reachable (m4SetSyntax m4SyntaxCreate 73 .add [120]).1 :=
    Reachable.create.step (.setSyntax 73 .add [120])
  have known : m4SyntaxCode 73 = some ignore := rfl
  refine ⟨reachable, known, by decide, ?_, by decide, ?_, by decide, ?_, by decide⟩ <;>
    rw [m4SetSyntax_verb_table reachable known] <;> decide

/-! ## Adding runs no check

`add_syntax_set` carries the comment that adding cannot affect single quotes or single
comments, and it sets the escape flag without looking at the other bytes. -/

/-- `changesyntax(O+, "`")` on the created table: the backquote becomes OTHER, while the flag
still says single quotes and the quote age still encodes the backquote as the left quote. -/
theorem addOther_backquote_keeps_single_quotes :
    (m4SetSyntax m4SyntaxCreate 79 .add [96]).1.isSingleQuotes = true ∧
      firstByte (m4SetSyntax m4SyntaxCreate 79 .add [96]).1.quote.str1 = 96 ∧
      basisBits ((m4SetSyntax m4SyntaxCreate 79 .add [96]).1.table 96) = other.code ∧
      (m4SetSyntax m4SyntaxCreate 79 .add [96]).1.quoteAge = 0x16027 := by
  decide

/-- `changesyntax(O+, "#")` on the created table: the hash becomes OTHER, while the flag still
says single comments with the hash as the begin-comment. -/
theorem addOther_hash_keeps_single_comments :
    (m4SetSyntax m4SyntaxCreate 79 .add [35]).1.isSingleComments = true ∧
      firstByte (m4SetSyntax m4SyntaxCreate 79 .add [35]).1.comm.str1 = 35 ∧
      basisBits ((m4SetSyntax m4SyntaxCreate 79 .add [35]).1.table 35) = other.code := by
  decide

set_option maxRecDepth 4000 in
/-- `changesyntax(@+, "!")` and then `changesyntax(O+, "!")` on the created table: no byte has
the basis ESCAPE, while the flag still says some byte does. -/
theorem addOther_escape_keeps_macro_escaped :
    (m4SetSyntax (m4SetSyntax m4SyntaxCreate 64 .add [33]).1 79 .add [33]).1.isMacroEscaped =
        true ∧
      ∀ ch : Byte,
        basisBits ((m4SetSyntax (m4SetSyntax m4SyntaxCreate 64 .add [33]).1 79 .add [33]).1.table
          ch) ≠ escape.code := by
  refine ⟨rfl, fun ch escaped => ?_⟩
  rw [m4SetSyntax_of_known _ _ _ (rfl : m4SyntaxCode 79 = some other),
    m4SetSyntax_of_known _ _ _ (rfl : m4SyntaxCode 64 = some escape)] at escaped
  simp only [table_m4QuoteUncache, table_setQuoteAge, table_run] at escaped
  split_ifs at escaped
  · rw [basisBits_addSyntaxAttribute _ (rfl : other.isMask = false)] at escaped
    cases escaped
  · have created : m4SyntaxCreate.table = withDelimiterMasks m4SyntaxOrig :=
      restoreDefaultSyntax_table _
    obtain ⟨c, basis, -, orig⟩ := m4SyntaxOrig_basis ch
    rw [created, withDelimiterMasks,
      basisBits_or_of_inMasks (ite_code_and_not_masks (rfl : ecomm.isMask = true) _),
      basisBits_or_of_inMasks (ite_code_and_not_masks (rfl : rquote.isMask = true) _),
      orig, basisBits_code basis, ← orig] at escaped
    exact m4SyntaxOrig_ne_escape ch escaped

/-! ## The two mask bits

RQUOTE is bit 14 and ECOMM bit 15; an entry is its basis bits and these two bits. -/

section MaskBits

variable {x y : BitVec 16}

@[simp] theorem getLsbD_code_rquote (c : SyntaxCategory) : c.code.getLsbD 14 = (c == rquote) := by
  cases c <;> decide

@[simp] theorem getLsbD_code_ecomm (c : SyntaxCategory) : c.code.getLsbD 15 = (c == ecomm) := by
  cases c <;> decide

@[simp] theorem getLsbD_maskBits_rquote : (maskBits x).getLsbD 14 = x.getLsbD 14 := by
  simp [maskBits, show syntaxMasks.getLsbD 14 = true by decide]

@[simp] theorem getLsbD_maskBits_ecomm : (maskBits x).getLsbD 15 = x.getLsbD 15 := by
  simp [maskBits, show syntaxMasks.getLsbD 15 = true by decide]

theorem entry_ext_bits (basis : basisBits x = basisBits y) (rquote : x.getLsbD 14 = y.getLsbD 14)
    (ecomm : x.getLsbD 15 = y.getLsbD 15) : x = y := by
  have masks : syntaxMasks = BitVec.twoPow 16 14 ||| BitVec.twoPow 16 15 := by decide
  refine entry_ext basis ?_
  ext i
  simp only [maskBits, masks, BitVec.getLsbD_and, BitVec.getLsbD_or, BitVec.getLsbD_twoPow]
  by_cases at14 : (i : Nat) = 14
  · simp [at14, rquote]
  · by_cases at15 : (i : Nat) = 15
    · simp [at15, ecomm]
    · simp [Ne.symm at14, Ne.symm at15]

end MaskBits

/-! ## Resetting every category -/

/-- A run of resets `m4_set_syntax(s, key, NUL, "")`, first key first. -/
def runResets (keys : List Byte) (s : M4SyntaxTable) : M4SyntaxTable :=
  keys.foldl (fun s key => (m4SetSyntax s key .reset []).1) s

/-- How far the resets of the categories `done` have brought the entry `x` of byte `b`, whose
default is `orig`: the basis is the default, or no reset basis category is the default or the
current basis; and a reset mask is on exactly its default byte. -/
structure ResetProgress (done : SyntaxCategory → Prop) (orig : BitVec 16) (b : Byte)
    (x : BitVec 16) : Prop where
  basis : basisBits x = orig ∨
    ∀ c, done c → c.isMask = false → orig ≠ c.code ∧ (c ≠ ignore → basisBits x ≠ c.code)
  rquote : done rquote → x.getLsbD 14 = decide (b = 39)
  ecomm : done ecomm → x.getLsbD 15 = decide (b = 10)

section Progress

variable {done : SyntaxCategory → Prop} {orig : Byte → BitVec 16} {b : Byte} {x : BitVec 16}
  {d : SyntaxCategory}

theorem resetProgress_none : ResetProgress (fun _ => False) (orig b) b x :=
  ⟨.inr fun _ none => none.elim, False.elim, False.elim⟩

theorem ResetProgress.mono {fewer : SyntaxCategory → Prop}
    (progress : ResetProgress done (orig b) b x)
    (sub : ∀ c, fewer c → done c) : ResetProgress fewer (orig b) b x :=
  ⟨progress.basis.imp_right fun rest c reset => rest c (sub c reset),
    fun reset => progress.rquote (sub _ reset), fun reset => progress.ecomm (sub _ reset)⟩

/-- The full reset's entry has made all the progress there is. -/
theorem resetProgress_withDelimiterMasks (default : orig b = d.code) (basis : d.isMask = false) :
    ResetProgress done (orig b) b (withDelimiterMasks orig b) := by
  have notMask : d ≠ rquote ∧ d ≠ ecomm := by constructor <;> rintro rfl <;> cases basis
  refine ⟨.inl ?_, fun _ => ?_, fun _ => ?_⟩
  · rw [withDelimiterMasks,
      basisBits_or_of_inMasks (ite_code_and_not_masks (rfl : ecomm.isMask = true) _),
      basisBits_or_of_inMasks (ite_code_and_not_masks (rfl : rquote.isMask = true) _), default,
      basisBits_code basis]
  · simp [withDelimiterMasks, default, apply_ite (BitVec.getLsbD · 14),
      beq_eq_false_iff_ne.2 notMask.1, show (ecomm == rquote) = false from rfl]
  · simp [withDelimiterMasks, default, apply_ite (BitVec.getLsbD · 15),
      beq_eq_false_iff_ne.2 notMask.2, show (rquote == ecomm) = false from rfl]

/-- A write of a mask bit keeps the basis. -/
theorem basisBits_maskWrite {m : SyntaxCategory} (mask : m.isMask = true) (p : Prop) [Decidable p] :
    basisBits (if p then x ||| m.code else x &&& ~~~m.code) = basisBits x := by
  split
  · exact basisBits_or_of_inMasks (code_and_not_masks mask)
  · exact basisBits_and_not_of_inMasks (code_and_not_masks mask)

/-- The basis part of the progress does not move when a mask is reset. -/
theorem ResetProgress.basis_mask (progress : ResetProgress done (orig b) b x) {m : SyntaxCategory}
    (mask : m.isMask = true) :
    basisBits x = orig b ∨ ∀ c, (done c ∨ c = m) → c.isMask = false →
      orig b ≠ c.code ∧ (c ≠ ignore → basisBits x ≠ c.code) :=
  progress.basis.imp_right fun rest c reset basis =>
    rest c (reset.resolve_right fun same => by simp [same, mask] at basis) basis

/-- Resetting a category moves an entry on by that category. -/
theorem ResetProgress.resetEntry (progress : ResetProgress done (orig b) b x) (wf : EntryWF x)
    (default : orig b = d.code) (basis : d.isMask = false) (c : SyntaxCategory) :
    ResetProgress (fun c' => done c' ∨ c' = c) (orig b) b
      (M4Syntax.resetEntry orig c.code b x) := by
  rw [resetEntry_eq wf default basis]
  by_cases right : c = SyntaxCategory.rquote
  · subst right
    rw [if_pos rfl]
    refine ⟨?_, fun _ => ?_, fun reset => ?_⟩
    · rw [basisBits_maskWrite (rfl : SyntaxCategory.rquote.isMask = true)]
      exact progress.basis_mask rfl
    · split <;> simp [*]
    · split <;> simp [progress.ecomm (reset.resolve_right (by decide))]
  by_cases stop : c = SyntaxCategory.ecomm
  · subst stop
    rw [if_neg (by decide), if_pos rfl]
    refine ⟨?_, fun reset => ?_, fun _ => ?_⟩
    · rw [basisBits_maskWrite (rfl : SyntaxCategory.ecomm.isMask = true)]
      exact progress.basis_mask rfl
    · split <;> simp [progress.rquote (reset.resolve_right (by decide))]
    · split <;> simp [*]
  have notMask : d ≠ SyntaxCategory.rquote ∧ d ≠ SyntaxCategory.ecomm := by
    constructor <;> rintro rfl <;> cases basis
  rw [if_neg right, if_neg stop]
  split
  · refine ⟨.inl ?_, fun reset => ?_, fun reset => ?_⟩
    · rw [default, basisBits_maskBits_or ((code_and_masks d).2 basis)]
    · simp [default, notMask, progress.rquote (reset.resolve_right (Ne.symm right))]
    · simp [default, notMask, progress.ecomm (reset.resolve_right (Ne.symm stop))]
  · rename_i untouched
    refine ⟨progress.basis.imp_right fun rest c' reset basis' => ?_,
      fun reset => progress.rquote (reset.resolve_right (Ne.symm right)),
      fun reset => progress.ecomm (reset.resolve_right (Ne.symm stop))⟩
    rcases reset with reset | rfl
    · exact rest c' reset basis'
    · exact ⟨fun same => untouched (.inl same),
        fun real same => untouched (.inr ⟨same, real⟩)⟩

/-- Once every category has been reset, the entry is the full reset's. -/
theorem ResetProgress.eq_withDelimiterMasks (progress : ResetProgress done (orig b) b x)
    (default : orig b = d.code) (basis : d.isMask = false) (every : ∀ c, done c) :
    x = withDelimiterMasks orig b := by
  have full : ResetProgress done (orig b) b (withDelimiterMasks orig b) :=
    resetProgress_withDelimiterMasks default basis
  have atDefault : basisBits x = orig b :=
    progress.basis.resolve_right fun rest => (rest d (every d) basis).1 default
  exact entry_ext_bits (atDefault.trans (full.basis.resolve_right fun rest =>
      ((rest d (every d) basis).1 default).elim).symm)
    ((progress.rquote (every _)).trans (full.rquote (every _)).symm)
    ((progress.ecomm (every _)).trans (full.ecomm (every _)).symm)

end Progress

/-- One reset call moves every entry on by the category its key names, and by every category
for the key NUL. -/
theorem resetProgress_m4SetSyntax {s : M4SyntaxTable} (inv : SyntaxInv s)
    {done : SyntaxCategory → Prop}
    (progress : ∀ b, ResetProgress done (m4SyntaxOrig b) b (s.table b)) (key b : Byte) :
    ResetProgress (fun c => done c ∨ key = 0 ∨ m4SyntaxCode key = some c) (m4SyntaxOrig b) b
      ((m4SetSyntax s key .reset []).1.table b) := by
  obtain ⟨d, basis, _, default⟩ := m4SyntaxOrig_basis b
  by_cases nul : key = 0
  · simp only [m4SetSyntax, nul, if_true, restoreDefaultSyntax_table, inv.orig]
    exact resetProgress_withDelimiterMasks default basis
  cases known : m4SyntaxCode key with
  | none =>
      simp only [m4SetSyntax, nul, if_false, known]
      exact (progress b).mono fun c => by simp [nul]
  | some c =>
      rw [m4SetSyntax_of_known s [] c known]
      simp only [table_m4QuoteUncache, table_setQuoteAge, table_run, inv.orig]
      exact ((progress b).resetEntry (inv.entries b) default basis c).mono fun c' => by
        simp [nul, eq_comm]

/-- A run of resets moves every entry on by the categories its keys name. -/
theorem resetProgress_runResets {s : M4SyntaxTable} (reachable : Reachable s)
    {done : SyntaxCategory → Prop}
    (progress : ∀ b, ResetProgress done (m4SyntaxOrig b) b (s.table b)) (keys : List Byte)
    (b : Byte) :
    ResetProgress (fun c => done c ∨ ∃ key ∈ keys, key = 0 ∨ m4SyntaxCode key = some c)
      (m4SyntaxOrig b) b ((runResets keys s).table b) := by
  induction keys generalizing s done with
  | nil => exact (progress b).mono fun c => by simp
  | cons key rest ih =>
      have next := resetProgress_m4SetSyntax reachable.syntaxInv progress key
      refine (ih (reachable.step (.setSyntax key .reset [])) next).mono fun c reset => ?_
      rcases reset with earlier | ⟨k, mem, named⟩
      · exact .inl (.inl earlier)
      rcases List.mem_cons.1 mem with rfl | later
      · exact .inl (.inr named)
      · exact .inr ⟨k, later, named⟩

/-- Resetting every category, in any order and with repetitions, from any reachable state,
gives the table the full reset installs: the defaults, with RQUOTE on the apostrophe and ECOMM
on newline. -/
theorem runResets_table {s : M4SyntaxTable} (reachable : Reachable s) (keys : List Byte)
    (every : ∀ c, ∃ key ∈ keys, m4SyntaxCode key = some c) :
    (runResets keys s).table = (m4SetSyntax s 0 .reset []).1.table ∧
      (m4SetSyntax s 0 .reset []).1.table = withDelimiterMasks s.orig := by
  have full : (m4SetSyntax s 0 .reset []).1.table = withDelimiterMasks s.orig :=
    restoreDefaultSyntax_table s
  refine ⟨full ▸ funext fun b => ?_, full⟩
  obtain ⟨d, basis, _, default⟩ := m4SyntaxOrig_basis b
  rw [reachable.syntaxInv.orig]
  have progress := resetProgress_runResets reachable (fun _ => resetProgress_none) keys b
  exact progress.eq_withDelimiterMasks default basis
    fun c => .inr ((every c).imp fun _ found => ⟨found.1, .inr found.2⟩)

/-- One key of `m4_syntax_code` for each of the seventeen categories. -/
def categoryKeys : List Byte := [73, 64, 87, 76, 66, 79, 68, 36, 123, 125, 83, 65, 40, 41, 44, 82, 69]

/-- The seventeen resets from the created table. -/
theorem runResets_table_categoryKeys :
    Reachable m4SyntaxCreate ∧ (∀ c, ∃ key ∈ categoryKeys, m4SyntaxCode key = some c) ∧
      ((runResets categoryKeys m4SyntaxCreate).table =
          (m4SetSyntax m4SyntaxCreate 0 .reset []).1.table ∧
        (m4SetSyntax m4SyntaxCreate 0 .reset []).1.table = withDelimiterMasks m4SyntaxCreate.orig) :=
  have every : ∀ c, ∃ key ∈ categoryKeys, m4SyntaxCode key = some c := by
    intro c
    cases c <;> decide
  ⟨.create, every, runResets_table .create categoryKeys every⟩

end M4Syntax
