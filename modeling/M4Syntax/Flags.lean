import M4Syntax.Escape
import M4Syntax.Fixed
import M4Syntax.Safety
import M4Syntax.SingleCheck

/-!
# Which calls keep the flags truthful

The tokenizer trusts three flags. `is_macro_escaped` is truthful when it says exactly whether
some byte has the basis ESCAPE (`EscapeExact`). `is_single_quotes` and `is_single_comments` are
truthful when, set, their stored bytes carry the start basis and the end mask (`SingleSound`):
the flag a single check keeps as it is.

Some calls make a flag untruthful: `+` of OTHER over the backquote, the hash or the only escape
(`addOther_backquote_keeps_single_quotes`, `addOther_hash_keeps_single_comments`,
`addOther_escape_keeps_macro_escaped`). These are the only kind. A call can take a byte out of a
basis only by `+` of another basis (`SyntaxOp.addsBasisOtherThan`), or, for the begin-comment
byte, by `changequote`, whose blocking bases leave out BCOMM (`SyntaxOp.takesStart`). Every
other call keeps the flag truthful (`EscapeExact.apply`, `SingleSound.apply`), so a run of such
calls from a reachable state with a truthful flag ends with a truthful flag
(`runOps_escape_flag_exact`, `runOps_single_flag_sound`, both by `Reachable.runOps_keeps`).
`-` is such a call for every category: its checks run exactly when it touches a role.

The checks repair the flags. After the full reset, and after `=` or the reset verb of a known
key, all three flags are truthful in every reachable state, whatever they were before
(`repair_calls_make_flags_truthful`).
-/

set_option autoImplicit false

namespace M4Syntax

open SyntaxCategory

/-! ## What the flags promise -/

/-- `is_macro_escaped` says exactly whether some byte has the basis ESCAPE. -/
def EscapeExact (s : M4SyntaxTable) : Prop :=
  s.isMacroEscaped = true ↔ ∃ b, basisBits (s.table b) = escape.code

/-- A set single flag of the family `d` stands over stored bytes that carry the start basis and
the end mask. -/
def SingleSound (d : Delim) (s : M4SyntaxTable) : Prop :=
  s.isSingle d = true →
    m4HasSyntax (s.table (firstByte (s.pair d).str1)) d.start.code = true ∧
      m4HasSyntax (s.table (firstByte (s.pair d).str2)) d.stop.code = true

/-- The three flags the tokenizer reads, all truthful. -/
structure FlagsTruthful (s : M4SyntaxTable) : Prop where
  escapes : EscapeExact s
  quotes : SingleSound .quote s
  comments : SingleSound .comm s

/-- `+` of a basis category other than `keep`: the calls whose writes can take a byte out of
the basis `keep`. -/
def SyntaxOp.addsBasisOtherThan (keep : SyntaxCategory) : SyntaxOp → Bool
  | .setSyntax key .add _ => (m4SyntaxCode key).any fun c => !c.isMask && c != keep
  | _ => false

/-- The calls that can leave the single flag of `d` over a start byte without the start basis:
`+` of another basis, and for comments `changequote`, whose blocking bases leave out BCOMM. -/
def SyntaxOp.takesStart (d : Delim) : SyntaxOp → Bool
  | .setQuotes _ _ => d == .comm
  | op => op.addsBasisOtherThan d.start

/-- The calls that recompute all three flags from the table: the full reset, and `=` and the
reset verb of a known key. -/
def SyntaxOp.repairsFlags : SyntaxOp → Bool
  | .setSyntax key action _ =>
      key == 0 || ((m4SyntaxCode key).isSome && (action == .set || action == .reset))
  | _ => false

/-- A set single flag of the family `d` comes with one-byte stored strings, as the assertions of
the single checks require. -/
def OneByte (d : Delim) (s : M4SyntaxTable) : Prop :=
  s.isSingle d = true → strlen (s.pair d).str1 = 1 ∧ strlen (s.pair d).str2 = 1

theorem SyntaxOp.harmless_of_addsBasisOtherThan {key : Byte} {chars : List Byte}
    {c keep : SyntaxCategory} (known : m4SyntaxCode key = some c)
    (keeps : (SyntaxOp.setSyntax key .add chars).addsBasisOtherThan keep = false) :
    c.isMask = true ∨ c = keep := by
  simpa [SyntaxOp.addsBasisOtherThan, known, or_iff_not_imp_left] using keeps

theorem SyntaxInv.oneByte {s : M4SyntaxTable} (inv : SyntaxInv s) (d : Delim) : OneByte d s :=
  fun set => by
    rw [← (inv.pairs d).len_eq_strlen.1, ← (inv.pairs d).len_eq_strlen.2]
    exact inv.single d set

theorem SyntaxInv.orig_basis {s : M4SyntaxTable} (inv : SyntaxInv s) (b : Byte) :
    ∃ o : SyntaxCategory, s.orig b = o.code ∧ o.isMask = false := by
  obtain ⟨o, basis, -, default⟩ := m4SyntaxOrig_basis b
  exact ⟨o, inv.orig ▸ default, basis⟩

theorem OneByte.of_frame {d : Delim} {s t : M4SyntaxTable} (oneByte : OneByte d s)
    (pair : t.pair d = s.pair d) (flag : t.isSingle d = s.isSingle d) : OneByte d t :=
  fun set => by
    rw [pair]
    exact oneByte (flag ▸ set)

/-! ## Roles under one write -/

section Entries

variable {x : BitVec 16} {c k m : SyntaxCategory}

theorem firstByte_mem_cstr {chars : List Byte} (nonzero : firstByte chars ≠ 0) :
    firstByte chars ∈ cstr chars := by
  rw [← firstByte_cstr]
  obtain ⟨a, rest, split⟩ := List.exists_cons_of_ne_nil ((cstr_ne_nil_iff chars).2 nonzero)
  rw [split]
  exact List.mem_cons_self a rest

/-- `+` of a basis other than IGNORE makes its byte a holder. -/
theorem m4HasSyntax_addSyntaxAttribute_self (basis : c.isMask = false) (real : c ≠ ignore) :
    m4HasSyntax (addSyntaxAttribute x c.code) c.code = true := by
  rw [addSyntaxAttribute_basis x basis, m4HasSyntax_or_entry, m4HasSyntax_code_code]
  simp [real]

/-- `+` of a mask, or of the basis `k` itself, keeps a holder of the basis `k`. -/
theorem m4HasSyntax_add_basis (basis : k.isMask = false) (holds : m4HasSyntax x k.code = true)
    (harmless : c.isMask = true ∨ c = k) :
    m4HasSyntax (addSyntaxAttribute x c.code) k.code = true := by
  rcases harmless with mask | rfl
  · rw [addSyntaxAttribute_mask x mask, m4HasSyntax_or_entry, holds, Bool.true_or]
  · refine m4HasSyntax_addSyntaxAttribute_self basis fun ignored => ?_
    subst ignored
    simp [m4HasSyntax, SyntaxCategory.code] at holds

/-- No write of `+` takes a mask away. -/
theorem m4HasSyntax_add_mask (mask : m.isMask = true) (holds : m4HasSyntax x m.code = true) :
    m4HasSyntax (addSyntaxAttribute x c.code) m.code = true := by
  cases added : c.isMask
  · rwa [m4HasSyntax_addSyntaxAttribute_basis added mask]
  · rw [addSyntaxAttribute_mask x added, m4HasSyntax_or_entry, holds, Bool.true_or]

/-- `-` of another category keeps a holder of the basis `k`. -/
theorem m4HasSyntax_subtract_basis (wf : EntryWF x) (basis : k.isMask = false)
    (holds : m4HasSyntax x k.code = true) (notK : c ≠ k) :
    m4HasSyntax (subtractEntry c.code x) k.code = true := by
  unfold subtractEntry
  split
  · simp [m4HasSyntax_removeSyntaxAttribute, Ne.symm notK, holds]
  · split
    · rename_i unmasked held
      rw [m4HasSyntax_code_of_entryWF wf ((code_and_masks c).1 (by simpa using unmasked))] at held
      rw [m4HasSyntax_code_of_entryWF wf basis] at holds
      simp only [Bool.and_eq_true, beq_iff_eq] at held holds
      exact absurd (code_inj.1 (held.1.symm.trans holds.1)) notK
    · exact holds

/-- `-` of another category keeps the mask `m`. -/
theorem m4HasSyntax_subtract_mask (mask : m.isMask = true) (holds : m4HasSyntax x m.code = true)
    (notM : c ≠ m) : m4HasSyntax (subtractEntry c.code x) m.code = true := by
  unfold subtractEntry
  split
  · simp [m4HasSyntax_removeSyntaxAttribute, Ne.symm notM, holds]
  · split
    · rwa [m4HasSyntax_addSyntaxAttribute_basis (c := other) rfl mask]
    · exact holds

end Entries

/-! ## The verbs on the stored delimiters -/

section Verbs

variable (s : M4SyntaxTable) (chars : List Byte) (code : BitVec 16) (d : Delim)

@[simp] theorem pair_addSyntaxSet : (addSyntaxSet s chars code).pair d = s.pair d := by
  unfold addSyntaxSet
  split
  · rfl
  · dsimp only
    split <;> cases d <;> rfl

@[simp] theorem isSingle_addSyntaxSet : (addSyntaxSet s chars code).isSingle d = s.isSingle d := by
  unfold addSyntaxSet
  split
  · rfl
  · dsimp only
    split <;> cases d <;> rfl

/-- `-` of a role of the family `d` ends with the check of `d`. -/
theorem subtractCheck_of_role {c : SyntaxCategory} (role : c = d.start ∨ c = d.stop) :
    subtractCheck c.code s = (checkIsSingle d s).1 := by
  have notEscape : c.code ≠ escape.code := by rcases role with rfl | rfl <;> cases d <;> decide
  have quoted : (c.code = lquote.code || c.code = rquote.code) = (d == .quote) := by
    rcases role with rfl | rfl <;> cases d <;> decide
  have commented : (c.code = bcomm.code || c.code = ecomm.code) = (d == .comm) := by
    rcases role with rfl | rfl <;> cases d <;> decide
  rw [subtractCheck, if_neg notEscape, quoted, commented]
  cases d
  · exact checkIsSingle_under_flag s .quote
  · exact checkIsSingle_under_flag s .comm

end Verbs

/-! ## The escape flag -/

/-- A set `is_macro_escaped` stands over some byte that passes its bit test. -/
def EscapeSeen (s : M4SyntaxTable) : Prop :=
  s.isMacroEscaped = true → ∃ b, m4HasSyntax (s.table b) escape.code = true

namespace EscapeSeen

variable {s t : M4SyntaxTable}

theorem of_exact (exact : EscapeExact s) : EscapeSeen s := fun set =>
  let ⟨b, escaped⟩ := exact.1 set
  ⟨b, m4HasSyntax_escape_of_basisBits escaped⟩

/-- In a reachable state the flag never misses an escape, so a flag that is seen is exact. -/
theorem exact (seen : EscapeSeen s) (reachable : Reachable s) : EscapeExact s := by
  have sound := Reachable.invariant (P := EscapeSound) (.restoreDefaultSyntax rfl)
    (fun op reachable sound => sound.apply reachable.syntaxInv op) reachable
  refine ⟨fun set => ?_, fun ⟨b, escaped⟩ => sound b escaped⟩
  obtain ⟨b, escaped⟩ := seen set
  rw [m4HasSyntax_code_of_entryWF (reachable.syntaxInv.entries b) (c := escape) rfl] at escaped
  exact ⟨b, by simpa using escaped⟩

theorem of_table (seen : EscapeSeen s) (flag : t.isMacroEscaped = s.isMacroEscaped)
    (kept : ∀ b, m4HasSyntax (s.table b) escape.code = true →
      m4HasSyntax (t.table b) escape.code = true) : EscapeSeen t := fun set =>
  let ⟨b, escaped⟩ := seen (flag ▸ set)
  ⟨b, kept b escaped⟩

/-- `check_is_macro_escaped` sets the flag only over an escape. -/
theorem checkIsMacroEscaped (s : M4SyntaxTable) : EscapeSeen (M4Syntax.checkIsMacroEscaped s).1 :=
  (checkIsMacroEscaped_flag s).1

theorem recheckMacroEscaped (s : M4SyntaxTable) : EscapeSeen (M4Syntax.recheckMacroEscaped s) := by
  rw [M4Syntax.recheckMacroEscaped]
  split
  · exact checkIsMacroEscaped s
  · exact fun set => absurd set ‹_›

theorem checkIsSingle (seen : EscapeSeen s) (d : Delim) :
    EscapeSeen (M4Syntax.checkIsSingle d s).1 :=
  seen.of_table (isMacroEscaped_checkIsSingle d s) fun _ escaped => by rwa [table_checkIsSingle]

theorem checkAll (s : M4SyntaxTable) : EscapeSeen (M4Syntax.checkAll s) :=
  ((checkIsMacroEscaped s).checkIsSingle .quote).checkIsSingle .comm

theorem restoreDefaultSyntax (s : M4SyntaxTable) : EscapeSeen (M4Syntax.restoreDefaultSyntax s) :=
  fun set => absurd set Bool.false_ne_true

theorem setQuoteAge (seen : EscapeSeen s) (reset change : Bool) :
    EscapeSeen (M4Syntax.setQuoteAge s reset change) :=
  seen

theorem m4QuoteUncache (seen : EscapeSeen s) : EscapeSeen (M4Syntax.m4QuoteUncache s) :=
  seen

theorem addSyntaxSet (seen : EscapeSeen s) (chars : List Byte) {c : SyntaxCategory}
    (harmless : c.isMask = true ∨ c = escape) :
    EscapeSeen (M4Syntax.addSyntaxSet s chars c.code) := by
  by_cases empty : firstByte chars = 0
  · rwa [M4Syntax.addSyntaxSet, if_pos empty]
  rcases harmless with mask | rfl
  · have notEscape : c ≠ escape := by
      rintro rfl
      exact absurd mask Bool.false_ne_true
    refine seen.of_table ?_ fun b escaped => ?_
    · rw [M4Syntax.addSyntaxSet, if_neg empty]
      dsimp only
      rw [if_neg (mt code_inj.1 notEscape)]
      rfl
    · rw [table_addSyntaxSet]
      split
      · exact m4HasSyntax_add_basis rfl escaped (.inl mask)
      · exact escaped
  · refine fun _ => ⟨firstByte chars, ?_⟩
    rw [table_addSyntaxSet, if_pos (firstByte_mem_cstr empty)]
    exact m4HasSyntax_addSyntaxAttribute_self rfl (by decide)

theorem subtractCheck (seen : EscapeSeen s) (code : BitVec 16) :
    EscapeSeen (M4Syntax.subtractCheck code s) := by
  simp only [M4Syntax.subtractCheck, apply_ite EscapeSeen, seen, checkIsMacroEscaped,
    checkIsSingleQuotes, checkIsSingleComments, seen.checkIsSingle, ite_self]

/-- `-` keeps the flag seen for every category: it rechecks a set flag when it takes escapes
away, and takes none away otherwise. -/
theorem subtractSyntaxSet (seen : EscapeSeen s) (inv : SyntaxInv s) (chars : List Byte)
    (c : SyntaxCategory) : EscapeSeen (M4Syntax.subtractSyntaxSet s chars c.code) := by
  rw [subtractSyntaxSet_eq]
  by_cases empty : firstByte chars = 0
  · rwa [if_pos empty]
  rw [if_neg empty]
  by_cases escaped : c = escape
  · subst escaped
    rw [M4Syntax.subtractCheck, if_pos rfl, ← M4Syntax.recheckMacroEscaped]
    exact recheckMacroEscaped _
  · have swept : EscapeSeen (s.setTable (forEachChar chars (subtractEntry c.code) s.table)) :=
      seen.of_table rfl fun b held => by
        rw [M4SyntaxTable.table_setTable, forEachChar_apply (subtractEntry_idem · c)]
        split
        · exact m4HasSyntax_subtract_basis (inv.entries b) rfl held escaped
        · exact held
    exact swept.subtractCheck _

theorem m4SetSyntax (seen : EscapeSeen s) (inv : SyntaxInv s) (key : Byte)
    (action : SyntaxAction) (chars : List Byte)
    (keeps : (SyntaxOp.setSyntax key action chars).addsBasisOtherThan escape = false) :
    EscapeSeen (M4Syntax.m4SetSyntax s key action chars).1 := by
  unfold M4Syntax.m4SetSyntax
  split
  · exact restoreDefaultSyntax s
  split
  · exact seen
  rename_i c known
  refine ((?_ : EscapeSeen (action.run s chars c.code)).setQuoteAge false true).m4QuoteUncache
  cases action
  · exact seen.addSyntaxSet chars (SyntaxOp.harmless_of_addsBasisOtherThan known keeps)
  · exact seen.subtractSyntaxSet inv chars c
  · exact checkAll _
  · exact checkAll _

/-- An installer rechecks a set flag, and leaves a clear one clear. -/
theorem setDelimiters (seen : EscapeSeen s) (d : Delim) (blocking : BitVec 16)
    (left right : List Byte) : EscapeSeen (M4Syntax.setDelimiters d blocking s left right) := by
  by_cases same : sameDelimiters d s left right
  · rwa [setDelimiters_of_same _ _ _ _ _ same]
  rw [M4Syntax.setDelimiters, if_neg same]
  exact (recheckMacroEscaped _).setQuoteAge false false

theorem apply (seen : EscapeSeen s) (inv : SyntaxInv s) :
    ∀ op : SyntaxOp, op.addsBasisOtherThan escape = false → EscapeSeen (op.apply s)
  | .setSyntax key action chars, keeps => seen.m4SetSyntax inv key action chars keeps
  | .setQuotes _ _, _ => seen.setDelimiters .quote quoteBlocking _ _
  | .setComment _ _, _ => seen.setDelimiters .comm commentBlocking _ _

end EscapeSeen

/-- A call that is not `+` of a basis other than ESCAPE keeps an exact escape flag exact. -/
theorem EscapeExact.apply {s : M4SyntaxTable} (exact : EscapeExact s) (reachable : Reachable s)
    (op : SyntaxOp) (keeps : op.addsBasisOtherThan escape = false) : EscapeExact (op.apply s) :=
  ((EscapeSeen.of_exact exact).apply reachable.syntaxInv op keeps).exact (reachable.step op)

/-! ## The single flags -/

namespace SingleSound

variable {d : Delim} {s t : M4SyntaxTable}

theorem of_table (sound : SingleSound d s) (pair : t.pair d = s.pair d)
    (flag : t.isSingle d = s.isSingle d)
    (start : ∀ b, m4HasSyntax (s.table b) d.start.code = true →
      m4HasSyntax (t.table b) d.start.code = true)
    (stop : ∀ b, m4HasSyntax (s.table b) d.stop.code = true →
      m4HasSyntax (t.table b) d.stop.code = true) : SingleSound d t := fun set => by
  rw [pair]
  obtain ⟨started, stopped⟩ := sound (flag ▸ set)
  exact ⟨start _ started, stop _ stopped⟩

theorem of_frame (sound : SingleSound d s) (table : t.table = s.table)
    (pair : t.pair d = s.pair d) (flag : t.isSingle d = s.isSingle d) : SingleSound d t :=
  sound.of_table pair flag (fun _ held => by rwa [table]) fun _ held => by rwa [table]

/-- Whatever it finds, the check of the family `d` leaves its flag truthful: it keeps a flag
whose bytes still carry their roles, moves it to the only bearers, or clears it. -/
theorem checkIsSingle_self (oneByte : OneByte d s) :
    SingleSound d (M4Syntax.checkIsSingle d s).1 := by
  intro stillSet
  have set := (checkIsSingle_stores d s).1 stillSet
  rw [table_checkIsSingle]
  by_cases kept : m4HasSyntax (s.table (firstByte (s.pair d).str1)) d.start.code = true ∧
      m4HasSyntax (s.table (firstByte (s.pair d).str2)) d.stop.code = true
  · rw [checkIsSingle_of_kept d s set kept.1 kept.2]
    exact kept
  by_cases unique : (∃ a, OnlyBearer s.table d.start.code a) ∧
      ∃ b, OnlyBearer s.table d.stop.code b
  · obtain ⟨⟨a, onlyA⟩, b, onlyB⟩ := unique
    rw [(checkIsSingle_of_lost d s set kept).1 a b onlyA onlyB]
    simp only [M4SyntaxTable.pair_setPair, ↓reduceIte, firstByte_setFirstByte (oneByte set).1,
      firstByte_setFirstByte (oneByte set).2]
    exact ⟨onlyA.1, onlyB.1⟩
  · rw [(checkIsSingle_of_lost d s set kept).2 unique] at stillSet
    simp at stillSet

theorem checkIsSingle_of_ne (sound : SingleSound d s) {e : Delim} (differ : d ≠ e) :
    SingleSound d (M4Syntax.checkIsSingle e s).1 :=
  sound.of_frame (table_checkIsSingle e s) (pair_checkIsSingle_of_ne e d s differ)
    (isSingle_checkIsSingle_of_ne e d s differ)

theorem checkIsSingle (sound : SingleSound d s) (oneByte : OneByte d s) (e : Delim) :
    SingleSound d (M4Syntax.checkIsSingle e s).1 := by
  by_cases same : d = e
  · subst same
    exact checkIsSingle_self oneByte
  · exact sound.checkIsSingle_of_ne same

theorem checkIsMacroEscaped (sound : SingleSound d s) :
    SingleSound d (M4Syntax.checkIsMacroEscaped s).1 :=
  sound.of_frame rfl (pair_checkIsMacroEscaped d s) (isSingle_checkIsMacroEscaped d s)

/-- The three checks of `=` and the reset leave both single flags truthful. -/
theorem checkAll (oneByte : OneByte d s) : SingleSound d (M4Syntax.checkAll s) := by
  have escaped : OneByte d (M4Syntax.checkIsMacroEscaped s).1 :=
    oneByte.of_frame (pair_checkIsMacroEscaped d s) (isSingle_checkIsMacroEscaped d s)
  cases d
  · exact (checkIsSingle_self escaped).checkIsSingle_of_ne (by decide)
  · exact checkIsSingle_self (escaped.of_frame (pair_checkIsSingle_of_ne _ _ _ (by decide))
      (isSingle_checkIsSingle_of_ne _ _ _ (by decide)))

theorem restoreDefaultSyntax (origEq : s.orig = m4SyntaxOrig) (d : Delim) :
    SingleSound d (M4Syntax.restoreDefaultSyntax s) := fun _ => by
  have quote : (M4Syntax.restoreDefaultSyntax s).quote = ⟨defLquote, 1, defRquote, 1⟩ := rfl
  have comm : (M4Syntax.restoreDefaultSyntax s).comm = ⟨defBcomm, 1, defEcomm, 1⟩ := rfl
  rw [restoreDefaultSyntax_table, origEq]
  cases d <;> simp only [M4SyntaxTable.pair, quote, comm] <;> decide

theorem addSyntaxSet (sound : SingleSound d s) (chars : List Byte) {c : SyntaxCategory}
    (harmless : c.isMask = true ∨ c = d.start) :
    SingleSound d (M4Syntax.addSyntaxSet s chars c.code) := by
  refine sound.of_table (pair_addSyntaxSet s chars c.code d)
    (isSingle_addSyntaxSet s chars c.code d) (fun b held => ?_) fun b held => ?_ <;>
    rw [table_addSyntaxSet] <;> split
  · exact m4HasSyntax_add_basis (Delim.start_isMask d) held harmless
  · exact held
  · exact m4HasSyntax_add_mask (Delim.stop_isMask d) held
  · exact held

theorem setQuoteAge (sound : SingleSound d s) (reset change : Bool) :
    SingleSound d (M4Syntax.setQuoteAge s reset change) :=
  sound.of_frame rfl (pair_setQuoteAge d s reset change) (isSingle_setQuoteAge d s reset change)

theorem m4QuoteUncache (sound : SingleSound d s) : SingleSound d (M4Syntax.m4QuoteUncache s) :=
  sound.of_frame rfl (pair_m4QuoteUncache s d) (isSingle_m4QuoteUncache s d)

theorem subtractCheck (sound : SingleSound d s) (oneByte : OneByte d s) (code : BitVec 16) :
    SingleSound d (M4Syntax.subtractCheck code s) := by
  simp only [M4Syntax.subtractCheck, apply_ite (SingleSound d), sound, sound.checkIsMacroEscaped,
    checkIsSingleQuotes, checkIsSingleComments, sound.checkIsSingle oneByte, ite_self]

/-- `-` keeps the flag truthful for every category: it runs the check of the family exactly when
it takes a role of the family away, and keeps the roles otherwise. -/
theorem subtractSyntaxSet (sound : SingleSound d s) (inv : SyntaxInv s) (chars : List Byte)
    (c : SyntaxCategory) : SingleSound d (M4Syntax.subtractSyntaxSet s chars c.code) := by
  rw [subtractSyntaxSet_eq]
  by_cases empty : firstByte chars = 0
  · rwa [if_pos empty]
  rw [if_neg empty]
  have oneByte : OneByte d (s.setTable (forEachChar chars (subtractEntry c.code) s.table)) :=
    (inv.oneByte d).of_frame (M4SyntaxTable.pair_setTable ..) (M4SyntaxTable.isSingle_setTable ..)
  by_cases role : c = d.start ∨ c = d.stop
  · rw [subtractCheck_of_role _ d role]
    exact checkIsSingle_self oneByte
  rw [not_or] at role
  refine SingleSound.subtractCheck ?_ oneByte _
  refine sound.of_table (M4SyntaxTable.pair_setTable ..) (M4SyntaxTable.isSingle_setTable ..)
    (fun b held => ?_) fun b held => ?_ <;>
    rw [M4SyntaxTable.table_setTable, forEachChar_apply (subtractEntry_idem · c)] <;> split
  · exact m4HasSyntax_subtract_basis (inv.entries b) (Delim.start_isMask d) held role.1
  · exact held
  · exact m4HasSyntax_subtract_mask (Delim.stop_isMask d) held role.2
  · exact held

theorem m4SetSyntax (sound : SingleSound d s) (inv : SyntaxInv s) (key : Byte)
    (action : SyntaxAction) (chars : List Byte)
    (keeps : (SyntaxOp.setSyntax key action chars).takesStart d = false) :
    SingleSound d (M4Syntax.m4SetSyntax s key action chars).1 := by
  unfold M4Syntax.m4SetSyntax
  split
  · exact restoreDefaultSyntax inv.orig d
  split
  · exact sound
  rename_i c known
  refine ((?_ : SingleSound d (action.run s chars c.code)).setQuoteAge false true).m4QuoteUncache
  have oneByte : ∀ T, OneByte d (s.setTable T) := fun _ =>
    (inv.oneByte d).of_frame (M4SyntaxTable.pair_setTable ..) (M4SyntaxTable.isSingle_setTable ..)
  cases action
  · have adds : (SyntaxOp.setSyntax key .add chars).addsBasisOtherThan d.start = false := keeps
    exact sound.addSyntaxSet chars (SyntaxOp.harmless_of_addsBasisOtherThan known adds)
  · exact sound.subtractSyntaxSet inv chars c
  · exact checkAll (oneByte _)
  · exact checkAll (oneByte _)

/-- An installer leaves its own flag truthful: a set flag comes with the start basis and the end
mask it has just installed. -/
theorem setDelimiters_self (sound : SingleSound d s) (inv : SyntaxInv s) (blocking : BitVec 16)
    (left right : List Byte) : SingleSound d (M4Syntax.setDelimiters d blocking s left right) := by
  by_cases same : sameDelimiters d s left right
  · rwa [setDelimiters_of_same _ _ _ _ _ same]
  intro set
  rw [setDelimiters_isSingle same, if_pos rfl] at set
  rw [setDelimiters_pair same, if_pos rfl, setDelimiters_table same, setDelimiters_table same]
  simp only [storedPair, firstByte_cstr]
  obtain ⟨o, default, basis⟩ := inv.orig_basis (firstByte right)
  refine ⟨?_, ?_⟩
  · rw [m4HasSyntax_basis ((code_and_masks d.start).2 (Delim.start_isMask d)),
      basisBits_installedEntry rfl inv.orig, if_pos ⟨set, rfl⟩, m4HasSyntax_code_code]
    simp
  · rw [m4HasSyntax_installedEntry default basis rfl rfl (Delim.stop_isMask d), if_pos rfl]
    simp [set]

/-- An installer of the other family keeps a truthful flag unless it installs its start basis on
the stored start byte. -/
theorem setDelimiters_other {e : Delim} (sound : SingleSound e s) (inv : SyntaxInv s)
    (differ : e ≠ d) (blocking : BitVec 16) (left right : List Byte)
    (spared : s.isSingle e = true →
      ¬(installsSingle blocking s left right = true ∧ firstByte (s.pair e).str1 = firstByte left)) :
    SingleSound e (M4Syntax.setDelimiters d blocking s left right) := by
  by_cases same : sameDelimiters d s left right
  · rwa [setDelimiters_of_same _ _ _ _ _ same]
  intro set
  rw [setDelimiters_isSingle same, if_neg differ] at set
  obtain ⟨started, stopped⟩ := sound set
  rw [setDelimiters_pair same, if_neg differ, setDelimiters_table same, setDelimiters_table same]
  have roles : e.start ≠ d.start ∧ e.stop ≠ d.stop := by
    cases e <;> cases d <;> first | exact absurd rfl differ | decide
  refine ⟨?_, ?_⟩
  · obtain ⟨o, default, basis⟩ := inv.orig_basis (firstByte (s.pair e).str1)
    have disjoint := (code_and_masks e.start).2 (Delim.start_isMask e)
    have held : basisBits (s.table (firstByte (s.pair e).str1)) = e.start.code := by
      rw [m4HasSyntax_code_of_entryWF (inv.entries _) (Delim.start_isMask e)] at started
      simpa using started
    rw [m4HasSyntax_basis disjoint, basisBits_installedEntry rfl rfl, if_neg (spared set),
      basisBits_clearDelimEntry default basis (inv.entries _), held,
      if_neg (mt code_inj.1 roles.1), m4HasSyntax_code_code]
    simp
  · obtain ⟨o, default, basis⟩ := inv.orig_basis (firstByte (s.pair e).str2)
    rw [m4HasSyntax_installedEntry default basis rfl rfl (Delim.stop_isMask e), if_neg roles.2]
    exact stopped

/-- LQUOTE blocks the comment installer, so it never installs over the stored left quote. -/
theorem commentBlocking_spares_quote (sound : SingleSound .quote s) (inv : SyntaxInv s)
    (left right : List Byte) (set : s.isSingle .quote = true) :
    ¬(installsSingle commentBlocking s left right = true ∧
      firstByte (s.pair .quote).str1 = firstByte left) := by
  rintro ⟨installs, here⟩
  have quoted : m4HasSyntax (s.table (firstByte (s.pair .quote).str1)) lquote.code = true :=
    (sound set).1
  rw [m4HasSyntax_code_of_entryWF (inv.entries _) (c := lquote) rfl] at quoted
  have blocked : m4HasSyntax (s.table (firstByte left)) commentBlocking = true := by
    rw [← here, m4HasSyntax_commentBlocking (inv.entries _)]
    exact ⟨lquote, by simp, by simpa using quoted⟩
  simp [installsSingle, storedPair, firstByte_cstr, blocked] at installs

theorem apply (sound : SingleSound d s) (inv : SyntaxInv s) :
    ∀ op : SyntaxOp, op.takesStart d = false → SingleSound d (op.apply s)
  | .setSyntax key action chars, keeps => sound.m4SetSyntax inv key action chars keeps
  | .setQuotes _ _, keeps => by
      cases d
      · exact sound.setDelimiters_self inv quoteBlocking _ _
      · simp [SyntaxOp.takesStart] at keeps
  | .setComment _ _, _ => by
      cases d
      · exact sound.setDelimiters_other inv (by decide) commentBlocking _ _
          (commentBlocking_spares_quote sound inv _ _)
      · exact sound.setDelimiters_self inv commentBlocking _ _

end SingleSound

/-! ## The calls that repair the flags -/

namespace FlagsTruthful

variable {s : M4SyntaxTable}

/-- The full reset installs the default table, whose delimiters carry their roles and which has
no escape, and clears the escape flag. -/
theorem restoreDefaultSyntax (origEq : s.orig = m4SyntaxOrig) :
    FlagsTruthful (M4Syntax.restoreDefaultSyntax s) where
  escapes := ⟨fun set => absurd set Bool.false_ne_true, fun ⟨b, escaped⟩ => absurd escaped (by
    rw [restoreDefaultSyntax_table, origEq]
    exact basisBits_withDelimiterMasks_ne_escape b)⟩
  quotes := SingleSound.restoreDefaultSyntax origEq .quote
  comments := SingleSound.restoreDefaultSyntax origEq .comm

theorem create : FlagsTruthful m4SyntaxCreate :=
  restoreDefaultSyntax rfl

/-- `=` and the reset verb end with all three checks, which compute the escape flag from the
table and leave each single flag truthful. -/
theorem m4SetSyntax (reachable : Reachable s) {key : Byte} {action : SyntaxAction}
    (chars : List Byte) (known : (m4SyntaxCode key).isSome = true)
    (verb : action = .set ∨ action = .reset) :
    FlagsTruthful (M4Syntax.m4SetSyntax s key action chars).1 := by
  have inv := reachable.syntaxInv
  have after : Reachable (M4Syntax.m4SetSyntax s key action chars).1 :=
    reachable.step (.setSyntax key action chars)
  obtain ⟨c, known⟩ := Option.isSome_iff_exists.1 known
  obtain ⟨T, checked⟩ : ∃ T, action.run s chars c.code = M4Syntax.checkAll (s.setTable T) := by
    rcases verb with rfl | rfl
    · exact ⟨_, setSyntaxSet_eq s chars c.code⟩
    · exact ⟨_, resetSyntaxSet_eq s c.code⟩
  have oneByte : ∀ d, OneByte d (s.setTable T) := fun d =>
    (inv.oneByte d).of_frame (M4SyntaxTable.pair_setTable ..) (M4SyntaxTable.isSingle_setTable ..)
  rw [m4SetSyntax_of_known s chars c known, checked] at after ⊢
  exact ⟨(((EscapeSeen.checkAll _).setQuoteAge false true).m4QuoteUncache).exact after,
    ((SingleSound.checkAll (oneByte .quote)).setQuoteAge false true).m4QuoteUncache,
    ((SingleSound.checkAll (oneByte .comm)).setQuoteAge false true).m4QuoteUncache⟩

end FlagsTruthful

/-! ## Runs -/

/-- From every reachable state whose escape flag is exact, a run of calls none of which is `+`
of a basis other than ESCAPE leaves the flag exact. -/
theorem runOps_escape_flag_exact {s : M4SyntaxTable} (reachable : Reachable s)
    (exact : EscapeExact s) (ops : List SyntaxOp)
    (keeps : ∀ op ∈ ops, op.addsBasisOtherThan escape = false) : EscapeExact (runOps ops s) :=
  reachable.runOps_keeps (fun op reachable (exact : EscapeExact _) keeps =>
    exact.apply reachable op keeps) exact ops keeps

/-- `changesyntax(@+, "!")`, `changesyntax(@-, "!")` and `changequote([, ])` on the created
table. -/
theorem runOps_escape_flag_exact_bang :
    Reachable m4SyntaxCreate ∧ EscapeExact m4SyntaxCreate ∧
      (∀ op ∈ [SyntaxOp.setSyntax 64 .add [33], .setSyntax 64 .subtract [33],
        .setQuotes (some [91]) (some [93])], op.addsBasisOtherThan escape = false) ∧
      EscapeExact (runOps [SyntaxOp.setSyntax 64 .add [33], .setSyntax 64 .subtract [33],
        .setQuotes (some [91]) (some [93])] m4SyntaxCreate) :=
  have keeps : ∀ op ∈ [SyntaxOp.setSyntax 64 .add [33], .setSyntax 64 .subtract [33],
      .setQuotes (some [91]) (some [93])], op.addsBasisOtherThan escape = false := by decide
  ⟨.create, FlagsTruthful.create.escapes, keeps,
    runOps_escape_flag_exact .create FlagsTruthful.create.escapes _ keeps⟩

/-- From every reachable state whose single flag of the family `d` is truthful, a run of calls
none of which takes the start byte of `d` leaves it truthful. -/
theorem runOps_single_flag_sound {s : M4SyntaxTable} (reachable : Reachable s) (d : Delim)
    (sound : SingleSound d s) (ops : List SyntaxOp)
    (keeps : ∀ op ∈ ops, op.takesStart d = false) : SingleSound d (runOps ops s) :=
  reachable.runOps_keeps (fun op reachable (sound : SingleSound d _) keeps =>
    sound.apply reachable.syntaxInv op keeps) sound ops keeps

/-- `changesyntax(L+, "[")`, `changesyntax(L-, "`")` and `changecom(;)` on the created table: the
check of `-` moves the stored left quote to the bracket. -/
theorem runOps_single_flag_sound_bracket :
    Reachable m4SyntaxCreate ∧ SingleSound .quote m4SyntaxCreate ∧
      (∀ op ∈ [SyntaxOp.setSyntax 76 .add [91], .setSyntax 76 .subtract [96],
        .setComment (some [59]) none], op.takesStart .quote = false) ∧
      SingleSound .quote (runOps [SyntaxOp.setSyntax 76 .add [91], .setSyntax 76 .subtract [96],
        .setComment (some [59]) none] m4SyntaxCreate) :=
  have keeps : ∀ op ∈ [SyntaxOp.setSyntax 76 .add [91], .setSyntax 76 .subtract [96],
      .setComment (some [59]) none], op.takesStart .quote = false := by decide
  ⟨.create, FlagsTruthful.create.quotes, keeps,
    runOps_single_flag_sound .create .quote FlagsTruthful.create.quotes _ keeps⟩

/-- `changequote` is an exception for comments: `changequote(#, ')` on the created table makes
the hash the left quote while `is_single_comments` still names it. -/
example : ¬SingleSound .comm (m4SetQuotes m4SyntaxCreate (some [35]) (some [39])) := by
  unfold SingleSound
  simp only [m4SetQuotes, setDelimiters_table_apply, installedEntry, installsSingle]
  decide

/-- From every reachable state, whatever its flags, the full reset, and `=` or the reset verb of
a known key, leave all three flags truthful. -/
theorem repair_calls_make_flags_truthful {s : M4SyntaxTable} (reachable : Reachable s)
    (op : SyntaxOp) (repairs : op.repairsFlags = true) : FlagsTruthful (op.apply s) := by
  cases op with
  | setSyntax key action chars =>
      by_cases zero : key = 0
      · show FlagsTruthful (m4SetSyntax s key action chars).1
        rw [m4SetSyntax, if_pos zero]
        exact FlagsTruthful.restoreDefaultSyntax reachable.syntaxInv.orig
      simp only [SyntaxOp.repairsFlags, zero, beq_iff_eq, Bool.false_or, Bool.and_eq_true,
        Bool.or_eq_true, decide_False, false_or] at repairs
      exact FlagsTruthful.m4SetSyntax reachable chars repairs.1 repairs.2
  | setQuotes => exact absurd repairs Bool.false_ne_true
  | setComment => exact absurd repairs Bool.false_ne_true

/-- `changesyntax(L)` after `changesyntax(O+, "`")`, whose single-quote flag is stale: the reset
gives the backquote its LQUOTE back. -/
theorem repair_calls_make_flags_truthful_lquote :
    Reachable (m4SetSyntax m4SyntaxCreate 79 .add [96]).1 ∧
      (SyntaxOp.setSyntax 76 .reset []).repairsFlags = true ∧
      FlagsTruthful ((SyntaxOp.setSyntax 76 .reset []).apply
        (m4SetSyntax m4SyntaxCreate 79 .add [96]).1) :=
  have reachable : Reachable (m4SetSyntax m4SyntaxCreate 79 .add [96]).1 :=
    Reachable.create.step (.setSyntax 79 .add [96])
  have repairs : (SyntaxOp.setSyntax 76 .reset []).repairsFlags = true := by decide
  ⟨reachable, repairs, repair_calls_make_flags_truthful reachable _ repairs⟩

end M4Syntax
