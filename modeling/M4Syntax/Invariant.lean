import M4Syntax.Delimiters

/-!
# Reachable states and their invariant

The table is changed by three calls, `m4_set_syntax`, `m4_set_quotes` and `m4_set_comment`
(`SyntaxOp`). A state is reachable when some run of them leads to it from `m4_syntax_create`
(`Reachable`, `runOps`).

Every reachable state satisfies `SyntaxInv`. The default table is the one `m4_syntax_create`
computed. Every entry has as basis bits the code of one basis category (`EntryWF`), which is
what lets the bit test of `m4_has_syntax` stand for equality of bases. The NUL byte holds no
delimiter role (`NoRoles`), so that a check that copies a bearer into a stored delimiter never
writes a NUL. Each stored pair is two NUL-free strings with their lengths recorded, the second
non-empty whenever the first is (`PairWF`), and a set single-delimiter flag has a pair of one-byte
strings.

The invariant holds of the created table (`syntaxInv_create`) and every call keeps it
(`SyntaxInv.apply`), one lemma per verb, installer and check; so it holds of every reachable
state (`Reachable.syntaxInv`).
-/

set_option autoImplicit false

namespace M4Syntax

open SyntaxCategory

/-! ## Runs -/

/-- A call that changes the syntax table. -/
inductive SyntaxOp
  | setSyntax (key : Byte) (action : SyntaxAction) (chars : List Byte)
  | setQuotes (lq rq : Option (List Byte))
  | setComment (bc ec : Option (List Byte))

/-- The state after a call. -/
def SyntaxOp.apply : SyntaxOp → M4SyntaxTable → M4SyntaxTable
  | setSyntax key action chars, s => (m4SetSyntax s key action chars).1
  | setQuotes lq rq, s => m4SetQuotes s lq rq
  | setComment bc ec, s => m4SetComment s bc ec

/-- The state after a run of calls, first call first. -/
def runOps (ops : List SyntaxOp) (s : M4SyntaxTable) : M4SyntaxTable :=
  ops.foldl (fun s op => op.apply s) s

/-- The states some run of calls reaches from `m4_syntax_create`. -/
inductive Reachable : M4SyntaxTable → Prop
  | create : Reachable m4SyntaxCreate
  | step {s : M4SyntaxTable} (op : SyntaxOp) : Reachable s → Reachable (op.apply s)

theorem Reachable.runOps {s : M4SyntaxTable} (reachable : Reachable s) :
    ∀ ops, Reachable (M4Syntax.runOps ops s)
  | [] => reachable
  | op :: ops => Reachable.runOps (reachable.step op) ops

/-- A property of the created table that every call keeps from a reachable state holds in every
reachable state. -/
theorem Reachable.invariant {P : M4SyntaxTable → Prop} (created : P m4SyntaxCreate)
    (keeps : ∀ {t : M4SyntaxTable} (op : SyntaxOp), Reachable t → P t → P (op.apply t))
    {s : M4SyntaxTable} (reachable : Reachable s) : P s := by
  induction reachable with
  | create => exact created
  | step op reachable holds => exact keeps op reachable holds

/-- A property that every allowed call keeps from a reachable state holds after every run of
allowed calls from a reachable state that has it. -/
theorem Reachable.runOps_keeps {P : M4SyntaxTable → Prop} {allowed : SyntaxOp → Prop}
    (keeps : ∀ {t : M4SyntaxTable} (op : SyntaxOp), Reachable t → P t → allowed op →
      P (op.apply t))
    {s : M4SyntaxTable} (reachable : Reachable s) (holds : P s) :
    ∀ ops : List SyntaxOp, (∀ op ∈ ops, allowed op) → P (M4Syntax.runOps ops s)
  | [], _ => holds
  | op :: ops, allAllowed =>
      Reachable.runOps_keeps keeps (reachable.step op)
        (keeps op reachable holds (allAllowed op (List.mem_cons_self _ _))) ops
        fun _ mem => allAllowed _ (List.mem_cons_of_mem _ mem)

/-! ## The invariant -/

/-- An entry whose basis bits are the code of one basis category. -/
def EntryWF (entry : BitVec 16) : Prop :=
  ∃ c : SyntaxCategory, c.isMask = false ∧ basisBits entry = c.code

/-- An entry that holds no delimiter role. -/
def NoRoles (entry : BitVec 16) : Prop :=
  ∀ d : Delim, m4HasSyntax entry d.start.code = false ∧ m4HasSyntax entry d.stop.code = false

/-- A stored delimiter pair as the installers leave it. -/
structure PairWF (p : M4StringPair) : Prop where
  nul1 : (0 : Byte) ∉ p.str1
  nul2 : (0 : Byte) ∉ p.str2
  len1 : p.len1 = p.str1.length
  len2 : p.len2 = p.str2.length
  closed : p.str1 ≠ [] → p.str2 ≠ []

/-- The invariant of reachable states. -/
structure SyntaxInv (s : M4SyntaxTable) : Prop where
  orig : s.orig = m4SyntaxOrig
  entries : ∀ ch, EntryWF (s.table ch)
  nul : NoRoles (s.table 0)
  pairs : ∀ d, PairWF (s.pair d)
  single : ∀ d, s.isSingle d = true → (s.pair d).len1 = 1 ∧ (s.pair d).len2 = 1

/-! ## Entries -/

namespace EntryWF

variable {entry : BitVec 16} {c : SyntaxCategory}

theorem code (basis : c.isMask = false) : EntryWF c.code :=
  ⟨c, basis, by cases c <;> first | rfl | simp [isMask] at basis⟩

theorem addSyntaxAttribute_basis (entry : BitVec 16) (basis : c.isMask = false) :
    EntryWF (addSyntaxAttribute entry c.code) :=
  ⟨c, basis, basisBits_addSyntaxAttribute entry basis⟩

theorem addSyntaxAttribute (wf : EntryWF entry) (c : SyntaxCategory) :
    EntryWF (M4Syntax.addSyntaxAttribute entry c.code) := by
  cases mask : c.isMask
  · exact addSyntaxAttribute_basis entry mask
  · obtain ⟨b, basis, bits⟩ := wf
    refine ⟨b, basis, ?_⟩
    rw [addSyntaxAttribute_mask entry mask, basisBits_or_of_inMasks (code_and_not_masks mask), bits]

theorem removeSyntaxAttribute (wf : EntryWF entry) (mask : c.isMask = true) :
    EntryWF (M4Syntax.removeSyntaxAttribute entry c.code) := by
  obtain ⟨b, basis, bits⟩ := wf
  exact ⟨b, basis, by
    rw [M4Syntax.removeSyntaxAttribute, basisBits_and_not_of_inMasks (code_and_not_masks mask),
      bits]⟩

/-- A write made only under a condition keeps an entry well formed. -/
theorem addSyntaxAttribute_if (wf : EntryWF entry) (c : SyntaxCategory) (p : Prop) [Decidable p] :
    EntryWF (if p then M4Syntax.addSyntaxAttribute entry c.code else entry) := by
  split
  · exact wf.addSyntaxAttribute c
  · exact wf

theorem or_of_inMasks (wf : EntryWF entry) {y : BitVec 16}
    (inMasks : y &&& ~~~syntaxMasks = 0) : EntryWF (entry ||| y) := by
  obtain ⟨b, basis, bits⟩ := wf
  exact ⟨b, basis, by rw [basisBits_or_of_inMasks inMasks, bits]⟩

/-- A default entry is a basis code. -/
theorem orig (ch : Byte) : EntryWF (m4SyntaxOrig ch) := by
  obtain ⟨c, basis, _, same⟩ := m4SyntaxOrig_basis ch
  exact same ▸ code basis

end EntryWF

namespace NoRoles

variable {entry : BitVec 16}

theorem of_parts (start : m4HasSyntax (basisBits entry) lquote.code = false ∧
      m4HasSyntax (basisBits entry) bcomm.code = false)
    (stop : m4HasSyntax (maskBits entry) rquote.code = false ∧
      m4HasSyntax (maskBits entry) ecomm.code = false) : NoRoles entry := by
  intro d
  rw [m4HasSyntax_basis ((code_and_masks _).2 (Delim.start_isMask d)),
    m4HasSyntax_mask (code_and_not_masks (Delim.stop_isMask d))]
  cases d
  · exact ⟨start.1, stop.1⟩
  · exact ⟨start.2, stop.2⟩

theorem stop_parts (roles : NoRoles entry) :
    m4HasSyntax (maskBits entry) rquote.code = false ∧
      m4HasSyntax (maskBits entry) ecomm.code = false := by
  have quote := (roles .quote).2
  have comm := (roles .comm).2
  rw [m4HasSyntax_mask (code_and_not_masks (Delim.stop_isMask _))] at quote comm
  exact ⟨quote, comm⟩

theorem removeSyntaxAttribute (roles : NoRoles entry) (code : BitVec 16) :
    NoRoles (M4Syntax.removeSyntaxAttribute entry code) := by
  have smaller : ∀ c : BitVec 16, m4HasSyntax entry c = false →
      m4HasSyntax (M4Syntax.removeSyntaxAttribute entry code) c = false := by
    intro c absent
    have zero : entry &&& c = 0 := by simpa [m4HasSyntax] using absent
    simp only [m4HasSyntax, M4Syntax.removeSyntaxAttribute, bne_eq_false_iff_eq]
    ext i
    have bit := getLsbD_of_and_eq_zero zero i
    simp only [BitVec.getLsbD_and, BitVec.getLsbD_not, BitVec.getLsbD_zero]
    revert bit
    cases entry.getLsbD i <;> cases c.getLsbD i <;> simp
  exact fun d => ⟨smaller _ (roles d).1, smaller _ (roles d).2⟩

/-- Adding a basis without a delimiter role keeps an entry free of roles. -/
theorem addSyntaxAttribute {c : SyntaxCategory} (roles : NoRoles entry) (basis : c.isMask = false)
    (plain : c ≠ lquote ∧ c ≠ bcomm) :
    NoRoles (M4Syntax.addSyntaxAttribute entry c.code) := by
  refine of_parts ?_ ?_
  · rw [basisBits_addSyntaxAttribute entry basis, m4HasSyntax_code_code, m4HasSyntax_code_code]
    simp [plain.1, plain.2]
  · rw [maskBits_addSyntaxAttribute entry basis]
    exact roles.stop_parts

end NoRoles

/-! ## The bodies of the loops -/

section Bodies

variable {entry : BitVec 16} (c : SyntaxCategory)

theorem isMask_of_code_and_masks (nonzero : ((c.code &&& syntaxMasks) != 0) = true) :
    c.isMask = true := by
  revert nonzero
  cases c <;> decide

theorem isMask_of_code_eq (mask : (c.code == rquote.code || c.code == ecomm.code) = true) :
    c.isMask = true := by
  revert mask
  cases c <;> decide

theorem EntryWF.subtractEntry (wf : EntryWF entry) : EntryWF (subtractEntry c.code entry) := by
  unfold M4Syntax.subtractEntry
  split
  · exact wf.removeSyntaxAttribute (isMask_of_code_and_masks c ‹_›)
  · exact wf.addSyntaxAttribute_if other _

theorem EntryWF.setSweepEntry (wf : EntryWF entry) : EntryWF (setSweepEntry c.code entry) := by
  unfold M4Syntax.setSweepEntry
  split
  · exact wf.removeSyntaxAttribute (isMask_of_code_eq c ‹_›)
  · exact wf.addSyntaxAttribute_if other _

/-- A write of a default entry is a basis write. -/
theorem EntryWF.addSyntaxAttribute_orig (entry : BitVec 16) (ch : Byte) :
    EntryWF (M4Syntax.addSyntaxAttribute entry (m4SyntaxOrig ch)) := by
  obtain ⟨b, basis, _, same⟩ := m4SyntaxOrig_basis ch
  exact same ▸ EntryWF.addSyntaxAttribute_basis entry basis

theorem EntryWF.resetEntry (wf : EntryWF entry) (ch : Byte) :
    EntryWF (resetEntry m4SyntaxOrig c.code ch entry) := by
  have mask : ∀ m : SyntaxCategory, m.isMask = true → (c.code == m.code) = true →
      c.isMask = true := fun m mask same => by rwa [code_inj.1 (beq_iff_eq.1 same)]
  unfold M4Syntax.resetEntry
  split
  · have := mask rquote rfl ‹_›
    split
    · exact wf.addSyntaxAttribute c
    · exact wf.removeSyntaxAttribute this
  · split
    · have := mask ecomm rfl ‹_›
      split
      · exact wf.addSyntaxAttribute c
      · exact wf.removeSyntaxAttribute this
    · split
      · exact EntryWF.addSyntaxAttribute_orig entry ch
      · exact wf

theorem EntryWF.clearDelimEntry (wf : EntryWF entry) (d : Delim) (ch : Byte) :
    EntryWF (clearDelimEntry d m4SyntaxOrig ch entry) := by
  have restored : EntryWF (if m4HasSyntax entry d.start.code then
      M4Syntax.addSyntaxAttribute entry
        (if m4SyntaxOrig ch = d.start.code then SyntaxCategory.other.code else m4SyntaxOrig ch)
      else entry) := by
    split
    · split
      · exact EntryWF.addSyntaxAttribute_basis entry rfl
      · exact EntryWF.addSyntaxAttribute_orig entry ch
    · exact wf
  have stopped : ∀ e, EntryWF e → EntryWF (if m4HasSyntax e d.stop.code then
      M4Syntax.removeSyntaxAttribute e d.stop.code else e) := fun e wf => by
    split
    · exact wf.removeSyntaxAttribute (Delim.stop_isMask d)
    · exact wf
  exact stopped _ restored

theorem m4SyntaxOrig_zero : m4SyntaxOrig 0 = other.code := rfl

theorem NoRoles.setSweepEntry (roles : NoRoles entry) : NoRoles (setSweepEntry c.code entry) := by
  unfold M4Syntax.setSweepEntry
  split
  · exact roles.removeSyntaxAttribute _
  · split
    · exact roles.addSyntaxAttribute rfl (by decide)
    · exact roles

theorem NoRoles.resetEntry_zero (roles : NoRoles entry) :
    NoRoles (resetEntry m4SyntaxOrig c.code 0 entry) := by
  unfold M4Syntax.resetEntry
  simp only [show (0 : Byte) ≠ 39 by decide, show (0 : Byte) ≠ 10 by decide, if_false,
    m4SyntaxOrig_zero]
  split
  · exact roles.removeSyntaxAttribute _
  · split
    · exact roles.removeSyntaxAttribute _
    · split
      · exact roles.addSyntaxAttribute rfl (by decide)
      · exact roles

theorem NoRoles.clearDelimEntry (roles : NoRoles entry) (d : Delim) (orig : Byte → BitVec 16)
    (ch : Byte) : clearDelimEntry d orig ch entry = entry := by
  simp [M4Syntax.clearDelimEntry, (roles d).1, (roles d).2]

end Bodies

/-! ## Delimiter pairs -/

namespace PairWF

variable {p : M4StringPair}

theorem setFirstBytes (wf : PairWF p) {a b : Byte} (nonzeroA : a ≠ 0) (nonzeroB : b ≠ 0) :
    PairWF { p with str1 := setFirstByte p.str1 a, str2 := setFirstByte p.str2 b } where
  nul1 := fun member => (List.mem_or_eq_of_mem_set member).elim wf.nul1 (nonzeroA ·.symm)
  nul2 := fun member => (List.mem_or_eq_of_mem_set member).elim wf.nul2 (nonzeroB ·.symm)
  len1 := by simp [setFirstByte, wf.len1]
  len2 := by simp [setFirstByte, wf.len2]
  closed := by simpa [setFirstByte] using wf.closed

theorem storedPair {left right : List Byte} (closed : cstr left ≠ [] → cstr right ≠ []) :
    PairWF (storedPair left right) :=
  ⟨zero_not_mem_cstr left, zero_not_mem_cstr right, rfl, rfl, closed⟩

end PairWF

theorem installsSingle_lengths {blocking : BitVec 16} {s : M4SyntaxTable} {left right : List Byte}
    (single : installsSingle blocking s left right = true) :
    strlen left = 1 ∧ strlen right = 1 := by
  simp only [installsSingle, storedPair, Bool.and_eq_true, beq_iff_eq] at single
  exact single.1

/-- The byte a one-byte C string starts with is not NUL. -/
theorem firstByte_ne_zero_of_strlen {buffer : List Byte} (one : strlen buffer = 1) :
    firstByte (cstr buffer) ≠ 0 := by
  obtain ⟨a, same, nonzero⟩ := cstr_of_strlen_one one
  simpa [same, firstByte] using nonzero

/-- The installers never write the NUL byte: its sweep finds no role there, and the install
writes the first bytes of one-byte strings. -/
theorem installedEntry_zero {d : Delim} {blocking : BitVec 16} {s : M4SyntaxTable}
    {left right : List Byte} (roles : NoRoles (s.table 0)) :
    installedEntry d blocking s left right 0 = s.table 0 := by
  have untouched : ∀ buffer, strlen buffer = 1 →
      ((0 : Byte) = firstByte (cstr buffer)) = False :=
    fun buffer one => eq_false (firstByte_ne_zero_of_strlen one).symm
  rw [installedEntry, roles.clearDelimEntry]
  by_cases single : installsSingle blocking s left right
  · simp only [single, untouched _ (installsSingle_lengths single).1,
      untouched _ (installsSingle_lengths single).2, decide_False, Bool.and_false,
      Bool.false_eq_true, if_false]
  · simp only [single, Bool.false_and, Bool.false_eq_true, if_false, Bool.not_eq_true]

theorem quoteArgs_closed (lq rq : Option (List Byte)) :
    cstr (quoteArgs lq rq).1 ≠ [] → cstr (quoteArgs lq rq).2 ≠ [] := by
  intro nonempty
  rw [cstr_ne_nil_iff] at nonempty ⊢
  match lq, rq with
  | none, _ => simp only [quoteArgs]; decide
  | some lq, none => simp only [quoteArgs]; decide
  | some lq, some rq =>
      simp only [quoteArgs] at nonempty ⊢
      split
      · decide
      · simp_all

theorem commentArgs_closed (bc ec : Option (List Byte)) :
    cstr (commentArgs bc ec).1 ≠ [] → cstr (commentArgs bc ec).2 ≠ [] := by
  intro nonempty
  rw [cstr_ne_nil_iff] at nonempty ⊢
  match bc, ec with
  | none, _ => exact absurd rfl nonempty
  | some bc, none => simp only [commentArgs]; decide
  | some bc, some ec =>
      simp only [commentArgs] at nonempty ⊢
      split
      · decide
      · simp_all

/-! ## Calls keep the invariant -/

namespace SyntaxInv

variable {s : M4SyntaxTable}

/-- A change that leaves the default table, the entries, the pairs and the flags alone keeps the
invariant. -/
theorem of_frame {s' : M4SyntaxTable} (inv : SyntaxInv s) (orig : s'.orig = s.orig)
    (table : s'.table = s.table) (pair : ∀ d, s'.pair d = s.pair d)
    (single : ∀ d, s'.isSingle d = s.isSingle d) : SyntaxInv s' where
  orig := orig.trans inv.orig
  entries := table ▸ inv.entries
  nul := table ▸ inv.nul
  pairs := fun d => pair d ▸ inv.pairs d
  single := fun d set => pair d ▸ inv.single d (single d ▸ set)

theorem setTable (inv : SyntaxInv s) {t : Byte → BitVec 16} (entries : ∀ ch, EntryWF (t ch))
    (nul : NoRoles (t 0)) : SyntaxInv (s.setTable t) where
  orig := inv.orig
  entries := entries
  nul := nul
  pairs := fun d => by simpa using inv.pairs d
  single := fun d => by simpa using inv.single d

/-- A bearer of a delimiter role is not the NUL byte. -/
theorem ne_zero_of_role (inv : SyntaxInv s) {d : Delim} {b : Byte}
    (role : m4HasSyntax (s.table b) d.start.code = true ∨
      m4HasSyntax (s.table b) d.stop.code = true) : b ≠ 0 := by
  rintro rfl
  rcases role with role | role <;> simp [(inv.nul d).1, (inv.nul d).2] at role

theorem checkIsSingle (inv : SyntaxInv s) (d : Delim) :
    SyntaxInv (M4Syntax.checkIsSingle d s).1 := by
  obtain ⟨keeps, stored⟩ := checkIsSingle_stores d s
  refine ⟨by simpa using inv.orig, by simpa using inv.entries, by simpa using inv.nul,
    fun e => ?_, fun e set => ?_⟩
  · by_cases same : e = d
    · subst same
      rcases stored with unchanged | ⟨start, stop, bearer, stopper, written⟩
      · exact unchanged ▸ inv.pairs e
      · rw [written]
        exact (inv.pairs e).setFirstBytes (inv.ne_zero_of_role (.inl bearer))
          (inv.ne_zero_of_role (.inr stopper))
    · rw [pair_checkIsSingle_of_ne _ _ _ same]
      exact inv.pairs e
  · by_cases same : e = d
    · subst same
      have lengths := inv.single e (keeps set)
      rcases stored with unchanged | ⟨_, _, _, _, written⟩
      · rwa [unchanged]
      · rwa [written]
    · rw [isSingle_checkIsSingle_of_ne _ _ _ same] at set
      rw [pair_checkIsSingle_of_ne _ _ _ same]
      exact inv.single e set

theorem checkIsMacroEscaped (inv : SyntaxInv s) : SyntaxInv (M4Syntax.checkIsMacroEscaped s).1 :=
  inv.of_frame rfl rfl (by simp) (by simp)

theorem setQuoteAge (inv : SyntaxInv s) (reset change : Bool) :
    SyntaxInv (M4Syntax.setQuoteAge s reset change) :=
  inv.of_frame rfl rfl (by simp) (by simp)

theorem addSyntaxSet (inv : SyntaxInv s) (chars : List Byte) (c : SyntaxCategory) :
    SyntaxInv (M4Syntax.addSyntaxSet s chars c.code) := by
  unfold M4Syntax.addSyntaxSet
  split
  · exact inv
  · have flagged : SyntaxInv
        (if c.code = escape.code then { s with isMacroEscaped := true } else s) := by
      split
      · exact inv.of_frame rfl rfl (fun d => by cases d <;> rfl) (fun d => by cases d <;> rfl)
      · exact inv
    exact flagged.setTable
      (forEachChar_keeps EntryWF (fun _ wf => wf.addSyntaxAttribute c) chars flagged.entries)
      (by rw [forEachChar_of_not_mem _ _ _ (zero_not_mem_cstr chars)]; exact flagged.nul)

theorem subtractSyntaxSet (inv : SyntaxInv s) (chars : List Byte) (c : SyntaxCategory) :
    SyntaxInv (M4Syntax.subtractSyntaxSet s chars c.code) := by
  unfold M4Syntax.subtractSyntaxSet
  by_cases empty : firstByte chars = 0
  · rw [if_pos empty]
    exact inv
  · have swept := inv.setTable
      (forEachChar_keeps EntryWF (fun _ wf => wf.subtractEntry c) chars inv.entries)
      (by rw [forEachChar_of_not_mem _ _ _ (zero_not_mem_cstr chars)]; exact inv.nul)
    rw [if_neg empty]
    simp only [apply_ite SyntaxInv, swept, swept.checkIsMacroEscaped, checkIsSingleQuotes,
      checkIsSingleComments, swept.checkIsSingle, ite_self]

theorem setSyntaxSet (inv : SyntaxInv s) (chars : List Byte) (c : SyntaxCategory) :
    SyntaxInv (M4Syntax.setSyntaxSet s chars c.code) := by
  have swept : SyntaxInv (s.setTable (forEachChar chars (addSyntaxAttribute · c.code)
      (sweepTable (fun _ => setSweepEntry c.code) s.table))) := inv.setTable
    (forEachChar_keeps EntryWF (fun _ wf => wf.addSyntaxAttribute c) chars
      (fun ch => by rw [sweepTable_apply]; exact (inv.entries ch).setSweepEntry c))
    (by rw [forEachChar_of_not_mem _ _ _ (zero_not_mem_cstr chars), sweepTable_apply]
        exact inv.nul.setSweepEntry c)
  exact (swept.checkIsMacroEscaped.checkIsSingle .quote).checkIsSingle .comm

theorem resetSyntaxSet (inv : SyntaxInv s) (c : SyntaxCategory) :
    SyntaxInv (M4Syntax.resetSyntaxSet s c.code) := by
  have swept : SyntaxInv (s.setTable (sweepTable (resetEntry s.orig c.code) s.table)) := by
    rw [inv.orig]
    exact inv.setTable (fun ch => by rw [sweepTable_apply]; exact (inv.entries ch).resetEntry c ch)
      (by rw [sweepTable_apply]; exact inv.nul.resetEntry_zero c)
  exact (swept.checkIsMacroEscaped.checkIsSingle .quote).checkIsSingle .comm

theorem restoreDefaultSyntax (origEq : s.orig = m4SyntaxOrig) :
    SyntaxInv (M4Syntax.restoreDefaultSyntax s) where
  orig := origEq
  entries := fun ch => by
    rw [restoreDefaultSyntax_table, origEq, withDelimiterMasks]
    exact ((EntryWF.orig ch).or_of_inMasks
      (ite_code_and_not_masks (rfl : rquote.isMask = true) _)).or_of_inMasks
      (ite_code_and_not_masks (rfl : ecomm.isMask = true) _)
  nul := by
    rw [restoreDefaultSyntax_table, origEq]
    intro d
    cases d <;> decide
  pairs
    | .quote =>
      (⟨by decide, by decide, rfl, rfl, by decide⟩ : PairWF ⟨defLquote, 1, defRquote, 1⟩)
    | .comm =>
      (⟨by decide, by decide, rfl, rfl, by decide⟩ : PairWF ⟨defBcomm, 1, defEcomm, 1⟩)
  single := fun d _ => by cases d <;> exact ⟨rfl, rfl⟩

theorem setDelimiters (inv : SyntaxInv s) (d : Delim) (blocking : BitVec 16)
    {left right : List Byte} (closed : cstr left ≠ [] → cstr right ≠ []) :
    SyntaxInv (M4Syntax.setDelimiters d blocking s left right) := by
  by_cases same : sameDelimiters d s left right
  · rw [setDelimiters_of_same _ _ _ _ _ same]
    exact inv
  have cleared : ∀ ch, EntryWF (clearDelimEntry d s.orig ch (s.table ch)) := fun ch => by
    rw [inv.orig]
    exact (inv.entries ch).clearDelimEntry d ch
  refine ⟨by rw [setDelimiters_orig same]; exact inv.orig, fun ch => ?_, ?_, fun e => ?_,
    fun e set => ?_⟩
  · rw [setDelimiters_table same, installedEntry]
    exact ((cleared ch).addSyntaxAttribute_if d.start _).addSyntaxAttribute_if d.stop _
  · rw [setDelimiters_table same, installedEntry_zero inv.nul]
    exact inv.nul
  · rw [setDelimiters_pair same]
    split
    · exact PairWF.storedPair closed
    · exact inv.pairs e
  · rw [setDelimiters_isSingle same] at set
    rw [setDelimiters_pair same]
    split
    · rename_i here
      simp only [here, if_true] at set
      exact installsSingle_lengths set
    · rename_i other
      simp only [other, if_false] at set
      exact inv.single e set

theorem m4SetSyntax (inv : SyntaxInv s) (key : Byte) (action : SyntaxAction) (chars : List Byte) :
    SyntaxInv (M4Syntax.m4SetSyntax s key action chars).1 := by
  unfold M4Syntax.m4SetSyntax
  split
  · exact restoreDefaultSyntax inv.orig
  · split
    · exact inv
    · rename_i c _
      have verb : SyntaxInv (action.run s chars c.code) := by
        cases action
        · exact inv.addSyntaxSet chars c
        · exact inv.subtractSyntaxSet chars c
        · exact inv.setSyntaxSet chars c
        · exact inv.resetSyntaxSet c
      exact (verb.setQuoteAge false true).of_frame rfl rfl (by simp) (by simp)

theorem apply (inv : SyntaxInv s) : ∀ op : SyntaxOp, SyntaxInv (op.apply s)
  | .setSyntax key action chars => inv.m4SetSyntax key action chars
  | .setQuotes lq rq => inv.setDelimiters .quote quoteBlocking (quoteArgs_closed lq rq)
  | .setComment bc ec => inv.setDelimiters .comm commentBlocking (commentArgs_closed bc ec)

end SyntaxInv

theorem syntaxInv_create : SyntaxInv m4SyntaxCreate :=
  SyntaxInv.restoreDefaultSyntax rfl

theorem Reachable.syntaxInv {s : M4SyntaxTable} (reachable : Reachable s) : SyntaxInv s := by
  induction reachable with
  | create => exact syntaxInv_create
  | step op _ inv => exact inv.apply op

end M4Syntax
