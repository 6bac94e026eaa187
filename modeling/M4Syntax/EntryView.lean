import M4Syntax.Safety

/-!
# What an entry means

An entry of the syntax table packs what the table says about one byte into 16 bits: the code of
one basis category in the low fourteen bits, no bit at all for IGNORE, and the two end roles
RQUOTE and ECOMM in the top two. `EntrySyntax` is that meaning as a record, the view of the
entry; its basis is never a mask, so a view without meaning cannot be built.

**The writes.** `EntrySyntax.encode` writes a view as its entry, and every well-formed entry,
so every entry of a reachable state, is the encoding of a view (`Reachable.exists_encode`). On
an encoded entry, `m4_has_syntax`, `add_syntax_attribute` and `remove_syntax_attribute` compute
the encoding of what they mean on the view (`EntrySyntax.m4HasSyntax_encode`,
`EntrySyntax.addSyntaxAttribute_encode`, `EntrySyntax.removeSyntaxAttribute_encode`): a mask is a
role that is tested, set and cleared on its own; a basis replaces the basis and keeps the roles.
IGNORE is the empty basis, which the bit test never sees.

**The verbs.** The loop body of each verb of `m4_set_syntax`, written on views, is
`EntrySyntax.verb`. From every state, the verb changes a byte whose entry encodes a view and
whose default is a basis code as its loop body on the view says (`m4SetSyntax_refines_verb`).

**What the verbs are for.** On views the purpose of each verb is a short argument, and through
the refinement it holds of the code from every reachable state (`m4SetSyntax_verbs_purpose`):
`+` gives the category to the bytes of the string and `-` takes it from them, both leaving the
other bytes alone; `=` leaves it on exactly the bytes of the string; the reset verb leaves it
where the full reset would. IGNORE is never seen, and OTHER is where `-` and `=` send the bytes
they take a basis from, so neither can take OTHER away.

**Two layers.** The basis and the roles of an entry are written independently: a verb of a basis
category never changes which bytes end a quote or a comment, and a verb of a mask never changes
a basis (`m4SetSyntax_layers_independent`).

**The resets commute.** From every reachable state, two calls with the reset verb leave the same
table in either order, whatever their keys (`m4SetSyntax_resets_commute`). On a view a reset
only ever writes the default basis, which a later reset keeps, and the role of its own mask,
which no other reset touches (`EntrySyntax.reset_comm`). The full reset commutes with them
because the reset verb changes nothing in the table it leaves: the apostrophe and newline that
`reset_syntax_set` writes out are the first bytes of `DEF_RQUOTE` and `DEF_ECOMM`
(`table_reset_restoreDefaultSyntax`).
-/

set_option autoImplicit false

namespace M4Syntax

open SyntaxCategory

/-- A category other than the two masks is a basis. -/
theorem isMask_eq_false_of_ne {c : SyntaxCategory} (notQuote : c ≠ rquote) (notComm : c ≠ ecomm) :
    c.isMask = false := by
  cases c <;> simp_all [isMask]

/-- A basis is neither mask. -/
theorem ne_masks_of_isMask {c : SyntaxCategory} (basis : c.isMask = false) :
    c ≠ rquote ∧ c ≠ ecomm := by
  constructor <;> rintro rfl <;> cases basis

/-- A mask is RQUOTE or ECOMM. -/
theorem eq_masks_of_isMask {c : SyntaxCategory} (mask : c.isMask = true) :
    c = rquote ∨ c = ecomm := by
  cases c <;> simp_all [isMask]

/-- What the table says about one byte: its basis category, and whether the byte ends a quote
or a comment. The basis is never one of the two masks. -/
structure EntrySyntax where
  basis : SyntaxCategory
  isBasis : basis.isMask = false
  endsQuote : Bool
  endsComment : Bool

namespace EntrySyntax

/-- The entry of a view: the basis code ORed with the mask bits of its roles. -/
def encode (e : EntrySyntax) : BitVec 16 :=
  e.basis.code ||| (if e.endsQuote then rquote.code else 0) |||
    (if e.endsComment then ecomm.code else 0)

/-- Whether the view has a category, as `m4_has_syntax` asks: a mask by its role, a basis by the
basis, and the empty basis IGNORE never. -/
def has (e : EntrySyntax) (c : SyntaxCategory) : Bool :=
  if c = rquote then e.endsQuote
  else if c = ecomm then e.endsComment
  else c != ignore && e.basis == c

/-- `add_syntax_attribute` on a view: a mask sets its role, a basis replaces the basis and keeps
the roles. -/
def add (e : EntrySyntax) (c : SyntaxCategory) : EntrySyntax :=
  if quote : c = rquote then { e with endsQuote := true }
  else if comm : c = ecomm then { e with endsComment := true }
  else { e with basis := c, isBasis := isMask_eq_false_of_ne quote comm }

/-- `remove_syntax_attribute` on a view: a mask clears its role, and removing the basis of the
view leaves the empty basis. -/
def remove (e : EntrySyntax) (c : SyntaxCategory) : EntrySyntax :=
  if c = rquote then { e with endsQuote := false }
  else if c = ecomm then { e with endsComment := false }
  else if e.basis = c then { e with basis := ignore, isBasis := rfl }
  else e

/-- The loop body of `subtract_syntax_set`, and the sweep of `set_syntax_set`, on a view: a mask
loses its role, and a byte that has the basis goes to OTHER. -/
def subtract (e : EntrySyntax) (c : SyntaxCategory) : EntrySyntax :=
  if c.isMask then e.remove c else if e.has c then e.add other else e

/-- The sweep of `reset_syntax_set` on a view, for a byte `b` whose default basis is `d`. -/
def reset (e : EntrySyntax) (c d : SyntaxCategory) (b : Byte) : EntrySyntax :=
  if c = rquote then (if b = 39 then e.add c else e.remove c)
  else if c = ecomm then (if b = 10 then e.add c else e.remove c)
  else if d = c ∨ e.has c then e.add d else e

/-- What the verb `action` of `m4_set_syntax` for the category `c` does to the view of the byte
`b`, whose default basis is `d`; `inS` says whether `b` is in the string. -/
def verb (e : EntrySyntax) (action : SyntaxAction) (c d : SyntaxCategory) (b : Byte)
    (inS : Bool) : EntrySyntax :=
  match action with
  | .add => if inS then e.add c else e
  | .subtract => if inS then e.subtract c else e
  | .set => if inS then (e.subtract c).add c else e.subtract c
  | .reset => e.reset c d b

/-- The view the full reset gives the byte `b` of default basis `d`. -/
def byDefault (d : SyntaxCategory) (basis : d.isMask = false) (b : Byte) : EntrySyntax :=
  ⟨d, basis, decide (b = 39), decide (b = 10)⟩

theorem ext {e e' : EntrySyntax} (basis : e.basis = e'.basis) (quote : e.endsQuote = e'.endsQuote)
    (comm : e.endsComment = e'.endsComment) : e = e' := by
  cases e
  cases e'
  simp_all

theorem basis_ne_rquote (e : EntrySyntax) : e.basis ≠ rquote := fun same => by
  simpa [same, isMask] using e.isBasis

theorem basis_ne_ecomm (e : EntrySyntax) : e.basis ≠ ecomm := fun same => by
  simpa [same, isMask] using e.isBasis

/-! ## The encoding -/

variable (e : EntrySyntax) (c : SyntaxCategory)

@[simp] theorem basisBits_encode : basisBits e.encode = e.basis.code := by
  rw [encode, basisBits_or_of_inMasks (ite_code_and_not_masks (rfl : ecomm.isMask = true) _),
    basisBits_or_of_inMasks (ite_code_and_not_masks (rfl : rquote.isMask = true) _),
    basisBits_code e.isBasis]

@[simp] theorem getLsbD_encode_rquote : e.encode.getLsbD 14 = e.endsQuote := by
  simp [encode, apply_ite (BitVec.getLsbD · 14), e.basis_ne_rquote,
    show (ecomm == rquote) = false from rfl]

@[simp] theorem getLsbD_encode_ecomm : e.encode.getLsbD 15 = e.endsComment := by
  simp [encode, apply_ite (BitVec.getLsbD · 15), e.basis_ne_ecomm,
    show (rquote == ecomm) = false from rfl]

/-- An entry is the encoding of a view exactly when it has the view's basis bits and role
bits. -/
theorem encode_eq_iff {x : BitVec 16} :
    e.encode = x ↔
      basisBits x = e.basis.code ∧ x.getLsbD 14 = e.endsQuote ∧ x.getLsbD 15 = e.endsComment := by
  constructor
  · rintro rfl
    simp
  · rintro ⟨basis, quote, comm⟩
    exact entry_ext_bits (by rw [basis, basisBits_encode]) (by simp [quote]) (by simp [comm])

/-- The role bits are the bit test of the masks. -/
theorem m4HasSyntax_mask_getLsbD (x : BitVec 16) :
    m4HasSyntax x rquote.code = x.getLsbD 14 ∧ m4HasSyntax x ecomm.code = x.getLsbD 15 := by
  have quote : rquote.code = BitVec.twoPow 16 14 := by decide
  have comm : ecomm.code = BitVec.twoPow 16 15 := by decide
  rw [m4HasSyntax, m4HasSyntax, quote, comm, BitVec.and_twoPow, BitVec.and_twoPow]
  constructor <;> split <;> simp_all <;> decide

/-! ## The writes -/

@[simp] theorem m4HasSyntax_encode : m4HasSyntax e.encode c.code = e.has c := by
  by_cases quote : c = rquote
  · subst quote
    simp [has, (m4HasSyntax_mask_getLsbD _).1]
  by_cases comm : c = ecomm
  · subst comm
    simp [has, (m4HasSyntax_mask_getLsbD _).2]
  rw [m4HasSyntax_basis ((code_and_masks c).2 (isMask_eq_false_of_ne quote comm)),
    basisBits_encode, m4HasSyntax_code_code]
  by_cases same : e.basis = c
  · simp [has, quote, comm, same, Bool.and_comm]
  · simp [has, quote, comm, beq_false_of_ne same]

@[simp] theorem addSyntaxAttribute_encode : addSyntaxAttribute e.encode c.code = (e.add c).encode := by
  refine (((e.add c).encode_eq_iff).2 ?_).symm
  by_cases quote : c = rquote
  · subst quote
    simp [add, addSyntaxAttribute_mask _ (rfl : rquote.isMask = true),
      basisBits_or_of_inMasks (code_and_not_masks (rfl : rquote.isMask = true))]
  by_cases comm : c = ecomm
  · subst comm
    simp [add, quote, addSyntaxAttribute_mask _ (rfl : ecomm.isMask = true),
      basisBits_or_of_inMasks (code_and_not_masks (rfl : ecomm.isMask = true))]
  have basis := isMask_eq_false_of_ne quote comm
  have masks := maskBits_addSyntaxAttribute e.encode basis
  refine ⟨by simp [add, quote, comm, basis, basisBits_addSyntaxAttribute _ basis], ?_, ?_⟩
  · rw [← getLsbD_maskBits_rquote, masks]
    simp [add, quote, comm, basis]
  · rw [← getLsbD_maskBits_ecomm, masks]
    simp [add, quote, comm, basis]

/-- Clearing one category's bits from another's code. -/
theorem code_and_not_code (b : SyntaxCategory) :
    b.code &&& ~~~c.code = if b = c then 0 else b.code := by
  cases b <;> cases c <;> decide

theorem basisBits_and_not (x y : BitVec 16) : basisBits (x &&& ~~~y) = basisBits x &&& ~~~y := by
  ext i
  simp only [basisBits, BitVec.getLsbD_and, BitVec.getLsbD_not]
  cases x.getLsbD i <;> cases y.getLsbD i <;> simp

@[simp] theorem removeSyntaxAttribute_encode :
    removeSyntaxAttribute e.encode c.code = (e.remove c).encode := by
  refine (((e.remove c).encode_eq_iff).2 ?_).symm
  rw [removeSyntaxAttribute, basisBits_and_not, basisBits_encode, code_and_not_code]
  simp only [BitVec.getLsbD_and, BitVec.getLsbD_not, getLsbD_encode_rquote, getLsbD_encode_ecomm,
    getLsbD_code_rquote, getLsbD_code_ecomm]
  by_cases quote : c = rquote
  · simp [remove, quote, e.basis_ne_rquote]
  by_cases comm : c = ecomm
  · simp [remove, comm, e.basis_ne_ecomm]
  by_cases same : e.basis = c <;> simp [remove, quote, comm, same, code]

/-! ## The loop bodies of the verbs -/

theorem subtractEntry_encode : subtractEntry c.code e.encode = (e.subtract c).encode := by
  have mask : (c.code &&& syntaxMasks != 0) = c.isMask := by cases c <;> decide
  simp only [subtractEntry, subtract, mask, m4HasSyntax_encode, addSyntaxAttribute_encode,
    removeSyntaxAttribute_encode, apply_ite encode]

theorem resetEntry_encode {orig : Byte → BitVec 16} {b : Byte} {d : SyntaxCategory}
    (default : orig b = d.code) : resetEntry orig c.code b e.encode = (e.reset c d b).encode := by
  simp only [resetEntry, reset, default, beq_iff_eq, code_inj, Bool.or_eq_true,
    m4HasSyntax_encode, addSyntaxAttribute_encode, removeSyntaxAttribute_encode, apply_ite encode]

theorem encode_byDefault {orig : Byte → BitVec 16} {b : Byte} {d : SyntaxCategory}
    (basis : d.isMask = false) (default : orig b = d.code) :
    (byDefault d basis b).encode = withDelimiterMasks orig b := by
  simp [encode, byDefault, withDelimiterMasks, default]

/-! ## What the verbs do on views -/

theorem has_add_self (notIgnore : c ≠ ignore) : (e.add c).has c = true := by
  unfold add has
  by_cases quote : c = rquote <;> by_cases comm : c = ecomm <;> simp_all

theorem has_subtract_self (notOther : c ≠ other) : (e.subtract c).has c = false := by
  cases mask : c.isMask
  · rw [subtract, if_neg (by simp [mask])]
    split
    · simp [add, has, ne_masks_of_isMask mask, Ne.symm notOther]
    · simp_all
  · rcases eq_masks_of_isMask mask with rfl | rfl <;> simp [subtract, remove, has, isMask]

theorem has_reset_self (d : SyntaxCategory) (basis : d.isMask = false) (b : Byte) :
    (e.reset c d b).has c = (byDefault d basis b).has c := by
  unfold reset
  by_cases quote : c = rquote
  · subst quote
    by_cases apostrophe : b = 39 <;> simp [apostrophe, add, remove, has, byDefault]
  by_cases comm : c = ecomm
  · subst comm
    by_cases newline : b = 10 <;> simp [newline, add, remove, has, byDefault]
  have notD := ne_masks_of_isMask basis
  rw [if_neg quote, if_neg comm]
  by_cases taken : d = c ∨ e.has c = true
  · rw [if_pos taken]
    simp [add, has, byDefault, quote, comm, notD.1, notD.2]
  · rw [if_neg taken]
    have same : d ≠ c := fun same => taken (.inl same)
    have had : e.has c = false := by simpa using fun had => taken (.inr had)
    rw [had]
    simp [has, byDefault, quote, comm, same]

theorem roles_add {k : SyntaxCategory} (basis : k.isMask = false) :
    (e.add k).endsQuote = e.endsQuote ∧ (e.add k).endsComment = e.endsComment := by
  simp [add, ne_masks_of_isMask basis]

theorem roles_subtract (basis : c.isMask = false) :
    (e.subtract c).endsQuote = e.endsQuote ∧ (e.subtract c).endsComment = e.endsComment := by
  rw [subtract, if_neg (by simp [basis])]
  split
  · exact e.roles_add rfl
  · exact ⟨rfl, rfl⟩

/-- A verb of a basis category keeps both roles of every byte whose default is a basis. -/
theorem verb_roles (action : SyntaxAction) (basis : c.isMask = false) {d : SyntaxCategory}
    (default : d.isMask = false) (b : Byte) (inS : Bool) :
    (e.verb action c d b inS).endsQuote = e.endsQuote ∧
      (e.verb action c d b inS).endsComment = e.endsComment := by
  cases action
  · cases inS
    · exact ⟨rfl, rfl⟩
    · exact e.roles_add basis
  · cases inS
    · exact ⟨rfl, rfl⟩
    · exact e.roles_subtract c basis
  · have swept := e.roles_subtract c basis
    have added := (e.subtract c).roles_add basis
    cases inS
    · exact swept
    · exact ⟨added.1.trans swept.1, added.2.trans swept.2⟩
  · simp only [verb, reset, if_neg (ne_masks_of_isMask basis).1,
      if_neg (ne_masks_of_isMask basis).2]
    split
    · exact e.roles_add default
    · exact ⟨rfl, rfl⟩

/-- The reset verb leaves the view of the full reset as it is. -/
theorem reset_byDefault {d : SyntaxCategory} (basis : d.isMask = false) (b : Byte) :
    (byDefault d basis b).reset c d b = byDefault d basis b := by
  unfold reset
  by_cases quote : c = rquote
  · subst quote
    by_cases apostrophe : b = 39 <;> simp [apostrophe, add, remove, byDefault]
  by_cases comm : c = ecomm
  · subst comm
    by_cases newline : b = 10 <;> simp [newline, add, remove, byDefault]
  rw [if_neg quote, if_neg comm]
  split
  · simp [add, byDefault, ne_masks_of_isMask basis]
  · rfl

/-- A basis is tested by the basis of the view alone. -/
theorem has_of_isMask (basis : c.isMask = false) : e.has c = (c != ignore && e.basis == c) := by
  simp [has, ne_masks_of_isMask basis]

/-- The reset of `c` gives the view its default basis `d` when `c` is a basis that is the default
or the view's basis, and keeps the basis otherwise. -/
theorem basis_reset {d : SyntaxCategory} (basis : d.isMask = false) (b : Byte) :
    (e.reset c d b).basis =
      if c.isMask = false ∧ (d = c ∨ e.has c = true) then d else e.basis := by
  unfold reset
  by_cases quote : c = rquote
  · subst quote
    by_cases apostrophe : b = 39 <;> simp [apostrophe, add, remove, isMask]
  by_cases comm : c = ecomm
  · subst comm
    by_cases newline : b = 10 <;> simp [newline, add, remove, isMask]
  rw [if_neg quote, if_neg comm]
  by_cases resets : d = c ∨ e.has c = true
  · simp [resets, add, isMask_eq_false_of_ne quote comm, ne_masks_of_isMask basis]
  · simp [resets]

/-- The reset of a mask sets its role on the one byte `reset_syntax_set` names and clears it
elsewhere; the reset of a basis keeps both roles. -/
theorem roles_reset {d : SyntaxCategory} (basis : d.isMask = false) (b : Byte) :
    (e.reset c d b).endsQuote = (if c = rquote then decide (b = 39) else e.endsQuote) ∧
      (e.reset c d b).endsComment = (if c = ecomm then decide (b = 10) else e.endsComment) := by
  unfold reset
  by_cases quote : c = rquote
  · subst quote
    by_cases apostrophe : b = 39 <;> simp [apostrophe, add, remove]
  by_cases comm : c = ecomm
  · subst comm
    by_cases newline : b = 10 <;> simp [newline, add, remove]
  rw [if_neg quote, if_neg comm, if_neg quote, if_neg comm]
  split
  · exact e.roles_add basis
  · exact ⟨rfl, rfl⟩

/-- Two resets in a row give the view its default basis when either of them would alone. -/
theorem basis_reset_reset {d : SyntaxCategory} (basis : d.isMask = false) (b : Byte)
    (c' : SyntaxCategory) :
    ((e.reset c d b).reset c' d b).basis =
      if c.isMask = false ∧ (d = c ∨ e.has c = true) then d
      else if c'.isMask = false ∧ (d = c' ∨ e.has c' = true) then d else e.basis := by
  rw [basis_reset _ _ basis, basis_reset _ _ basis]
  by_cases first : c.isMask = false ∧ (d = c ∨ e.has c = true)
  · simp only [if_pos first, ite_self]
  have same : (e.reset c d b).basis = e.basis := by rw [basis_reset _ _ basis, if_neg first]
  simp only [if_neg first]
  cases mask' : c'.isMask
  · rw [has_of_isMask _ _ mask', has_of_isMask _ _ mask', same]
  · simp

/-- Two resets commute on the view of a byte whose default is a basis. -/
theorem reset_comm {d : SyntaxCategory} (basis : d.isMask = false) (b : Byte)
    (c' : SyntaxCategory) : (e.reset c d b).reset c' d b = (e.reset c' d b).reset c d b := by
  have roles := fun k k' => (roles_reset (e.reset k d b) k' basis b)
  refine ext ?_ ?_ ?_
  · rw [basis_reset_reset _ _ basis, basis_reset_reset _ _ basis]
    split_ifs <;> rfl
  · rw [(roles c c').1, (roles c' c).1, (e.roles_reset c basis b).1,
      (e.roles_reset c' basis b).1]
    split_ifs <;> rfl
  · rw [(roles c c').2, (roles c' c).2, (e.roles_reset c basis b).2,
      (e.roles_reset c' basis b).2]
    split_ifs <;> rfl

/-- A verb of a mask keeps the basis of every byte. -/
theorem verb_basis (action : SyntaxAction) (mask : c.isMask = true) (d : SyntaxCategory)
    (b : Byte) (inS : Bool) : (e.verb action c d b inS).basis = e.basis := by
  rcases eq_masks_of_isMask mask with rfl | rfl <;> cases action <;> cases inS <;>
    simp [verb, subtract, reset, add, remove, isMask] <;> split <;> rfl

end EntrySyntax

instance : DecidableEq EntrySyntax := fun e e' =>
  decidable_of_iff (e.basis = e'.basis ∧ e.endsQuote = e'.endsQuote ∧ e.endsComment = e'.endsComment)
    ⟨fun ⟨basis, quote, comm⟩ => EntrySyntax.ext basis quote comm, by rintro rfl; simp⟩

/-! ## Every entry of a reachable state is an encoding -/

/-- A well-formed entry is the encoding of a view. -/
theorem EntryWF.exists_encode {x : BitVec 16} (wf : EntryWF x) : ∃ e : EntrySyntax, e.encode = x :=
  let ⟨c, basis, bits⟩ := wf
  ⟨⟨c, basis, x.getLsbD 14, x.getLsbD 15⟩, (EntrySyntax.encode_eq_iff _).2 ⟨bits, rfl, rfl⟩⟩

theorem Reachable.exists_encode {s : M4SyntaxTable} (reachable : Reachable s) (b : Byte) :
    ∃ e : EntrySyntax, s.table b = e.encode :=
  let ⟨e, encoded⟩ := (reachable.syntaxInv.entries b).exists_encode
  ⟨e, encoded.symm⟩

/-- The newline of the created table is SPACE and ends a comment. -/
example : m4SyntaxCreate.table 10 = (⟨space, rfl, false, true⟩ : EntrySyntax).encode := by decide

/-! ## The verbs of `m4_set_syntax` -/

/-- The loops of a verb, read at a byte whose entry and default are encodings, are the verb's loop
body on the view. -/
theorem SyntaxAction.table_run_encode (action : SyntaxAction) (s : M4SyntaxTable)
    (chars : List Byte) (c : SyntaxCategory) {b : Byte} {e : EntrySyntax}
    (entry : s.table b = e.encode) {d : SyntaxCategory} (default : s.orig b = d.code) :
    (action.run s chars c.code).table b =
      (e.verb action c d b (decide (b ∈ cstr chars))).encode := by
  rw [table_run, entry]
  cases action <;> by_cases member : b ∈ cstr chars <;>
    simp [EntrySyntax.verb, member, EntrySyntax.subtractEntry_encode,
      setSweepEntry_eq_subtractEntry, EntrySyntax.resetEntry_encode e c default]

/-- From every state, `m4_set_syntax` with a known key changes a byte whose entry encodes a view
and whose default is a basis code as the loop body of its verb says on the view. -/
theorem m4SetSyntax_refines_verb (s : M4SyntaxTable) {key : Byte} {c : SyntaxCategory}
    (known : m4SyntaxCode key = some c) (action : SyntaxAction) (chars : List Byte) {b : Byte}
    {e : EntrySyntax} (entry : s.table b = e.encode) {d : SyntaxCategory}
    (default : s.orig b = d.code) :
    (m4SetSyntax s key action chars).1.table b =
      (e.verb action c d b (decide (b ∈ cstr chars))).encode := by
  rw [table_m4SetSyntax_of_known s chars c known]
  exact action.table_run_encode s chars c entry default

/-- `changesyntax(W=, "-")` on the created table, at the dash, which is OTHER by default. -/
theorem m4SetSyntax_refines_verb_dash :
    m4SyntaxCode 87 = some alpha ∧
      m4SyntaxCreate.table 45 = (⟨other, rfl, false, false⟩ : EntrySyntax).encode ∧
      m4SyntaxCreate.orig 45 = other.code ∧
      (m4SetSyntax m4SyntaxCreate 87 .set [45]).1.table 45 =
        ((⟨other, rfl, false, false⟩ : EntrySyntax).verb .set alpha other 45
          (decide ((45 : Byte) ∈ cstr [45]))).encode :=
  have known : m4SyntaxCode 87 = some alpha := by decide
  have entry : m4SyntaxCreate.table 45 = (⟨other, rfl, false, false⟩ : EntrySyntax).encode := by
    decide
  have default : m4SyntaxCreate.orig 45 = other.code := by decide
  ⟨known, entry, default, m4SetSyntax_refines_verb _ known .set [45] entry default⟩

/-- In every reachable state, for a known key of a category `c` other than IGNORE and every byte:
`+` gives `c` to the bytes of the string; unless `c` is OTHER, `-` takes it from them and `=`
leaves it on exactly them; `+` and `-` leave the other bytes as they were; and the reset verb
leaves `c` on a byte exactly when the full reset puts it there. -/
theorem m4SetSyntax_verbs_purpose {s : M4SyntaxTable} (reachable : Reachable s) {key : Byte}
    {c : SyntaxCategory} (known : m4SyntaxCode key = some c) (notIgnore : c ≠ ignore)
    (chars : List Byte) (b : Byte) :
    (b ∈ cstr chars → m4HasSyntax ((m4SetSyntax s key .add chars).1.table b) c.code = true) ∧
      (c ≠ other → b ∈ cstr chars →
        m4HasSyntax ((m4SetSyntax s key .subtract chars).1.table b) c.code = false) ∧
      (c ≠ other →
        (m4HasSyntax ((m4SetSyntax s key .set chars).1.table b) c.code = true ↔ b ∈ cstr chars)) ∧
      (b ∉ cstr chars → (m4SetSyntax s key .add chars).1.table b = s.table b ∧
        (m4SetSyntax s key .subtract chars).1.table b = s.table b) ∧
      m4HasSyntax ((m4SetSyntax s key .reset chars).1.table b) c.code =
        m4HasSyntax (withDelimiterMasks m4SyntaxOrig b) c.code := by
  obtain ⟨e, entry⟩ := reachable.exists_encode b
  obtain ⟨d, basis, -, default⟩ := m4SyntaxOrig_basis b
  have orig : s.orig b = d.code := by rw [reachable.syntaxInv.orig, default]
  simp only [table_m4SetSyntax_of_known s chars c known,
    SyntaxAction.table_run_encode _ s chars c entry orig, EntrySyntax.m4HasSyntax_encode, entry,
    ← EntrySyntax.encode_byDefault basis default, EntrySyntax.has_reset_self e c d basis b]
  refine ⟨fun member => ?_, fun notOther member => ?_, fun notOther => ?_, fun outside => ?_,
    by simp [EntrySyntax.verb, EntrySyntax.has_reset_self e c d basis b]⟩
  · simp [EntrySyntax.verb, member, e.has_add_self c notIgnore]
  · simp [EntrySyntax.verb, member, e.has_subtract_self c notOther]
  · by_cases member : b ∈ cstr chars
    · simp [EntrySyntax.verb, member, (e.subtract c).has_add_self c notIgnore]
    · simp [EntrySyntax.verb, member, e.has_subtract_self c notOther]
  · simp [EntrySyntax.verb, outside]

/-- `changesyntax(W+, "-")` and its siblings on the created table, at the dash. -/
theorem m4SetSyntax_verbs_purpose_dash :
    Reachable m4SyntaxCreate ∧ m4SyntaxCode 87 = some alpha ∧ alpha ≠ ignore ∧
      ((45 : Byte) ∈ cstr [45] →
        m4HasSyntax ((m4SetSyntax m4SyntaxCreate 87 .add [45]).1.table 45) alpha.code = true) ∧
      (alpha ≠ other → (45 : Byte) ∈ cstr [45] →
        m4HasSyntax ((m4SetSyntax m4SyntaxCreate 87 .subtract [45]).1.table 45) alpha.code =
          false) ∧
      (alpha ≠ other →
        (m4HasSyntax ((m4SetSyntax m4SyntaxCreate 87 .set [45]).1.table 45) alpha.code = true ↔
          (45 : Byte) ∈ cstr [45])) ∧
      ((45 : Byte) ∉ cstr [45] →
        (m4SetSyntax m4SyntaxCreate 87 .add [45]).1.table 45 = m4SyntaxCreate.table 45 ∧
          (m4SetSyntax m4SyntaxCreate 87 .subtract [45]).1.table 45 = m4SyntaxCreate.table 45) ∧
      m4HasSyntax ((m4SetSyntax m4SyntaxCreate 87 .reset [45]).1.table 45) alpha.code =
        m4HasSyntax (withDelimiterMasks m4SyntaxOrig 45) alpha.code :=
  have known : m4SyntaxCode 87 = some alpha := by decide
  have notIgnore : alpha ≠ ignore := by decide
  ⟨.create, known, notIgnore, m4SetSyntax_verbs_purpose .create known notIgnore [45] 45⟩

/-- The mask bits of an encoding are its roles. -/
theorem EntrySyntax.maskBits_encode_eq {e e' : EntrySyntax} (quote : e.endsQuote = e'.endsQuote)
    (comm : e.endsComment = e'.endsComment) : maskBits e.encode = maskBits e'.encode := by
  have basis : ∀ f : EntrySyntax, maskBits f.basis.code = 0 := fun f =>
    (code_and_masks f.basis).2 f.isBasis
  simp only [EntrySyntax.encode, maskBits_or, basis, quote, comm]

/-- In every reachable state, `m4_set_syntax` with a key of a basis category never changes which
bytes end a quote or a comment, and with a key of a mask never changes the basis of a byte. -/
theorem m4SetSyntax_layers_independent {s : M4SyntaxTable} (reachable : Reachable s) {key : Byte}
    {c : SyntaxCategory} (known : m4SyntaxCode key = some c) (action : SyntaxAction)
    (chars : List Byte) (b : Byte) :
    (c.isMask = false →
        maskBits ((m4SetSyntax s key action chars).1.table b) = maskBits (s.table b)) ∧
      (c.isMask = true →
        basisBits ((m4SetSyntax s key action chars).1.table b) = basisBits (s.table b)) := by
  obtain ⟨e, entry⟩ := reachable.exists_encode b
  obtain ⟨d, default, -, origCode⟩ := m4SyntaxOrig_basis b
  have orig : s.orig b = d.code := by rw [reachable.syntaxInv.orig, origCode]
  rw [table_m4SetSyntax_of_known s chars c known, action.table_run_encode s chars c entry orig,
    entry]
  refine ⟨fun basis => ?_, fun mask => ?_⟩
  · obtain ⟨quote, comm⟩ := e.verb_roles c action basis default b _
    exact EntrySyntax.maskBits_encode_eq quote comm
  · rw [EntrySyntax.basisBits_encode, EntrySyntax.basisBits_encode, e.verb_basis c action mask]

/-- `changesyntax(R=, "]")` on the created table, at the apostrophe. -/
theorem m4SetSyntax_layers_independent_bracket :
    Reachable m4SyntaxCreate ∧ m4SyntaxCode 82 = some rquote ∧
      (rquote.isMask = false →
        maskBits ((m4SetSyntax m4SyntaxCreate 82 .set [93]).1.table 39) =
          maskBits (m4SyntaxCreate.table 39)) ∧
      (rquote.isMask = true →
        basisBits ((m4SetSyntax m4SyntaxCreate 82 .set [93]).1.table 39) =
          basisBits (m4SyntaxCreate.table 39)) :=
  have known : m4SyntaxCode 82 = some rquote := by decide
  ⟨.create, known, m4SetSyntax_layers_independent .create known .set [93] 39⟩

/-! ## The resets commute -/

/-- After the full reset of a reachable state, the reset verb of any key leaves the table of the
full reset: `reset_syntax_set` puts RQUOTE on the apostrophe and ECOMM on newline, as the full
reset does from `DEF_RQUOTE` and `DEF_ECOMM`, and every other entry back to its default. -/
theorem table_reset_restoreDefaultSyntax {s : M4SyntaxTable} (reachable : Reachable s)
    (key : Byte) (chars : List Byte) :
    (m4SetSyntax (restoreDefaultSyntax s) key .reset chars).1.table =
      withDelimiterMasks m4SyntaxOrig := by
  have reset : Reachable (restoreDefaultSyntax s) := reachable.step (.setSyntax 0 .reset [])
  have full : (restoreDefaultSyntax s).table = withDelimiterMasks m4SyntaxOrig := by
    rw [restoreDefaultSyntax_table, reachable.syntaxInv.orig]
  by_cases nul : key = 0
  · rw [m4SetSyntax, if_pos nul, restoreDefaultSyntax_table, reset.syntaxInv.orig]
  cases known : m4SyntaxCode key with
  | none => simpa [m4SetSyntax, nul, known] using full
  | some c =>
      funext b
      obtain ⟨d, basis, -, default⟩ := m4SyntaxOrig_basis b
      have orig : (restoreDefaultSyntax s).orig b = d.code := by rw [reset.syntaxInv.orig, default]
      have entry : (restoreDefaultSyntax s).table b = (EntrySyntax.byDefault d basis b).encode := by
        rw [full, EntrySyntax.encode_byDefault basis default]
      rw [table_m4SetSyntax_of_known _ chars c known,
        SyntaxAction.table_run_encode _ _ chars c entry orig]
      simp only [EntrySyntax.verb, EntrySyntax.reset_byDefault]
      exact EntrySyntax.encode_byDefault basis default

/-- The full reset and a reset verb of any key, from a reachable state, leave the same table in
either order. -/
theorem table_fullReset_reset_comm {s : M4SyntaxTable} (reachable : Reachable s)
    (chars : List Byte) (key : Byte) (chars' : List Byte) :
    (m4SetSyntax (m4SetSyntax s 0 .reset chars).1 key .reset chars').1.table =
      (m4SetSyntax (m4SetSyntax s key .reset chars').1 0 .reset chars).1.table := by
  have after : Reachable (m4SetSyntax s key .reset chars').1 :=
    reachable.step (.setSyntax key .reset chars')
  have full : ∀ t : M4SyntaxTable, (m4SetSyntax t 0 .reset chars).1 = restoreDefaultSyntax t :=
    fun t => by rw [m4SetSyntax, if_pos rfl]
  rw [full, full, table_reset_restoreDefaultSyntax reachable, restoreDefaultSyntax_table,
    after.syntaxInv.orig]

/-- Two reset calls with known keys from a reachable state, read at a byte whose entry encodes a
view, are the two resets on the view. -/
theorem table_reset_reset {s : M4SyntaxTable} (reachable : Reachable s) {key key' : Byte}
    {c c' : SyntaxCategory} (known : m4SyntaxCode key = some c)
    (known' : m4SyntaxCode key' = some c') (chars chars' : List Byte) {b : Byte}
    {e : EntrySyntax} (entry : s.table b = e.encode) {d : SyntaxCategory}
    (default : m4SyntaxOrig b = d.code) :
    (m4SetSyntax (m4SetSyntax s key .reset chars).1 key' .reset chars').1.table b =
      ((e.reset c d b).reset c' d b).encode := by
  have orig : ∀ {t : M4SyntaxTable}, Reachable t → t.orig b = d.code := fun reachable => by
    rw [reachable.syntaxInv.orig, default]
  have first : (m4SetSyntax s key .reset chars).1.table b = (e.reset c d b).encode := by
    rw [table_m4SetSyntax_of_known s chars c known,
      SyntaxAction.table_run_encode _ s chars c entry (orig reachable)]
    rfl
  rw [table_m4SetSyntax_of_known _ chars' c' known', SyntaxAction.table_run_encode _ _ chars' c'
    first (orig (reachable.step (.setSyntax key .reset chars)))]
  rfl

/-- From every reachable state, two calls of `m4_set_syntax` with the reset verb leave the same
table in either order, whatever their keys: NUL, unknown or known. -/
theorem m4SetSyntax_resets_commute {s : M4SyntaxTable} (reachable : Reachable s) (key key' : Byte)
    (chars chars' : List Byte) :
    (m4SetSyntax (m4SetSyntax s key .reset chars).1 key' .reset chars').1.table =
      (m4SetSyntax (m4SetSyntax s key' .reset chars').1 key .reset chars).1.table := by
  by_cases nul : key = 0
  · subst nul
    exact table_fullReset_reset_comm reachable chars key' chars'
  by_cases nul' : key' = 0
  · subst nul'
    exact (table_fullReset_reset_comm reachable chars' key chars).symm
  have unknown : ∀ {k : Byte}, k ≠ 0 → m4SyntaxCode k = none →
      ∀ t chars, (m4SetSyntax t k .reset chars).1 = t := fun nonzero known t chars => by
    simp [m4SetSyntax, nonzero, known]
  cases known : m4SyntaxCode key with
  | none => rw [unknown nul known, unknown nul known]
  | some c =>
      cases known' : m4SyntaxCode key' with
      | none => rw [unknown nul' known', unknown nul' known']
      | some c' =>
          funext b
          obtain ⟨e, entry⟩ := reachable.exists_encode b
          obtain ⟨d, basis, -, default⟩ := m4SyntaxOrig_basis b
          rw [table_reset_reset reachable known known' chars chars' entry default,
            table_reset_reset reachable known' known chars' chars entry default,
            e.reset_comm c basis b c']

/-- `changesyntax(D)` and `changesyntax(W)`, in either order, after `changesyntax(D+, "x")`. -/
theorem m4SetSyntax_resets_commute_digits :
    let s := (m4SetSyntax m4SyntaxCreate 68 .add [120]).1
    Reachable s ∧
      (m4SetSyntax (m4SetSyntax s 68 .reset []).1 87 .reset []).1.table =
        (m4SetSyntax (m4SetSyntax s 87 .reset []).1 68 .reset []).1.table :=
  have reachable := Reachable.create.step (.setSyntax 68 .add [120])
  ⟨reachable, m4SetSyntax_resets_commute reachable 68 87 [] []⟩

end M4Syntax
