import Mathlib.Logic.Function.Basic

/-!
# Syntax categories and table entries

The syntax table of `syntax.c` classifies every byte of input by a 16-bit entry. A basis
category (IGNORE, OTHER, SPACE, OPEN, CLOSE, COMMA, DOLLAR, LBRACE, RBRACE, ACTIVE, ESCAPE,
ALPHA, NUM, LQUOTE, BCOMM) sits in the low bits, and the two mask categories RQUOTE and ECOMM
are bits ORed onto it, so that newline can be SPACE and end a comment at once.

The values of the codes live in `m4module.h`, which is not among the sources; `SyntaxCategory.code`
takes them from the layout the spec describes, in the order `m4_syntax_code` follows, with
IGNORE the empty basis. `m4_has_syntax` is a bit test (`m4HasSyntax`), and
`add_syntax_attribute` and `remove_syntax_attribute` are the two writes.

An entry is read through its basis bits and its mask bits, which together determine it
(`entry_ext`). A basis write replaces the basis bits and keeps the masks
(`basisBits_addSyntaxAttribute`, `maskBits_addSyntaxAttribute`); a mask write and a mask
removal touch only the masks. The bit test of a basis code looks at the basis bits only
(`m4HasSyntax_basis`), and on the code of a category it is equality of categories, except for
IGNORE, which no bit test sees (`m4HasSyntax_code_code`).
-/

set_option autoImplicit false

namespace M4Syntax

/-- A byte of input, as `to_uchar` reads it. -/
abbrev Byte := Fin 256

/-- The syntax categories `M4_SYNTAX_*`, in the order of `m4_syntax_code`. -/
inductive SyntaxCategory
  | ignore | escape | alpha | lquote | bcomm | other | num | dollar | lbrace | rbrace
  | space | active | «open» | close | comma | rquote | ecomm
  deriving DecidableEq, Repr

namespace SyntaxCategory

/-- Modelled from the spec: the values of `M4_SYNTAX_*`, declared in `m4module.h`, which is
not part of the sources. IGNORE is the empty basis, each other basis category is one of the
low fourteen bits, and the masks RQUOTE and ECOMM are the two top bits. -/
def code : SyntaxCategory → BitVec 16
  | ignore => 0x0000#16
  | escape => 0x0001#16
  | alpha => 0x0002#16
  | lquote => 0x0004#16
  | bcomm => 0x0008#16
  | other => 0x0010#16
  | num => 0x0020#16
  | dollar => 0x0040#16
  | lbrace => 0x0080#16
  | rbrace => 0x0100#16
  | space => 0x0200#16
  | active => 0x0400#16
  | «open» => 0x0800#16
  | close => 0x1000#16
  | comma => 0x2000#16
  | rquote => 0x4000#16
  | ecomm => 0x8000#16

/-- RQUOTE and ECOMM are masks; every other category is a basis. -/
def isMask : SyntaxCategory → Bool
  | rquote | ecomm => true
  | _ => false

end SyntaxCategory

open SyntaxCategory

/-- `m4_syntax_code`: the category a key of `changesyntax` names, `none` for `-1`. -/
def m4SyntaxCode (key : Byte) : Option SyntaxCategory :=
  match Char.ofNat key.val with
  | 'I' | 'i' => some ignore
  | '@' => some escape
  | 'W' | 'w' => some alpha
  | 'L' | 'l' => some lquote
  | 'B' | 'b' => some bcomm
  | 'O' | 'o' => some other
  | 'D' | 'd' => some num
  | '$' => some dollar
  | '{' => some lbrace
  | '}' => some rbrace
  | 'S' | 's' => some space
  | 'A' | 'a' => some active
  | '(' => some «open»
  | ')' => some close
  | ',' => some comma
  | 'R' | 'r' => some rquote
  | 'E' | 'e' => some ecomm
  | _ => none

/-- `M4_SYNTAX_MASKS`. -/
def syntaxMasks : BitVec 16 := rquote.code ||| ecomm.code

/-- `m4_has_syntax` on the entry `table[ch]`: does it share a bit with `code`? -/
def m4HasSyntax (entry code : BitVec 16) : Bool := (entry &&& code) != 0

/-- `add_syntax_attribute`: the new value of `table[ch]`, which it also returns. A mask is
ORed in; a basis replaces the basis bits and keeps the masks. -/
def addSyntaxAttribute (entry code : BitVec 16) : BitVec 16 :=
  if (code &&& syntaxMasks) != 0 then entry ||| code else (entry &&& syntaxMasks) ||| code

/-- `remove_syntax_attribute`: the new value of `table[ch]`, with the bits of `code` cleared. -/
def removeSyntaxAttribute (entry code : BitVec 16) : BitVec 16 := entry &&& ~~~code

/-- The basis bits of an entry (`M4_SYNTAX_VALUE`). -/
def basisBits (entry : BitVec 16) : BitVec 16 := entry &&& ~~~syntaxMasks

/-- The mask bits of an entry. -/
def maskBits (entry : BitVec 16) : BitVec 16 := entry &&& syntaxMasks

/-! ## The code table -/

theorem code_and_code (b c : SyntaxCategory) :
    (b.code &&& c.code ≠ 0) ↔ (b = c ∧ b ≠ ignore) := by
  cases b <;> cases c <;> decide

theorem code_inj {b c : SyntaxCategory} : b.code = c.code ↔ b = c := by
  refine ⟨fun same => ?_, congrArg code⟩
  by_cases basis : b = ignore
  · subst basis
    cases c <;> first | rfl | exact absurd same (by decide)
  · have own : b.code &&& b.code ≠ 0 := (code_and_code b b).2 ⟨rfl, basis⟩
    exact ((code_and_code b c).1 (by rwa [← same])).1

theorem code_and_masks (c : SyntaxCategory) :
    c.code &&& syntaxMasks = 0 ↔ c.isMask = false := by
  cases c <;> decide

theorem code_and_masks_ne {c : SyntaxCategory} (mask : c.isMask = true) :
    c.code &&& syntaxMasks ≠ 0 := fun zero => by
  simp [(code_and_masks c).1 zero] at mask

theorem code_and_not_masks {c : SyntaxCategory} (mask : c.isMask = true) :
    c.code &&& ~~~syntaxMasks = 0 := by
  cases c <;> first | rfl | simp [isMask] at mask

/-- A mask code written under a condition stays inside the masks. -/
theorem ite_code_and_not_masks {c : SyntaxCategory} (mask : c.isMask = true) (p : Prop)
    [Decidable p] : (if p then c.code else 0) &&& ~~~syntaxMasks = 0 := by
  split
  · exact code_and_not_masks mask
  · rfl

/-- The bit test of one category's code on another's is equality, IGNORE apart. -/
theorem m4HasSyntax_code_code (b c : SyntaxCategory) :
    m4HasSyntax b.code c.code = (b == c && b != ignore) := by
  rw [Bool.eq_iff_iff]
  simpa [m4HasSyntax] using code_and_code b c

/-! ## Basis bits and mask bits -/

section Bits

variable {x y c : BitVec 16}

/-- Bit `i` of a conjunction that is zero. -/
theorem getLsbD_of_and_eq_zero (zero : x &&& y = 0) (i : Nat) :
    (x.getLsbD i && y.getLsbD i) = false := by
  simpa using congrArg (BitVec.getLsbD · i) zero

theorem entry_ext (basis : basisBits x = basisBits y) (masks : maskBits x = maskBits y) :
    x = y := by
  ext i
  have hb := congrArg (BitVec.getLsbD · i) basis
  have hm := congrArg (BitVec.getLsbD · i) masks
  simp only [basisBits, maskBits, BitVec.getLsbD_and, BitVec.getLsbD_not, i.isLt,
    decide_True, Bool.true_and] at hb hm
  cases mask : syntaxMasks.getLsbD i
  · simpa only [mask, Bool.not_false, Bool.and_true] using hb
  · simpa only [mask, Bool.and_true] using hm

theorem basisBits_maskBits_or (disjoint : c &&& syntaxMasks = 0) :
    basisBits (maskBits x ||| c) = c := by
  ext i
  have h := getLsbD_of_and_eq_zero disjoint i
  simp only [basisBits, maskBits, BitVec.getLsbD_and, BitVec.getLsbD_or, BitVec.getLsbD_not,
    i.isLt, decide_True, Bool.true_and]
  revert h
  cases c.getLsbD i <;> cases syntaxMasks.getLsbD i <;> simp

theorem maskBits_maskBits_or (disjoint : c &&& syntaxMasks = 0) :
    maskBits (maskBits x ||| c) = maskBits x := by
  ext i
  have h := getLsbD_of_and_eq_zero disjoint i
  simp only [maskBits, BitVec.getLsbD_and, BitVec.getLsbD_or]
  revert h
  cases c.getLsbD i <;> cases syntaxMasks.getLsbD i <;> simp

theorem basisBits_or_of_inMasks (inMasks : c &&& ~~~syntaxMasks = 0) :
    basisBits (x ||| c) = basisBits x := by
  ext i
  have h := getLsbD_of_and_eq_zero inMasks i
  simp only [basisBits, BitVec.getLsbD_and, BitVec.getLsbD_or, BitVec.getLsbD_not, i.isLt,
    decide_True, Bool.true_and] at h ⊢
  revert h
  cases c.getLsbD i <;> cases syntaxMasks.getLsbD i <;> simp

theorem maskBits_or : maskBits (x ||| c) = maskBits x ||| maskBits c := by
  ext i
  simp only [maskBits, BitVec.getLsbD_and, BitVec.getLsbD_or]
  cases syntaxMasks.getLsbD i <;> simp

theorem basisBits_and_not_of_inMasks (inMasks : c &&& ~~~syntaxMasks = 0) :
    basisBits (x &&& ~~~c) = basisBits x := by
  ext i
  have h := getLsbD_of_and_eq_zero inMasks i
  simp only [basisBits, BitVec.getLsbD_and, BitVec.getLsbD_not, i.isLt, decide_True,
    Bool.true_and] at h ⊢
  revert h
  cases c.getLsbD i <;> cases syntaxMasks.getLsbD i <;> simp

theorem maskBits_and_not : maskBits (x &&& ~~~c) = maskBits x &&& ~~~c := by
  ext i
  simp only [maskBits, BitVec.getLsbD_and, BitVec.getLsbD_not, i.isLt, decide_True,
    Bool.true_and]
  cases syntaxMasks.getLsbD i <;> cases c.getLsbD i <;> simp

/-- The bit test of a code outside the masks reads the basis bits only. -/
theorem m4HasSyntax_basis (disjoint : c &&& syntaxMasks = 0) :
    m4HasSyntax x c = m4HasSyntax (basisBits x) c := by
  have same : x &&& c = basisBits x &&& c := by
    ext i
    have h := getLsbD_of_and_eq_zero disjoint i
    simp only [basisBits, BitVec.getLsbD_and, BitVec.getLsbD_not, i.isLt, decide_True,
      Bool.true_and]
    revert h
    cases c.getLsbD i <;> cases syntaxMasks.getLsbD i <;> simp
  rw [m4HasSyntax, same, m4HasSyntax]

/-- The bit test of a code inside the masks reads the mask bits only. -/
theorem m4HasSyntax_mask (inMasks : c &&& ~~~syntaxMasks = 0) :
    m4HasSyntax x c = m4HasSyntax (maskBits x) c := by
  have same : x &&& c = maskBits x &&& c := by
    ext i
    have h := getLsbD_of_and_eq_zero inMasks i
    simp only [maskBits, BitVec.getLsbD_and, BitVec.getLsbD_not, i.isLt, decide_True,
      Bool.true_and] at h ⊢
    revert h
    cases c.getLsbD i <;> cases syntaxMasks.getLsbD i <;> simp
  rw [m4HasSyntax, same, m4HasSyntax]

theorem or_eq_zero_iff : x ||| y = 0 ↔ x = 0 ∧ y = 0 := by
  refine ⟨fun zero => ?_, fun ⟨hx, hy⟩ => by rw [hx, hy]; rfl⟩
  have bits : ∀ i, x.getLsbD i = false ∧ y.getLsbD i = false := fun i => by
    simpa using congrArg (BitVec.getLsbD · i) zero
  exact ⟨by ext i; simp [(bits i).1], by ext i; simp [(bits i).2]⟩

theorem m4HasSyntax_or_code {a b : BitVec 16} :
    m4HasSyntax x (a ||| b) = (m4HasSyntax x a || m4HasSyntax x b) := by
  have split : x &&& (a ||| b) = (x &&& a) ||| (x &&& b) := by
    ext i
    simp only [BitVec.getLsbD_and, BitVec.getLsbD_or]
    cases x.getLsbD i <;> simp
  rw [Bool.eq_iff_iff]
  simp only [m4HasSyntax, split, bne_iff_ne, ne_eq, or_eq_zero_iff, not_and_or,
    Bool.or_eq_true]

end Bits

/-! ## The two writes on category codes -/

section Writes

variable (x : BitVec 16) {c : SyntaxCategory}

theorem addSyntaxAttribute_basis (basis : c.isMask = false) :
    addSyntaxAttribute x c.code = maskBits x ||| c.code := by
  simp [addSyntaxAttribute, (code_and_masks c).2 basis, maskBits]

theorem addSyntaxAttribute_mask (mask : c.isMask = true) :
    addSyntaxAttribute x c.code = x ||| c.code := by
  simp only [addSyntaxAttribute, bne_iff_ne, ne_eq, code_and_masks_ne mask, not_false_eq_true,
    ite_true]

theorem basisBits_addSyntaxAttribute (basis : c.isMask = false) :
    basisBits (addSyntaxAttribute x c.code) = c.code := by
  rw [addSyntaxAttribute_basis x basis, basisBits_maskBits_or ((code_and_masks c).2 basis)]

theorem maskBits_addSyntaxAttribute (basis : c.isMask = false) :
    maskBits (addSyntaxAttribute x c.code) = maskBits x := by
  rw [addSyntaxAttribute_basis x basis, maskBits_maskBits_or ((code_and_masks c).2 basis)]

end Writes

end M4Syntax
