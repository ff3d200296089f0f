import Mathlib.Algebra.GroupWithZero.Nat
import Mathlib.Data.String.Basic

/-!
# Text as the services see it

The JavaScript string operations the modelled functions use, over the code points of a string:
`trim`, digit stripping, and the fixed regular expressions the identifiers are checked against.
-/

namespace LinkSuffix

/-- A check of every character of a text runs over the text, not over all characters. -/
instance decidableText (p : Char → Prop) [DecidablePred p] (cs : List Char) :
    Decidable (∀ c ∈ cs, p c) := List.decidableBAll p cs

/-- The characters `String.prototype.trim` strips. -/
def isJsSpace (c : Char) : Bool :=
  c ∈ ['\t', '\n', '\x0b', '\x0c', '\r', ' ', '\u00a0', '\u1680', '\u2028', '\u2029', '\u202f',
    '\u205f', '\u3000', '\ufeff'] || ('\u2000' ≤ c && c ≤ '\u200a')

/-- `value.trim()`. -/
def trim (value : String) : String :=
  String.ofList ((value.toList.dropWhile isJsSpace).reverse.dropWhile isJsSpace).reverse

/-- `value.length`: UTF-16 code units. -/
def utf16Length (value : String) : Nat :=
  (value.toList.map fun c => if c.toNat < 0x10000 then 1 else 2).sum

/-- The first `n` UTF-16 code units. A surrogate pair cut in half is stored as U+FFFD. -/
def sliceChars : Nat → List Char → List Char
  | 0, _ => []
  | _, [] => []
  | 1, c :: _ => if c.toNat < 0x10000 then [c] else [Char.ofNat 0xFFFD]
  | n + 2, c :: cs => c :: sliceChars (if c.toNat < 0x10000 then n + 1 else n) cs

/-- `value.slice(0, n)`. -/
def sliceTo (n : Nat) (value : String) : String := String.ofList (sliceChars n value.toList)

/-- `normalizeId`: `value.replace(/\D/g, "")`. -/
def normalizeId (value : String) : String := String.ofList (value.toList.filter Char.isDigit)

/-- `/^\d{lo,hi}$/`. -/
def isDigits (lo hi : Nat) (value : String) : Bool :=
  value.toList.all Char.isDigit && lo ≤ value.length && value.length ≤ hi

/-- The tail characters of a shard name. -/
def isShardChar (c : Char) : Bool := c.isAlphanum || c ∈ ['.', '_', ':', '-']

/-- `/^[A-Za-z0-9][A-Za-z0-9._:-]{0,79}$/`. -/
def isShardId (value : String) : Bool :=
  match value.toList with
  | [] => false
  | c :: cs => c.isAlphanum && cs.all isShardChar && cs.length ≤ 79

/-- `value.startsWith(prefix)`, and SQL `LIKE 'prefix%'` for a prefix without wildcards. -/
def hasPrefix (pre value : String) : Bool := pre.toList.isPrefixOf value.toList

/-- `String(n).padStart(3, "0")`. -/
def padStart3 (n : Nat) : String :=
  let digits := (toString n).toList
  String.ofList (List.replicate (3 - digits.length) '0' ++ digits)

/-- `Number(digits)` of a nonempty run of digits. -/
def parseDigits (cs : List Char) : Option Nat :=
  if cs ≠ [] ∧ cs.all Char.isDigit then
    some (cs.foldl (fun n c => 10 * n + (c.toNat - '0'.toNat)) 0)
  else none

/-! ## Space -/

theorem digit_not_space {c : Char} (h : c.isDigit = true) : isJsSpace c = false := by
  unfold Char.isDigit at h
  simp only [Bool.and_eq_true, decide_eq_true_eq] at h
  refine Bool.eq_false_iff.mpr fun hs => ?_
  unfold isJsSpace at hs
  simp only [Bool.or_eq_true, decide_eq_true_eq, Bool.and_eq_true] at hs
  rcases hs with hs | hs
  · simp only [List.mem_cons, List.not_mem_nil, or_false] at hs
    rcases hs with rfl | rfl | rfl | rfl | rfl | rfl | rfl | rfl | rfl | rfl | rfl | rfl | rfl | rfl
    all_goals exact absurd h (by decide)
  · have hlo : 0x2000 ≤ c.toNat := UInt32.le_iff_toNat_le.mp hs.1
    have hhi : c.toNat ≤ 57 := UInt32.le_iff_toNat_le.mp h.2
    omega

/-- A text without space is trimmed already. -/
theorem trim_eq {value : String} (h : ∀ c ∈ value.toList, isJsSpace c = false) :
    trim value = value := by
  have hdrop (cs : List Char) (hcs : ∀ c ∈ cs, isJsSpace c = false) :
      cs.dropWhile isJsSpace = cs := by
    cases cs with
    | nil => rfl
    | cons c cs => rw [List.dropWhile_cons_of_neg (by simp [hcs c List.mem_cons_self])]
  unfold trim
  rw [hdrop _ h, hdrop _ fun c hc => h c (List.mem_reverse.mp hc), List.reverse_reverse,
    String.ofList_toList]

end LinkSuffix
