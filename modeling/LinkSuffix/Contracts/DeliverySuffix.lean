import LinkSuffix.Text

/-!
# `deliverySuffixIssue`

The check a suffix passes before it is enqueued, leased or acknowledged (`captureSafety.ts`): the
fields `URLSearchParams` reads from it hold no Cloudflare challenge parameter and no empty click
identifier. The reading is the WHATWG form decoder: split on `&`, then on the first `=`, `+` is a
space, percent escapes are bytes, and the bytes are decoded as UTF-8 with replacement.
-/

namespace LinkSuffix

/-! ## The form decoder -/

/-- The UTF-8 bytes of a code point. -/
def utf8Encode (c : Char) : List Nat :=
  let n := c.toNat
  if n < 0x80 then [n]
  else if n < 0x800 then [0xC0 + n / 64, 0x80 + n % 64]
  else if n < 0x10000 then [0xE0 + n / 4096, 0x80 + n / 64 % 64, 0x80 + n % 64]
  else [0xF0 + n / 262144, 0x80 + n / 4096 % 64, 0x80 + n / 64 % 64, 0x80 + n % 64]

/-- The decoder between two bytes: continuation bytes still needed, the range the next one must
lie in, and the code point so far. -/
structure Utf8State where
  needed : Nat
  lower : Nat
  upper : Nat
  codePoint : Nat
  deriving DecidableEq

def Utf8State.initial : Utf8State := ⟨0, 0x80, 0xBF, 0⟩

def replacement : Char := Char.ofNat 0xFFFD

/-- A byte where a sequence may start. -/
def utf8Lead (b : Nat) : List Char × Utf8State :=
  if b ≤ 0x7F then ([Char.ofNat b], .initial)
  else if 0xC2 ≤ b ∧ b ≤ 0xDF then ([], ⟨1, 0x80, 0xBF, b - 0xC0⟩)
  else if 0xE0 ≤ b ∧ b ≤ 0xEF then
    ([], ⟨2, if b = 0xE0 then 0xA0 else 0x80, if b = 0xED then 0x9F else 0xBF, b - 0xE0⟩)
  else if 0xF0 ≤ b ∧ b ≤ 0xF4 then
    ([], ⟨3, if b = 0xF0 then 0x90 else 0x80, if b = 0xF4 then 0x8F else 0xBF, b - 0xF0⟩)
  else ([replacement], .initial)

/-- One byte. A byte out of range ends the broken sequence and is read again as a lead. -/
def utf8Step (st : Utf8State) (b : Nat) : List Char × Utf8State :=
  if st.needed = 0 then utf8Lead b
  else if b < st.lower ∨ st.upper < b then
    (replacement :: (utf8Lead b).1, (utf8Lead b).2)
  else
    let cp := st.codePoint * 64 + (b - 0x80)
    if st.needed = 1 then ([Char.ofNat cp], .initial) else ([], ⟨st.needed - 1, 0x80, 0xBF, cp⟩)

/-- UTF-8 decode without BOM. -/
def utf8Decode : Utf8State → List Nat → List Char
  | st, [] => if st.needed = 0 then [] else [replacement]
  | st, b :: bs => (utf8Step st b).1 ++ utf8Decode (utf8Step st b).2 bs

/-- The value of a hexadecimal digit. -/
def hexValue (c : Char) : Option Nat :=
  if '0' ≤ c ∧ c ≤ '9' then some (c.toNat - 48)
  else if 'a' ≤ c ∧ c ≤ 'f' then some (c.toNat - 87)
  else if 'A' ≤ c ∧ c ≤ 'F' then some (c.toNat - 55)
  else none

/-- Percent-decode, with `+` read as a space. -/
def percentDecode : List Char → List Nat
  | '%' :: a :: b :: cs =>
    match hexValue a, hexValue b with
    | some x, some y => (16 * x + y) :: percentDecode cs
    | _, _ => utf8Encode '%' ++ percentDecode (a :: b :: cs)
  | '+' :: cs => 0x20 :: percentDecode cs
  | c :: cs => utf8Encode c ++ percentDecode cs
  | [] => []

def decodeField (cs : List Char) : String :=
  String.ofList (utf8Decode .initial (percentDecode cs))

/-- The pieces of `cs` between separators `sep`. -/
def splitOnChar (sep : Char) : List Char → List (List Char)
  | [] => [[]]
  | c :: cs =>
    match splitOnChar sep cs with
    | [] => [[c]]
    | p :: ps => if c = sep then [] :: p :: ps else (c :: p) :: ps

/-- `new URLSearchParams(value)`: the decoded name/value pairs in order. -/
def searchParams (value : String) : List (String × String) :=
  let cs := match value.toList with
    | '?' :: cs => cs
    | cs => cs
  ((splitOnChar '&' cs).filter (· ≠ [])).map fun piece =>
    (decodeField (piece.takeWhile (· ≠ '=')), decodeField ((piece.dropWhile (· ≠ '=')).drop 1))

/-! ## The check -/

/-- ASCII lower case: what a case-insensitive match without the `u` flag folds. -/
def asciiLower (s : String) : String := String.ofList (s.toList.map Char.toLower)

/-- `/^(?:__cf_chl(?:_|$)|cf_chl_(?:prog|seq)$)/i`. -/
def isChallengeKey (key : String) : Bool :=
  let k := asciiLower key
  k = "__cf_chl" || hasPrefix "__cf_chl_" k || k = "cf_chl_prog" || k = "cf_chl_seq"

/-- `/^(?:irclickid|im_ref)$/i`. -/
def isClickIdentifier (key : String) : Bool :=
  let k := asciiLower key
  k = "irclickid" || k = "im_ref"

/-- The loop of `deliverySuffixIssue`: the last empty identifier seen is the one reported, and a
challenge parameter ends the loop. -/
def suffixIssueLoop : Option String → List (String × String) → Option String
  | incomplete, [] => incomplete.map fun key =>
    "Invalid final URL suffix: empty tracking identifier " ++ key ++
      "; preserve the last valid suffix"
  | incomplete, (key, field) :: rest =>
    if isChallengeKey key then
      some "Invalid final URL suffix: Cloudflare challenge parameters cannot be delivered"
    else
      suffixIssueLoop
        (if isClickIdentifier key && trim field = "" then some (asciiLower key) else incomplete)
        rest

/-- `deliverySuffixIssue` on a string. -/
def deliverySuffixIssue (value : String) : Option String :=
  suffixIssueLoop none (searchParams value)

example : deliverySuffixIssue "a=%2f&a=three%20words&empty=" = none := by decide

example : deliverySuffixIssue "irclickid=%20&x=1" =
    some ("Invalid final URL suffix: empty tracking identifier irclickid; " ++
      "preserve the last valid suffix") := by decide

end LinkSuffix
