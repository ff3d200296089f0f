import Mathlib.Tactic.Common

/-!
# Base64

The `base64url` encoding of bytes without padding, and the lenient decoding that reads both
alphabets and skips every other character.

* `decode_encode`: what is encoded is decoded.
* `encode_length`: four characters for three bytes.
-/

namespace LinkSuffix.Base64

/-- The character of a sextet. -/
def sextetChar (n : Nat) : Char :=
  if n < 26 then Char.ofNat (65 + n)
  else if n < 52 then Char.ofNat (71 + n)
  else if n < 62 then Char.ofNat (n - 4)
  else if n = 62 then '-'
  else '_'

/-- The sextet of a character, in either alphabet. -/
def sextet (c : Char) : Option Nat :=
  if 'A' ≤ c ∧ c ≤ 'Z' then some (c.toNat - 65)
  else if 'a' ≤ c ∧ c ≤ 'z' then some (c.toNat - 71)
  else if '0' ≤ c ∧ c ≤ '9' then some (c.toNat + 4)
  else if c = '-' ∨ c = '+' then some 62
  else if c = '_' ∨ c = '/' then some 63
  else none

/-- Bytes in sextets, the last one filled up with zeros. -/
def sextets : List Nat → List Nat
  | a :: b :: c :: bytes =>
    a / 4 :: (a % 4 * 16 + b / 16) :: (b % 16 * 4 + c / 64) :: c % 64 :: sextets bytes
  | [a, b] => [a / 4, a % 4 * 16 + b / 16, b % 16 * 4]
  | [a] => [a / 4, a % 4 * 16]
  | [] => []

/-- The whole bytes of sextets. -/
def bytes : List Nat → List Nat
  | w :: x :: y :: z :: rest =>
    (w * 4 + x / 16) :: (x % 16 * 16 + y / 4) :: (y % 4 * 64 + z) :: bytes rest
  | [w, x, y] => [w * 4 + x / 16, x % 16 * 16 + y / 4]
  | [w, x] => [w * 4 + x / 16]
  | _ => []

def encode (bs : List Nat) : List Char := (sextets bs).map sextetChar

def decode (cs : List Char) : List Nat := bytes (cs.filterMap sextet)

theorem sextet_sextetChar : ∀ n < 64, sextet (sextetChar n) = some n := by decide

theorem sextets_lt {bs : List Nat} (h : ∀ b ∈ bs, b < 256) : ∀ n ∈ sextets bs, n < 64 := by
  induction bs using sextets.induct with
  | case1 a b c bs ih =>
    obtain ⟨ha, hb, hc, hbs⟩ : a < 256 ∧ b < 256 ∧ c < 256 ∧ ∀ b ∈ bs, b < 256 := by simpa using h
    have hrest := ih hbs
    simp only [sextets, List.forall_mem_cons]
    exact ⟨by omega, by omega, by omega, by omega, hrest⟩
  | case2 a b =>
    obtain ⟨ha, hb⟩ : a < 256 ∧ b < 256 := by simpa using h
    simp only [sextets, List.forall_mem_cons]
    exact ⟨by omega, by omega, by omega, fun _ hn => nomatch hn⟩
  | case3 a =>
    have ha : a < 256 := by simpa using h
    simp only [sextets, List.forall_mem_cons]
    exact ⟨by omega, by omega, fun _ hn => nomatch hn⟩
  | case4 => exact fun _ hn => nomatch hn

theorem bytes_sextets {bs : List Nat} (h : ∀ b ∈ bs, b < 256) : bytes (sextets bs) = bs := by
  induction bs using sextets.induct with
  | case1 a b c bs ih =>
    obtain ⟨ha, hb, hc, hbs⟩ : a < 256 ∧ b < 256 ∧ c < 256 ∧ ∀ b ∈ bs, b < 256 := by simpa using h
    simp only [sextets, bytes, ih hbs, List.cons.injEq, and_true]
    omega
  | case2 a b =>
    obtain ⟨ha, hb⟩ : a < 256 ∧ b < 256 := by simpa using h
    simp only [sextets, bytes, List.cons.injEq, and_true]
    omega
  | case3 a =>
    have ha : a < 256 := by simpa using h
    simp only [sextets, bytes, List.cons.injEq, and_true]
    omega
  | case4 => rfl

/-- **What is encoded is decoded.** -/
theorem decode_encode {bs : List Nat} (h : ∀ b ∈ bs, b < 256) : decode (encode bs) = bs := by
  have hsextets : ∀ {ns : List Nat}, (∀ n ∈ ns, n < 64) →
      (ns.map sextetChar).filterMap sextet = ns := by
    intro ns hns
    induction ns with
    | nil => rfl
    | cons n ns ih =>
      rw [List.map_cons, List.filterMap_cons_some (sextet_sextetChar n (hns n List.mem_cons_self)),
        ih fun m hm => hns m (List.mem_cons_of_mem n hm)]
  unfold decode encode
  rw [hsextets (sextets_lt h), bytes_sextets h]

theorem encode_length (bs : List Nat) : (encode bs).length = (4 * bs.length + 2) / 3 := by
  unfold encode
  rw [List.length_map]
  induction bs using sextets.induct with
  | case1 a b c bs ih =>
    simp only [sextets, List.length_cons, ih]
    omega
  | case2 a b => simp [sextets]
  | case3 a => simp [sextets]
  | case4 => rfl

theorem mem_encode {bs : List Nat} (h : ∀ b ∈ bs, b < 256) {c : Char} (hc : c ∈ encode bs) :
    ∃ n < 64, sextetChar n = c := by
  obtain ⟨n, hn, hchar⟩ := List.mem_map.mp hc
  exact ⟨n, sextets_lt h n hn, hchar⟩

end LinkSuffix.Base64
