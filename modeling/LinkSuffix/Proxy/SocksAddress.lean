import LinkSuffix.Js.IpAddress
import LinkSuffix.Js.Numeral
import LinkSuffix.Lib.PairSplit

/-!
# The address of a SOCKS request

`socksAddress` (`network.ts`) writes the address of a connect request: a type byte, and the bytes of
the address in network order. It takes the text apart at `::` and at the colons on both sides, and
fills in the zero groups that are missing.

* `parseIntHex`, `writeUInt16BE`: what the code uses of JavaScript and of `Buffer`.
* `socksGroups`, `socksAddress`: the code.
* `Ipv4.bytes`, `Ipv6.bytes`: the bytes of an address.
* `socksGroups_spec`: the groups of a text are those of the address it spells.
* **`socksAddress_bytes`**: the request has the bytes of the address.
-/

namespace LinkSuffix

open Lib

/-! ## Buffers -/

/-- `parseInt(text, 16)`: the digits the text begins with, after space, a sign and `0x`; `none` for
`NaN`. -/
def parseIntHex (text : List Char) : Option Int :=
  let unsigned (cs : List Char) : Option Nat :=
    let digits := match cs with
      | '0' :: 'x' :: rest => rest
      | '0' :: 'X' :: rest => rest
      | cs => cs
    parseRadix 16 hexValue (digits.takeWhile fun c => (hexValue c).isSome)
  match text.dropWhile isJsSpace with
  | '-' :: cs => (unsigned cs).map fun n => -(n : Int)
  | '+' :: cs => (unsigned cs).map fun n => (n : Int)
  | cs => (unsigned cs).map fun n => (n : Int)

/-- A number as a byte: its integer part up to multiples of 256, and zero for `NaN`. -/
def toUint8 : JsNumber → UInt8
  | .finite value => UInt8.ofNat ((value.num.tdiv value.den) % 256).toNat
  | _ => 0

/-- `Buffer.from` of an array of numbers. -/
def bufferFrom (numbers : List JsNumber) : List UInt8 := numbers.map toUint8

/-- `buffer.writeUInt16BE(value, offset)`; `NaN` is written as zero. -/
def writeUInt16BE (value : Option Int) (offset : Nat) (buffer : List UInt8) :
    Except String (List UInt8) :=
  let value := value.getD 0
  if value < 0 ∨ 65535 < value ∨ buffer.length < offset + 2 then .error "ERR_OUT_OF_RANGE"
  else
    .ok ((buffer.set offset (UInt8.ofNat (value.toNat / 256))).set (offset + 1)
      (UInt8.ofNat value.toNat))

/-! ## The code -/

/-- `side ? side.split(':') : []`. -/
def sideGroups (side : List Char) : List (List Char) :=
  if side = [] then [] else splitOnChar ':' side

/-- `groups` of `socksAddress`. -/
def socksGroups (ip : String) : Except String (List (List Char)) :=
  let parts := splitOnPair ':' ip.toList
  let before := sideGroups (parts.getD 0 [])
  let after := sideGroups (parts.getD 1 [])
  if 8 < before.length + after.length then .error "Invalid array length"
  else
    .ok (before ++ (List.replicate (8 - before.length - after.length) ['0'] ++ after))

/-- The loop that writes the groups, from an index on. -/
def writeGroups : List (List Char) → Nat → List UInt8 → Except String (List UInt8)
  | [], _, output => .ok output
  | group :: groups, index, output => do
    let output ← writeUInt16BE (parseIntHex group) (1 + index * 2) output
    writeGroups groups (index + 1) output

def socksAddress (ip : String) : Except String (List UInt8) :=
  if isIP ip = 4 then .ok (bufferFrom (.finite 1 :: (splitText '.' ip).map textToNumber))
  else do
    let groups ← socksGroups ip
    writeGroups groups 0 ((List.replicate 17 0).set 0 4)

example : socksAddress "2606:4700::1111" =
    .ok [4, 0x26, 0x06, 0x47, 0, 0, 0, 0, 0, 0, 0, 0, 0, 0, 0, 0x11, 0x11] := by
  decide +kernel

/-! ## Bytes -/

/-- A group in network order. -/
def groupBytes (group : Nat) : List UInt8 := [UInt8.ofNat (group / 256), UInt8.ofNat group]

def Ipv4.bytes (address : Ipv4) : List UInt8 := address.octets.map UInt8.ofNat

def Ipv6.bytes (address : Ipv6) : List UInt8 := address.groups.flatMap groupBytes

theorem Ipv4.length_bytes (address : Ipv4) : address.bytes.length = 4 := by
  unfold Ipv4.bytes
  rw [List.length_map, address.length_octets]

theorem Ipv6.length_bytes (address : Ipv6) : address.bytes.length = 16 := by
  unfold Ipv6.bytes
  have htwo : (fun group => (groupBytes group).length) = fun _ => 2 := rfl
  rw [List.length_flatMap, htwo, List.map_const', address.length_groups]
  rfl

section Writing

variable {written rest : List UInt8} {texts : List (List Char)} {values : List Nat}

theorem hex_not_space {c : Char} (h : (hexValue c).isSome = true) : isJsSpace c = false := by
  refine ascii_cases (P := fun c => (hexValue c).isSome = true → isJsSpace c = false)
    (by decide +kernel) (fun d hd hhex => ?_) c h
  obtain ⟨x, hx⟩ := Option.isSome_iff_exists.mp hhex
  have hrange := hexValue_range hx
  omega

theorem parseIntHex_hextet {piece : List Char} {n : Nat} (h : hextet piece = some n) :
    parseIntHex piece = some (n : Int) := by
  obtain ⟨hne, hdigits, -⟩ := hextet_spec h
  have hspace : piece.dropWhile isJsSpace = piece := by
    cases piece with
    | nil => rfl
    | cons c piece =>
      have hc := hex_not_space (hdigits c List.mem_cons_self)
      exact List.dropWhile_cons_of_neg (by rw [hc]; exact Bool.false_ne_true)
  have hvalue : parseRadix 16 hexValue piece = some n := by
    unfold hextet at h
    split at h
    · exact h
    · cases h
  have htake : (piece.takeWhile fun c => (hexValue c).isSome) = piece :=
    List.takeWhile_eq_self_iff.mpr hdigits
  have hnot (c : Char) (hc : hexValue c = none) : c ∉ piece := fun hmem => by
    have hsome := hdigits c hmem
    rw [hc] at hsome
    cases hsome
  unfold parseIntHex
  rw [hspace]
  dsimp only
  split
  · exact absurd List.mem_cons_self (hnot '-' rfl)
  · exact absurd List.mem_cons_self (hnot '+' rfl)
  · split
    · exact absurd (List.mem_cons_of_mem _ List.mem_cons_self) (hnot 'x' rfl)
    · exact absurd (List.mem_cons_of_mem _ List.mem_cons_self) (hnot 'X' rfl)
    · rw [htake, hvalue]
      rfl

theorem map_parseIntHex {texts : List (List Char)} {values : List Nat}
    (h : texts.mapM hextet = some values) :
    texts.map parseIntHex = values.map fun value : Nat => some (value : Int) := by
  induction texts generalizing values with
  | nil =>
    obtain rfl := Option.some.inj h
    rfl
  | cons piece texts ih =>
    obtain ⟨value, rest, hvalue, hrest, rfl⟩ := mapM_cons_some h
    rw [List.map_cons, List.map_cons, parseIntHex_hextet hvalue, ih hrest]

/-- A group is written over the two bytes that follow what is written. -/
theorem writeUInt16BE_next {n : Nat} (hn : n < 65536) (x y : UInt8) :
    writeUInt16BE (some (n : Int)) written.length (written ++ x :: y :: rest) =
      .ok (written ++ groupBytes n ++ rest) := by
  unfold writeUInt16BE
  dsimp only [Option.getD_some]
  rw [if_neg]
  · simp [groupBytes]
  · rw [List.length_append, List.length_cons, List.length_cons]
    omega

/-- The loop writes groups over the rest of the buffer. -/
theorem writeGroups_spec (h : texts.mapM hextet = some values) {index : Nat}
    (hwritten : written.length = 1 + index * 2) (hrest : rest.length = 2 * texts.length) :
    writeGroups texts index (written ++ rest) = .ok (written ++ values.flatMap groupBytes) := by
  induction texts generalizing values index written rest with
  | nil =>
    obtain rfl := Option.some.inj h
    obtain rfl := List.eq_nil_of_length_eq_zero hrest
    rfl
  | cons piece texts ih =>
    obtain ⟨value, values, hvalue, hvalues, rfl⟩ := mapM_cons_some h
    obtain ⟨x, y, rest, rfl⟩ : ∃ x y rest', rest = x :: y :: rest' := by
      match rest, hrest with
      | x :: y :: rest, _ => exact ⟨x, y, rest, rfl⟩
    have hstep := @writeUInt16BE_next written rest value (hextet_spec hvalue).2.2 x y
    have hlength : (written ++ groupBytes value).length = 1 + (index + 1) * 2 := by
      rw [List.length_append, hwritten, groupBytes, List.length_cons, List.length_singleton]
      omega
    have hmore : rest.length = 2 * texts.length := by
      rw [List.length_cons, List.length_cons, List.length_cons] at hrest
      omega
    rw [writeGroups, parseIntHex_hextet hvalue, ← hwritten, hstep]
    refine (ih hvalues hlength hmore).trans ?_
    rw [List.flatMap_cons, List.append_assoc]

end Writing

/-! ## The groups of a text -/

section Groups

variable {pieces : List (List Char)} {cs : List Char} {groups front back : List Nat}

/-- Pieces without a dotted tail are groups. -/
theorem tailGroups_plain (h : tailGroups pieces = some groups)
    (hdot : ∀ piece ∈ pieces, '.' ∉ piece) : pieces.mapM hextet = some groups := by
  induction pieces generalizing groups with
  | nil => cases h
  | cons piece pieces ih =>
    cases pieces with
    | nil =>
      rcases tailGroups_single h with ⟨group, hgroup, rfl⟩ | ⟨octets, hoctets, rfl⟩
      · rw [List.mapM_cons, hgroup]
        rfl
      · -- one piece between points is no IPv4 address
        obtain ⟨hall, hlength⟩ := Option.filter_eq_some_iff.mp hoctets
        rw [splitOnChar_piece (hdot piece List.mem_cons_self)] at hall
        have hone := (mapM_spec hall).1
        rw [of_decide_eq_true hlength] at hone
        cases hone
    | cons next pieces =>
      obtain ⟨group, rest, hgroup, hrest, rfl⟩ := tailGroups_next_some h
      rw [List.mapM_cons, hgroup, ih hrest fun p hp => hdot p (List.mem_cons_of_mem _ hp)]
      rfl

/-- The groups after `::` are those of the text that follows it. -/
theorem backGroups_plain {side : List Char} (h : backGroups (splitOnChar ':' side) = some back)
    (hdot : '.' ∉ side) : (sideGroups side).mapM hextet = some back := by
  unfold backGroups at h
  split at h
  · rename_i hempty
    have hside := intercalate_splitOnChar ':' side
    rw [hempty, List.intercalate_singleton] at hside
    obtain rfl := Option.some.inj h
    rw [← hside]
    rfl
  · rename_i hsome
    have hside : side ≠ [] := by
      rintro rfl
      exact hsome rfl
    unfold sideGroups
    rw [if_neg hside]
    exact tailGroups_plain h fun piece hp hmem => hdot (of_mem_splitOnChar hp hmem).1

theorem splitOnChar_ne_empty {side : List Char} {values : List Nat}
    (h : (splitOnChar ':' side).mapM hextet = some values) :
    ∀ piece ∈ splitOnChar ':' side, piece ≠ [] ∧ ':' ∉ piece := by
  intro piece hp
  obtain ⟨value, hvalue⟩ := mapM_some_mem h piece hp
  exact ⟨(hextet_spec hvalue).1, fun hmem => (of_mem_splitOnChar hp hmem).2 rfl⟩

/-- A side of groups has no `::` of its own. -/
theorem splitOnPair_side {side : List Char} {values : List Nat}
    (h : (sideGroups side).mapM hextet = some values) (tail : List Char) :
    splitOnPair ':' (side ++ ':' :: ':' :: tail) = side :: splitOnPair ':' tail ∧
      splitOnPair ':' side = [side] := by
  unfold sideGroups at h
  split at h
  · rename_i hempty
    subst hempty
    exact ⟨splitOnPair_pair ':' tail, rfl⟩
  · have hjoin := splitOnPair_join (by
      obtain ⟨piece, pieces, hsplit⟩ := splitOnChar_ne_nil ':' side
      rw [hsplit]
      exact List.cons_ne_nil _ _) (splitOnChar_ne_empty h)
    rw [intercalate_splitOnChar] at hjoin
    constructor
    · rw [hjoin, splitOnPair_pair]
      exact congrArg (· :: _) (List.append_nil side)
    · have hwhole := hjoin []
      rw [List.append_nil] at hwhole
      rw [hwhole]
      exact congrArg (fun s => [s]) (List.append_nil side)

theorem mapM_zeros (n : Nat) : (List.replicate n ['0']).mapM hextet = some (List.replicate n 0) := by
  induction n with
  | zero => rfl
  | succ n ih =>
    rw [List.replicate_succ, List.mapM_cons, ih]
    rfl

theorem mapM_append_some {texts more : List (List Char)} {values others : List Nat}
    (h : texts.mapM hextet = some values) (hmore : more.mapM hextet = some others) :
    (texts ++ more).mapM hextet = some (values ++ others) := by
  rw [List.mapM_append, h, hmore]
  rfl

/-- `::` stands for the zero groups that are missing. -/
theorem socksGroups_pair {left right : List Char}
    (hparts : splitOnPair ':' cs = [left, right])
    (hfront : (sideGroups left).mapM hextet = some front)
    (hback : (sideGroups right).mapM hextet = some back)
    (hexpand : expand front back = some groups) :
    ∃ texts, socksGroups (String.ofList cs) = .ok texts ∧ texts.mapM hextet = some groups := by
  obtain ⟨hle, rfl⟩ := expand_eq_some hexpand
  have hbefore := (mapM_spec hfront).1
  have hafter := (mapM_spec hback).1
  refine ⟨sideGroups left ++ (List.replicate (8 - (sideGroups left).length -
    (sideGroups right).length) ['0'] ++ sideGroups right), ?_, ?_⟩
  · unfold socksGroups
    rw [String.toList_ofList, hparts]
    exact if_neg (by
      change ¬8 < (sideGroups left).length + (sideGroups right).length
      omega)
  · refine mapM_append_some hfront (mapM_append_some ?_ hback)
    rw [← hbefore, ← hafter, Nat.sub_sub]
    exact mapM_zeros _

theorem splitOnChar_injective {sep : Char} {text : List Char}
    (h : splitOnChar sep cs = splitOnChar sep text) : cs = text := by
  rw [← intercalate_splitOnChar sep cs, h, intercalate_splitOnChar]

/-- The text of the pieces after `::`. -/
theorem backGroups_text (h : backGroups pieces = some back) (hcolon : ∀ piece ∈ pieces, ':' ∉ piece) :
    splitOnChar ':' (List.intercalate [':'] pieces) = pieces := by
  have hne : pieces ≠ [] := by
    rintro rfl
    cases h
  exact (splitOnChar_join hne hcolon).1

/-- **The groups of a text are those of the address it spells**: there are eight, and each one is a
number. -/
theorem socksGroups_spec (h : parseIpv6 cs = some groups) (hdot : '.' ∉ cs) :
    ∃ texts, socksGroups (String.ofList cs) = .ok texts ∧ texts.mapM hextet = some groups := by
  have hcolon : ∀ piece ∈ splitOnChar ':' cs, ':' ∉ piece := fun piece hp hmem =>
    (of_mem_splitOnChar hp hmem).2 rfl
  rcases parseIpv6_cases h with ⟨pieces, back, hsplit, hpieces, hexpand⟩ |
    ⟨hne, hpieces, htail, hlength⟩ |
    ⟨first, more, pieces, front, back, hsplit, hne, hfront, hpieces, hexpand⟩
  · -- the text begins with `::`
    have hside := backGroups_text hpieces fun piece hp =>
      hcolon piece (hsplit ▸ List.mem_cons_of_mem _ (List.mem_cons_of_mem _ hp))
    generalize List.intercalate [':'] pieces = side at hside
    obtain rfl : cs = ':' :: ':' :: side := splitOnChar_injective (by
      rw [hsplit, splitOnChar_sep, splitOnChar_sep, hside])
    rw [List.mem_cons, List.mem_cons, not_or, not_or] at hdot
    rw [← hside] at hpieces
    have hback := backGroups_plain hpieces hdot.2.2
    have hnone : (sideGroups []).mapM hextet = some [] := rfl
    refine socksGroups_pair ?_ hnone hback hexpand
    rw [splitOnPair_pair, (splitOnPair_side hback []).2]
  · -- eight groups in full
    have hgroups := tailGroups_plain htail fun piece hp hmem => hdot (of_mem_splitOnChar hp hmem).1
    have hcs : cs ≠ [] := by
      rintro rfl
      exact hpieces [] List.mem_cons_self rfl
    have hside : sideGroups cs = splitOnChar ':' cs := if_neg hcs
    rw [← hside] at hgroups
    refine ⟨sideGroups cs, ?_, hgroups⟩
    have hcount := (mapM_spec hgroups).1
    unfold socksGroups
    rw [String.toList_ofList, (splitOnPair_side hgroups []).2]
    refine (if_neg (by
      change ¬8 < (sideGroups cs).length + 0
      omega)).trans ?_
    change Except.ok (sideGroups cs ++ (List.replicate (8 - (sideGroups cs).length) ['0'] ++ [])) = _
    rw [← hcount, hlength, List.append_nil]
    exact congrArg Except.ok (List.append_nil _)
  · -- `::` after some groups
    have hside := backGroups_text hpieces fun piece hp =>
      hcolon piece (hsplit ▸ List.mem_append_right _ (List.mem_cons_of_mem _ hp))
    have hleft := splitOnChar_join (List.cons_ne_nil first more) fun piece hp =>
      hcolon piece (hsplit ▸ List.mem_append_left _ hp)
    have hleftne : List.intercalate [':'] (first :: more) ≠ [] := by
      intro hnil
      rw [hnil] at hleft
      have hfirst : [] = first := (List.cons.inj hleft.1).1
      exact hne first List.mem_cons_self hfirst.symm
    generalize List.intercalate [':'] pieces = side at hside
    generalize List.intercalate [':'] (first :: more) = left at hleft hleftne
    obtain rfl : cs = left ++ ':' :: ':' :: side := splitOnChar_injective (by
      rw [hsplit, hleft.2, splitOnChar_sep, hside])
    rw [List.mem_append, List.mem_cons, List.mem_cons, not_or, not_or, not_or] at hdot
    rw [← hside] at hpieces
    rw [← hleft.1, ← show sideGroups left = splitOnChar ':' left from if_neg hleftne] at hfront
    have hback := backGroups_plain hpieces hdot.2.2.2
    refine socksGroups_pair ?_ hfront hback hexpand
    rw [(splitOnPair_side hfront side).1, (splitOnPair_side hback []).2]

end Groups

/-! ## The request -/

theorem toUint8_natCast (n : Nat) : toUint8 (.finite n) = UInt8.ofNat n := by
  have hvalue : ((((n : Rat).num.tdiv (n : Rat).den) % 256).toNat) = n % 256 := by
    rw [Rat.num_natCast, Rat.den_natCast, Nat.cast_one, Int.tdiv_one]
    omega
  unfold toUint8
  dsimp only
  rw [hvalue]
  exact UInt8.toNat_inj.mp (by simp)

theorem bufferFrom_octets {pieces : List (List Char)} {octets : List Nat}
    (h : pieces.mapM octet = some octets) :
    bufferFrom ((pieces.map String.ofList).map textToNumber) = octets.map UInt8.ofNat := by
  induction pieces generalizing octets with
  | nil =>
    obtain rfl := Option.some.inj h
    rfl
  | cons piece pieces ih =>
    obtain ⟨value, rest, hvalue, hrest, rfl⟩ := mapM_cons_some h
    have hread := textToNumber_digitText (octet_spec hvalue).2.2.1
    unfold bufferFrom at ih ⊢
    rw [List.map_cons, List.map_cons, List.map_cons, ih hrest, hread, toUint8_natCast]
    rfl

/-- An IPv4 address is written as its type and its four bytes. -/
theorem socksAddress_four {ip : String} (h : isIP ip = 4) :
    ∃ address : Ipv4, parseIpv4 ip.toList = some address.octets ∧
      socksAddress ip = .ok (1 :: address.bytes) := by
  obtain ⟨octets, hoctets⟩ := isIP_four h
  obtain ⟨hlength, hle⟩ := parseIpv4_sound hoctets
  refine ⟨⟨octets, hlength, hle⟩, hoctets, ?_⟩
  have hall := (Option.filter_eq_some_iff.mp hoctets).1
  unfold socksAddress
  rw [if_pos h]
  refine congrArg Except.ok (congrArg₂ List.cons (toUint8_natCast 1) ?_)
  exact bufferFrom_octets hall

/-- An IPv6 address is written as its type and its sixteen bytes. -/
theorem socksAddress_six {ip : String} (h : isIP ip = 6) (hzone : '%' ∉ ip.toList)
    (hdot : '.' ∉ ip.toList) :
    ∃ address : Ipv6, parseIpv6 ip.toList = some address.groups ∧
      socksAddress ip = .ok (4 :: address.bytes) ∧
      ∃ texts, socksGroups ip = .ok texts ∧ texts.map parseIntHex =
        address.groups.map fun group : Nat => some (group : Int) := by
  obtain ⟨groups, hgroups⟩ := (isIP_six h).1
  rw [(beforeZone_of_not_mem hzone).1] at hgroups
  obtain ⟨hlength, hlt⟩ := parseIpv6_sound hgroups
  obtain ⟨texts, htexts, hvalues⟩ := socksGroups_spec hgroups hdot
  rw [String.ofList_toList] at htexts
  refine ⟨⟨groups, hlength, hlt⟩, hgroups, ?_, texts, htexts, ?_⟩
  · have hcount := (mapM_spec hvalues).1
    have hwrite := @writeGroups_spec [4] (List.replicate 16 0) texts groups hvalues 0 rfl
      (by rw [List.length_replicate]; omega)
    unfold socksAddress
    rw [if_neg (by rw [h]; decide), htexts]
    exact hwrite
  · exact map_parseIntHex hvalues

/-- **The address of a SOCKS request.** For every IPv4 address, and every IPv6 address without a zone
or a dotted tail, the request has the type byte and the four or sixteen bytes of the address in
network order; each group that is written is a number. -/
theorem socksAddress_bytes (ip : String) :
    (isIP ip = 4 → ∃ address : Ipv4, parseIpv4 ip.toList = some address.octets ∧
      socksAddress ip = .ok (1 :: address.bytes) ∧ address.bytes.length = 4) ∧
    (isIP ip = 6 → '%' ∉ ip.toList → '.' ∉ ip.toList →
      ∃ address : Ipv6, parseIpv6 ip.toList = some address.groups ∧
        socksAddress ip = .ok (4 :: address.bytes) ∧ address.bytes.length = 16 ∧
        ∃ texts, socksGroups ip = .ok texts ∧ texts.map parseIntHex =
          address.groups.map fun group : Nat => some (group : Int)) := by
  constructor
  · intro h
    obtain ⟨address, hparse, hbytes⟩ := socksAddress_four h
    exact ⟨address, hparse, hbytes, address.length_bytes⟩
  · intro h hzone hdot
    obtain ⟨address, hparse, hbytes, htexts⟩ := socksAddress_six h hzone hdot
    exact ⟨address, hparse, hbytes, address.length_bytes, htexts⟩

/-- The addresses of two requests, the second one with zero groups left out. -/
theorem socksAddress_bytes_sample :
    (∃ address : Ipv4, socksAddress "8.8.4.4" = .ok (1 :: address.bytes)) ∧
    ∃ address : Ipv6, socksAddress "2606:4700::1111" = .ok (4 :: address.bytes) := by
  obtain ⟨four, -, hfour, -⟩ := (socksAddress_bytes "8.8.4.4").1 (by decide +kernel)
  obtain ⟨six, -, hsix, -⟩ := (socksAddress_bytes "2606:4700::1111").2 (by decide +kernel)
    (by decide +kernel) (by decide +kernel)
  exact ⟨⟨four, hfour⟩, six, hsix⟩

end LinkSuffix
