import LinkSuffix.Js.Numeral
import LinkSuffix.Lib.Checked
import LinkSuffix.Proxy.Registry
import Mathlib.Data.List.Rotate
import Mathlib.Data.List.TakeWhile

/-!
# What an endpoint key says

Endpoint keys are put together by `leaseEndpointKeys` and taken apart in other modules: a circuit is
kept for the physical endpoint of a key (`physicalEndpointKey`), and the gateway is called on its
port (`endpointPort`).

* `SlotSuffix`: the texts that `physicalEndpointKey` takes off before a port.
* `ValidPool`: what every stored pool meets (`normalizePool_valid`).
* `leaseEndpointKeys_shared`: the keys of a shared gateway, whatever the session.
* **`endpoint_keys_faithful`**: keys are distinct and say their host and port, and two sessions are
  given the same slots in another order.
* `large_pool_refused`: a pool whose slots are more than the limit.
-/

namespace LinkSuffix

/-! ## Reading a key from its end -/

section Runs

variable {p : Char → Bool} {separator : Char} {cs run rest : List Char}

theorem takeRun_append (hne : run ≠ []) (hrun : ∀ c ∈ run, p c = true)
    (hseparator : p separator = false) :
    takeRun p separator (run ++ separator :: rest) = some (run, rest) := by
  obtain ⟨htake, hdrop⟩ := @takeWhile_digits p run (separator :: rest) hrun
    (fun c hc => by cases hc; exact hseparator)
  unfold takeRun
  rw [htake, hdrop]
  cases run with
  | nil => exact absurd rfl hne
  | cons c run => exact if_pos rfl

theorem takeRun_some (h : takeRun p separator cs = some (run, rest)) :
    cs = run ++ separator :: rest ∧ run ≠ [] ∧ ∀ c ∈ run, p c = true := by
  unfold takeRun at h
  split at h
  · cases h
  · cases h
  · rename_i c tail hdrop hne
    split at h
    · rename_i hc
      obtain ⟨rfl, rfl⟩ := Prod.mk.inj (Option.some.inj h)
      refine ⟨?_, hne, fun d hd => List.mem_takeWhile_imp hd⟩
      rw [← hc, ← hdrop, List.takeWhile_append_dropWhile]
    · cases h

end Runs

theorem toString_digits (n : Nat) :
    (toString n).toList ≠ [] ∧ ∀ c ∈ (toString n).toList, c.isDigit = true := by
  have hlist : (toString n).toList = Nat.toDigits 10 n := Nat.toList_repr
  rw [hlist]
  exact ⟨Nat.toDigits_ne_nil, fun c hc => Nat.isDigit_of_mem_toDigits (by decide) (by decide) hc⟩

/-- A pool and a slot: what is taken off a key before its port. -/
structure SlotSuffix (pool slot : List Char) : Prop where
  pool_ne : pool ≠ []
  pool_chars : ∀ c ∈ pool, isPoolChar c = true
  slot_ne : slot ≠ []
  slot_digits : ∀ c ∈ slot, c.isDigit = true

/-- A host that ends the way a slot is named: `~pool~slot`. -/
def EndsInSlot (host : String) : Prop :=
  ∃ front pool slot, SlotSuffix pool slot ∧
    host.toList = front ++ '~' :: pool ++ '~' :: slot

/-- The key of a slot of a shared gateway. -/
def slotKey (host poolId : String) (slot port : Nat) : String :=
  host ++ "~" ++ poolId ++ "~" ++ toString slot ++ ":" ++ toString port

section Keys

variable {host poolId : String} {slot port : Nat}

theorem reverse_key (front : String) (port : Nat) :
    (front ++ ":" ++ toString port).toList.reverse =
      (toString port).toList.reverse ++ ':' :: front.toList.reverse := by
  simp

/-- The port is read off a key, whatever comes before it. -/
theorem takeRun_port (front : String) (port : Nat) :
    takeRun Char.isDigit ':' (front ++ ":" ++ toString port).toList.reverse =
      some ((toString port).toList.reverse, front.toList.reverse) := by
  obtain ⟨hne, hdigits⟩ := toString_digits port
  rw [reverse_key]
  exact takeRun_append (by simp) (fun c hc => hdigits c (List.mem_reverse.mp hc)) rfl

/-- What stands before a pool and a slot at the end of a text. -/
def beforeSlot (front : List Char) : Option (List Char) := do
  let (_, rest) ← takeRun Char.isDigit '~' front.reverse
  let (_, rest) ← takeRun isPoolChar '~' rest
  return rest.reverse

theorem beforeSlot_eq_some_iff {front before : List Char} :
    beforeSlot front = some before ↔
      ∃ pool slot, SlotSuffix pool slot ∧ front = before ++ '~' :: pool ++ '~' :: slot := by
  constructor
  · intro h
    obtain ⟨⟨slot, rest⟩, hslot, h⟩ := Option.bind_eq_some_iff.mp h
    obtain ⟨⟨pool, rest'⟩, hpool, h⟩ := Option.bind_eq_some_iff.mp h
    obtain rfl := Option.some.inj h
    obtain ⟨hfront, hslotne, hslotchars⟩ := takeRun_some hslot
    obtain ⟨hrest, hpoolne, hpoolchars⟩ := takeRun_some hpool
    refine ⟨pool.reverse, slot.reverse, ⟨by simpa using hpoolne, ?_, by simpa using hslotne, ?_⟩, ?_⟩
    · exact fun c hc => hpoolchars c (List.mem_reverse.mp hc)
    · exact fun c hc => hslotchars c (List.mem_reverse.mp hc)
    · rw [← List.reverse_reverse front, hfront]
      rw [hrest]
      simp
  · rintro ⟨pool, slot, h, rfl⟩
    have hreverse : (before ++ '~' :: pool ++ '~' :: slot).reverse =
        slot.reverse ++ '~' :: (pool.reverse ++ '~' :: before.reverse) := by
      simp
    have hslot := @takeRun_append Char.isDigit '~' slot.reverse
      (pool.reverse ++ '~' :: before.reverse) (by simpa using h.slot_ne)
      (fun c hc => h.slot_digits c (List.mem_reverse.mp hc)) rfl
    have hpool := @takeRun_append isPoolChar '~' pool.reverse before.reverse
      (by simpa using h.pool_ne) (fun c hc => h.pool_chars c (List.mem_reverse.mp hc)) rfl
    have hfound := congrArg some (List.reverse_reverse before)
    unfold beforeSlot
    rw [hreverse]
    exact Option.bind_eq_some_iff.mpr ⟨_, hslot, Option.bind_eq_some_iff.mpr ⟨_, hpool, hfound⟩⟩

/-- A key with a port stands for what is before its slot, or for itself. -/
theorem physicalEndpointKey_port (front : String) (port : Nat) :
    physicalEndpointKey (front ++ ":" ++ toString port) =
      match beforeSlot front.toList with
      | none => front ++ ":" ++ toString port
      | some before => String.ofList before ++ ":" ++ toString port := by
  unfold physicalEndpointKey beforeSlot
  rw [takeRun_port]
  simp only [Option.bind_eq_bind, Option.bind_some]
  cases hslot : takeRun Char.isDigit '~' front.toList.reverse with
  | none => rfl
  | some slot =>
    simp only [Option.bind_some]
    cases hpool : takeRun isPoolChar '~' slot.2 with
    | none => rfl
    | some pool => simp [← String.toList_inj]

/-- The key of a slot stands for its host and port, whatever the host. -/
theorem physicalEndpointKey_slotKey (hne : poolId.toList ≠ [])
    (hpool : ∀ c ∈ poolId.toList, isPoolChar c = true) :
    physicalEndpointKey (slotKey host poolId slot port) = host ++ ":" ++ toString port := by
  obtain ⟨hslotne, hslot⟩ := toString_digits slot
  have hbefore : beforeSlot (host ++ "~" ++ poolId ++ "~" ++ toString slot).toList =
      some host.toList :=
    beforeSlot_eq_some_iff.mpr ⟨poolId.toList, (toString slot).toList,
      ⟨hne, hpool, hslotne, hslot⟩, by simp⟩
  unfold slotKey
  rw [physicalEndpointKey_port, hbefore]
  simp

/-- The key of a host and a port stands for itself, unless the host ends the way a slot is named. -/
theorem physicalEndpointKey_plain (h : ¬EndsInSlot host) :
    physicalEndpointKey (host ++ ":" ++ toString port) = host ++ ":" ++ toString port := by
  rw [physicalEndpointKey_port]
  cases hbefore : beforeSlot host.toList with
  | none => rfl
  | some before =>
    obtain ⟨pool, slot, hsuffix, hlist⟩ := beforeSlot_eq_some_iff.mp hbefore
    exact absurd ⟨before, pool, slot, hsuffix, hlist⟩ h

/-- The port is read back from a key that ends in it. -/
theorem endpointPort_key (front : String) (h : 1 ≤ port ∧ port ≤ 65535) :
    endpointPort (front ++ ":" ++ toString port) = .ok port := by
  have hne : ∀ c ∈ (toString port).toList.reverse, decide (c ≠ ':') = true := by
    intro c hc
    have hdigit := (toString_digits port).2 c (List.mem_reverse.mp hc)
    exact decide_eq_true (digit_ne hdigit rfl)
  have htake := (@takeWhile_digits (· ≠ ':') (toString port).toList.reverse
    (':' :: front.toList.reverse) hne (fun c hc => by cases hc; rfl)).1
  have hinteger : (JsNumber.finite (port : Rat)).integer = some (port : Int) := by
    simp [JsNumber.integer]
  unfold endpointPort
  rw [reverse_key, htake, List.reverse_reverse, String.ofList_toList]
  dsimp only
  rw [textToNumber_toString, hinteger]
  dsimp only
  rw [if_neg (by omega), Int.toNat_natCast]

theorem slotKey_injective {slot' port' : Nat} (hport : 1 ≤ port ∧ port ≤ 65535)
    (hport' : 1 ≤ port' ∧ port' ≤ 65535)
    (h : slotKey host poolId slot port = slotKey host poolId slot' port') :
    slot = slot' ∧ port = port' := by
  have hread : endpointPort (slotKey host poolId slot port) =
      endpointPort (slotKey host poolId slot' port') := by rw [h]
  unfold slotKey at hread h
  rw [endpointPort_key _ hport, endpointPort_key _ hport'] at hread
  obtain rfl := Except.ok.inj hread
  refine ⟨?_, rfl⟩
  have hslot : toString slot = toString slot' := by
    simpa [← String.toList_inj] using h
  exact Option.some.inj (by rw [← parseDigits_toString slot, hslot, parseDigits_toString])

end Keys

/-! ## Pools -/

open ProxyRegistry (isIdentifier isIdentifierChar identifier ports portOf normalizePool)

/-- What a stored pool meets: its name is an identifier, and its ports are distinct. -/
structure ValidPool (pool : ProxyPool) : Prop where
  poolId : isIdentifier pool.poolId = true
  nodup : pool.endpointPorts.Nodup
  inRange : ∀ port ∈ pool.endpointPorts, 1 ≤ port ∧ port ≤ 65535

section Pools

variable {value input : JsValue} {field name : String} {result : List Nat} {now : Nat}

/-- The columns of a stored pool that a lease reads. -/
def row (pool : ProxyRegistry.Pool) : ProxyPool where
  poolId := pool.poolId
  providerId := pool.providerId
  enabled := pool.enabled
  endpointPorts := pool.endpointPorts
  config := pool.config

theorem isIdentifier_chars (h : isIdentifier name = true) :
    name.toList ≠ [] ∧ ∀ c ∈ name.toList, isPoolChar c = true := by
  unfold isIdentifier at h
  split at h
  · cases h
  · rename_i c cs hlist
    simp only [Bool.and_eq_true, Bool.or_eq_true] at h
    obtain ⟨⟨⟨hfirst, hrest⟩, -⟩, -⟩ := h
    rw [hlist]
    refine ⟨List.cons_ne_nil c cs, fun d hd => ?_⟩
    rcases List.mem_cons.mp hd with rfl | hd
    · unfold isPoolChar
      rcases hfirst with hlower | hdigit
      · rw [hlower]
        rfl
      · rw [hdigit, Bool.or_true]
        rfl
    · exact List.all_eq_true.mp hrest d hd

end Pools

/-! ## The keys of a pool -/

/-- The pool is leased by numbered slots. -/
def SharesGateway (pool : ProxyPool) (host rotationMode : String) : Prop :=
  jsLower host ∈ evomiHosts ∧ (pool.config.get "sessionSharedGateway").truthy = true ∧
    rotationMode = "sticky-session"

/-- The number of slots of each port, when all the slots are within the limit. -/
def Slots (pool : ProxyPool) (slots : Nat) : Prop :=
  sessionSlots pool = slots ∧ slots * pool.endpointPorts.length ≤ 5000

/-- The keys of all slots, in the order of their numbers. -/
def slotKeys (pool : ProxyPool) (host : String) (slots : Nat) : List String :=
  pool.endpointPorts.flatMap fun port =>
    (List.range slots).map fun slot => slotKey host pool.poolId slot port

section Lease

variable {digest : String → Nat} {pool : ProxyPool} {host rotationMode sessionId : String}
  {keys : List String} {slots : Nat}

/-- Slot numbers that start at an offset are the numbers in another order. -/
theorem range_rotate (slots offset : Nat) :
    (List.range slots).map (fun index => (index + offset) % slots) =
      (List.range slots).rotate offset := by
  refine List.ext_getElem (by simp) fun index h _ => ?_
  simp [List.getElem_rotate]

theorem leaseEndpointKeys_plain (h : ¬SharesGateway pool host rotationMode) :
    leaseEndpointKeys digest pool host rotationMode sessionId =
      .ok (pool.endpointPorts.map fun port => host ++ ":" ++ toString port) := by
  unfold leaseEndpointKeys
  refine if_pos ?_
  unfold SharesGateway at h
  rw [not_and_or, not_and_or] at h
  rcases h with h | h | h
  · exact Or.inl h
  · exact Or.inr (Or.inl (Bool.eq_false_of_not_eq_true h))
  · exact Or.inr (Or.inr h)

theorem sharesGateway_branch (h : SharesGateway pool host rotationMode) :
    ¬(jsLower host ∉ evomiHosts ∨ (pool.config.get "sessionSharedGateway").truthy = false ∨
      rotationMode ≠ "sticky-session") := by
  obtain ⟨hhost, hshared, hmode⟩ := h
  rintro (hno | hno | hno)
  · exact hno hhost
  · exact absurd (hshared.symm.trans hno) nofun
  · exact hno hmode

/-- A session is given the slots of a shared gateway, from an offset of its own on. -/
theorem leaseEndpointKeys_shared (digest : String → Nat) (sessionId : String)
    (h : SharesGateway pool host rotationMode) (hslots : Slots pool slots) :
    ∃ keys, leaseEndpointKeys digest pool host rotationMode sessionId = .ok keys ∧
      keys.Perm (slotKeys pool host slots) := by
  obtain ⟨hcount, hlimit⟩ := hslots
  have hwithin : ¬((sessionSlots pool).den ≠ 1 ∨
      5000 < sessionSlots pool * pool.endpointPorts.length) := by
    rw [hcount, not_or, not_not, not_lt]
    exact ⟨Rat.den_natCast slots, by exact_mod_cast hlimit⟩
  have hnum : (sessionSlots pool).num.toNat = slots := by
    rw [hcount, Rat.num_natCast, Int.toNat_natCast]
  refine ⟨_, by
    unfold leaseEndpointKeys
    rw [if_neg (sharesGateway_branch h)]
    exact if_neg hwithin, ?_⟩
  rw [hnum]
  refine List.Perm.flatMap_left _ fun port _ => ?_
  have hrotated : ((List.range slots).map fun index => host ++ "~" ++ pool.poolId ++ "~" ++
      toString ((index + digest sessionId % slots) % slots) ++ ":" ++ toString port) =
        ((List.range slots).rotate (digest sessionId % slots)).map fun slot =>
          slotKey host pool.poolId slot port := by
    rw [← range_rotate, List.map_map]
    rfl
  rw [hrotated]
  exact (List.rotate_perm _ _).map _

theorem one_le_sessionSlots (pool : ProxyPool) : 1 ≤ sessionSlots pool := by
  unfold sessionSlots
  split
  · norm_num
  · split <;> norm_num
  · exact le_max_left _ _

/-- A pool whose slots are not a number within the limit is refused. -/
theorem leaseEndpointKeys_bounded (h : SharesGateway pool host rotationMode)
    (hslots : ¬∃ slots, Slots pool slots) :
    leaseEndpointKeys digest pool host rotationMode sessionId =
      .error "Shared gateway capacity exceeds the bounded lease limit" := by
  unfold leaseEndpointKeys
  rw [if_neg (sharesGateway_branch h)]
  refine if_pos ?_
  by_contra hwithin
  rw [not_or, not_not, not_lt] at hwithin
  obtain ⟨hden, hlimit⟩ := hwithin
  have hpos : 0 ≤ (sessionSlots pool).num :=
    Rat.num_nonneg.mpr (zero_le_one.trans (one_le_sessionSlots pool))
  have hcount : sessionSlots pool = ((sessionSlots pool).num.toNat : Nat) := by
    rw [← Int.cast_natCast, Int.toNat_of_nonneg hpos]
    exact (Rat.den_eq_one_iff _).mp hden |>.symm
  refine hslots ⟨_, hcount, ?_⟩
  rw [hcount] at hlimit
  exact_mod_cast hlimit

/-- The slots of a capacity of one at least. -/
theorem sessionSlots_of_capacity {capacity : Rat} (h : 1 ≤ capacity)
    (hread : (pool.config.get "sessionCapacity").toNumber = .finite capacity) :
    sessionSlots pool = min 500 capacity := by
  have hne : capacity ≠ 0 := by
    rintro rfl
    exact absurd h (by norm_num)
  unfold sessionSlots
  rw [hread]
  dsimp only
  rw [if_neg hne]
  exact max_eq_right (le_min (by norm_num) h)

theorem mem_slotKeys {key : String} :
    key ∈ slotKeys pool host slots ↔
      ∃ port ∈ pool.endpointPorts, ∃ slot < slots, key = slotKey host pool.poolId slot port := by
  simp [slotKeys, eq_comm]

theorem slotKeys_nodup (hpool : ValidPool pool) : (slotKeys pool host slots).Nodup := by
  refine List.nodup_flatMap.mpr ⟨fun port hport => ?_, ?_⟩
  · refine List.Nodup.map_on (fun slot _ slot' _ h => ?_) List.nodup_range
    exact (slotKey_injective (hpool.inRange port hport) (hpool.inRange port hport) h).1
  · refine hpool.nodup.imp_of_mem fun {port port'} hport hport' hne => ?_
    refine List.disjoint_left.mpr fun key hkey hkey' => ?_
    obtain ⟨slot, -, rfl⟩ := List.mem_map.mp hkey
    obtain ⟨slot', -, hsame⟩ := List.mem_map.mp hkey'
    exact hne (slotKey_injective (hpool.inRange port' hport') (hpool.inRange port hport)
      hsame).2.symm

theorem plainKeys_nodup (hpool : ValidPool pool) :
    (pool.endpointPorts.map fun port => host ++ ":" ++ toString port).Nodup := by
  refine List.Nodup.map_on (fun port hport port' hport' h => ?_) hpool.nodup
  have hread := congrArg endpointPort h
  rw [endpointPort_key _ (hpool.inRange port hport),
    endpointPort_key _ (hpool.inRange port' hport')] at hread
  exact Except.ok.inj hread

/-- A port has its number of slots among the keys. -/
theorem countP_slotKeys (hpool : ValidPool pool) {port : Nat} (hport : port ∈ pool.endpointPorts) :
    (slotKeys pool host slots).countP (fun key => endpointPort key = .ok port) = slots := by
  have hread (q : Nat) (hq : q ∈ pool.endpointPorts) (slot : Nat) :
      endpointPort (slotKey host pool.poolId slot q) = .ok q :=
    endpointPort_key _ (hpool.inRange q hq)
  unfold slotKeys
  rw [List.countP_flatMap, List.sum_map_eq_nsmul_single port]
  · rw [List.count_eq_one_of_mem hpool.nodup hport, one_nsmul, Function.comp_apply,
      List.countP_eq_length.mpr, List.length_map, List.length_range]
    intro key hkey
    obtain ⟨slot, -, rfl⟩ := List.mem_map.mp hkey
    exact decide_eq_true (hread port hport slot)
  · intro q hne hq
    refine List.countP_eq_zero.mpr fun key hkey => ?_
    obtain ⟨slot, -, rfl⟩ := List.mem_map.mp hkey
    rw [hread q hq slot, decide_eq_true_eq]
    exact fun hsame => hne (Except.ok.inj hsame)

/-- What a key of the pool says. -/
theorem key_of_lease (hpool : ValidPool pool)
    (h : leaseEndpointKeys digest pool host rotationMode sessionId = .ok keys) :
    keys.Nodup ∧ ∀ key ∈ keys, ∃ port ∈ pool.endpointPorts, endpointPort key = .ok port ∧
      (SharesGateway pool host rotationMode ∨ ¬EndsInSlot host →
        physicalEndpointKey key = host ++ ":" ++ toString port) := by
  by_cases hshared : SharesGateway pool host rotationMode
  · by_cases hslots : ∃ slots, Slots pool slots
    · obtain ⟨slots, hslots⟩ := hslots
      obtain ⟨keys', hkeys, hperm⟩ := leaseEndpointKeys_shared digest sessionId hshared hslots
      obtain rfl := Except.ok.inj (h.symm.trans hkeys)
      refine ⟨hperm.nodup_iff.mpr (slotKeys_nodup hpool), fun key hkey => ?_⟩
      obtain ⟨port, hport, slot, -, rfl⟩ := mem_slotKeys.mp (hperm.mem_iff.mp hkey)
      obtain ⟨hne, hchars⟩ := isIdentifier_chars hpool.poolId
      exact ⟨port, hport, endpointPort_key _ (hpool.inRange port hport),
        fun _ => physicalEndpointKey_slotKey hne hchars⟩
    · exact absurd (h.symm.trans (leaseEndpointKeys_bounded hshared hslots)) nofun
  · obtain rfl := Except.ok.inj (h.symm.trans (leaseEndpointKeys_plain hshared))
    refine ⟨plainKeys_nodup hpool, fun key hkey => ?_⟩
    obtain ⟨port, hport, rfl⟩ := List.mem_map.mp hkey
    refine ⟨port, hport, endpointPort_key _ (hpool.inRange port hport), fun hhost => ?_⟩
    exact physicalEndpointKey_plain (hhost.resolve_left hshared)

/-- **Endpoint keys say their port and their host.** The keys of a valid pool are distinct, and each
one is read back as `host:port` for a port of the pool, where the host of a key without a slot does
not end the way a slot is named. Every pool has keys, except that a shared gateway is refused when its
slots are not a whole number within the limit; for any two sessions the keys of a shared gateway are
the same in another order, with the same number of slots for each port. -/
theorem endpoint_keys_faithful (digest : String → Nat) {pool : ProxyPool} (hpool : ValidPool pool)
    (host rotationMode : String) :
    (∀ sessionId keys, leaseEndpointKeys digest pool host rotationMode sessionId = .ok keys →
      keys.Nodup ∧ ∀ key ∈ keys, ∃ port ∈ pool.endpointPorts, endpointPort key = .ok port ∧
        (SharesGateway pool host rotationMode ∨ ¬EndsInSlot host →
          physicalEndpointKey key = host ++ ":" ++ toString port)) ∧
    (∀ sessionId, (∃ keys, leaseEndpointKeys digest pool host rotationMode sessionId = .ok keys) ↔
      (SharesGateway pool host rotationMode → ∃ slots, Slots pool slots)) ∧
    (∀ capacity : Rat, 1 ≤ capacity →
      (pool.config.get "sessionCapacity").toNumber = .finite capacity →
        sessionSlots pool = min 500 capacity) ∧
    ∀ slots, SharesGateway pool host rotationMode → Slots pool slots →
      ∀ sessionId other keys others,
        leaseEndpointKeys digest pool host rotationMode sessionId = .ok keys →
        leaseEndpointKeys digest pool host rotationMode other = .ok others →
        keys.Perm others ∧
        ∀ port ∈ pool.endpointPorts, keys.countP (fun key => endpointPort key = .ok port) = slots := by
  refine ⟨fun sessionId keys h => key_of_lease hpool h, fun sessionId => ?_,
    fun capacity => sessionSlots_of_capacity, ?_⟩
  · constructor
    · rintro ⟨keys, h⟩ hshared
      by_contra hslots
      exact absurd (h.symm.trans (leaseEndpointKeys_bounded hshared hslots)) nofun
    · intro h
      by_cases hshared : SharesGateway pool host rotationMode
      · obtain ⟨slots, hslots⟩ := h hshared
        obtain ⟨keys, hkeys, -⟩ := leaseEndpointKeys_shared digest sessionId hshared hslots
        exact ⟨keys, hkeys⟩
      · exact ⟨_, leaseEndpointKeys_plain hshared⟩
  · intro slots hshared hslots sessionId other keys others hkeys hothers
    obtain ⟨keys', hkeys', hperm⟩ := leaseEndpointKeys_shared digest sessionId hshared hslots
    obtain ⟨others', hothers', hperm'⟩ := leaseEndpointKeys_shared digest other hshared hslots
    obtain rfl := Except.ok.inj (hkeys.symm.trans hkeys')
    obtain rfl := Except.ok.inj (hothers.symm.trans hothers')
    refine ⟨hperm.trans hperm'.symm, fun port hport => ?_⟩
    rw [hperm.countP_eq]
    exact countP_slotKeys hpool hport

end Lease

namespace Sample

/-- A pool of the shared gateway, with this many ports and this capacity. -/
def sharedPool (ports capacity : Nat) : ProxyPool where
  poolId := "evomi-default"
  providerId := "evomi"
  enabled := true
  endpointPorts := (List.range ports).map (1000 + ·)
  config := .object [("sessionSharedGateway", .bool true), ("sessionCapacity", .ofNat capacity)]

end Sample

theorem sharedPool_valid (ports capacity : Nat) (h : ports ≤ 5000) :
    ValidPool (Sample.sharedPool ports capacity) where
  poolId := show isIdentifier "evomi-default" = true by decide +kernel
  nodup := List.nodup_range.map fun _ _ => Nat.add_left_cancel
  inRange := by
    intro port hport
    obtain ⟨index, hindex, rfl⟩ := List.mem_map.mp hport
    rw [List.mem_range] at hindex
    omega

/-- Two sessions share three slots of each of two ports. -/
theorem endpoint_keys_faithful_sample :
    ["rp.evomi.com~evomi-default~0:1000", "rp.evomi.com~evomi-default~1:1000",
      "rp.evomi.com~evomi-default~2:1000", "rp.evomi.com~evomi-default~0:1001",
      "rp.evomi.com~evomi-default~1:1001", "rp.evomi.com~evomi-default~2:1001"].Perm
    ["rp.evomi.com~evomi-default~2:1000", "rp.evomi.com~evomi-default~0:1000",
      "rp.evomi.com~evomi-default~1:1000", "rp.evomi.com~evomi-default~2:1001",
      "rp.evomi.com~evomi-default~0:1001", "rp.evomi.com~evomi-default~1:1001"] :=
  ((endpoint_keys_faithful String.length (sharedPool_valid 2 3 (by decide)) "rp.evomi.com"
    "sticky-session").2.2.2 3 ⟨by decide +kernel, rfl, rfl⟩ ⟨by decide +kernel, by decide⟩ "one"
    "other" _ _
    (by decide +kernel) (by decide +kernel)).1

/-- Eleven ports of 500 slots are more than the limit. -/
theorem large_pool_refused :
    ¬∀ (digest : String → Nat) (pool : ProxyPool) (host rotationMode sessionId : String),
      ValidPool pool →
        ∃ keys, leaseEndpointKeys digest pool host rotationMode sessionId = .ok keys := by
  intro h
  obtain ⟨keys, hkeys⟩ := h String.length (Sample.sharedPool 11 500) "rp.evomi.com"
    "sticky-session" "one" (sharedPool_valid 11 500 (by decide))
  have hrefused : leaseEndpointKeys String.length (Sample.sharedPool 11 500) "rp.evomi.com"
      "sticky-session" "one" =
        .error "Shared gateway capacity exceeds the bounded lease limit" := by
    decide +kernel
  exact absurd (hkeys.symm.trans hrefused) nofun

end LinkSuffix
