import LinkSuffix.Lib.Run
import Mathlib.Data.List.Nodup
import Mathlib.Data.List.Perm.Subperm
import Mathlib.Logic.Function.Basic

/-!
# Browser permits

`acquireBrowserPermit`, `cleanupAbandonedPermits` and `release` (`browserPermit.ts`): processes that
share a directory of permit files, one for each slot. Every operation on a file is an event of its
own, so the calls of all processes interleave between any two of them, and a process may crash
between any two. A file is identified beside its name, as a name can be given to a new file.

* `Phase`, `Shared`, `advance`, `release`, `permits`.
* `Exclusive`: one live call at most holds the permit of a slot.
* `Prompt`: no live call leaves its file unwritten for as long as `staleMs`. `Unreplaced`: the file
  that a cleanup removes is the one that it judged.
* **`permits_exclusive`**; **`permit_held_twice`**: a cleanup that judged the file of a dead process
  removes the file that another one has created in its place.
-/

namespace LinkSuffix.BrowserPermit

open Lib

/-! ## Files and calls -/

/-- A permit file; its metadata are the process it names, once they are written. -/
structure File where
  id : Nat
  metadata : Option Nat
  mtime : Nat

/-- Where a cleanup is with a permit file; the numbers are the file it has judged and the process
that the file names. -/
inductive Probe where
  | reading
  | checking (file pid : Nat)
  | statting (file : Nat)
  | unlinking (file : Nat)
  /-- `statSync` in the `catch` block. -/
  | restatting
  /-- `unlinkSync` in the `catch` block. -/
  | removing (file : Nat)

/-- The next operation of a call. -/
inductive Phase where
  /-- The condition of the loop. -/
  | looping
  | listing (now : Nat)
  | cleaning (now slot : Nat) (rest : List Nat) (probe : Probe)
  | trying (slot : Nat)
  | created (slot file : Nat)
  /-- The metadata could not be written. -/
  | failed (slot file : Nat)
  | holding (slot file : Nat)
  | ended

/-- A call of `acquireBrowserPermit`. -/
structure Call where
  pid : Nat
  startedAt : Nat
  lastCleanupAt : Nat := 0
  phase : Phase := .looping

structure Options where
  maxPermits : Nat
  timeoutMs : Nat
  staleMs : Nat
  staleMs_pos : 0 < staleMs

/-- The directory by slot, the calls by number, and the processes that crashed. -/
structure Shared where
  files : Nat → Option File
  calls : Nat → Option Call
  crashed : Nat → Bool
  clock : Nat
  nextFile : Nat

namespace Shared

def initial : Shared where
  files := fun _ => none
  calls := fun _ => none
  crashed := fun _ => false
  clock := 0
  nextFile := 0

variable (options : Options) (s : Shared)

def setCall (id : Nat) (call : Call) : Shared :=
  { s with calls := Function.update s.calls id (some call) }

def setFile (slot : Nat) (file : Option File) : Shared :=
  { s with files := Function.update s.files slot file }

/-- The slots that are still to be tried. -/
def tryFrom (slot : Nat) : Phase := if slot < options.maxPermits then .trying slot else .looping

/-- The next name of a cleanup, or its end. -/
def nextName (call : Call) (now : Nat) (rest : List Nat) : Call :=
  match rest with
  | [] => { call with lastCleanupAt := s.clock, phase := tryFrom options 0 }
  | slot :: rest => { call with phase := .cleaning now slot rest .reading }

/-- The permit files of the directory. -/
def names : List Nat := (List.range options.maxPermits).filter fun slot => (s.files slot).isSome

/-- An operation of `cleanupAbandonedPermits`. -/
def probeFile (id : Nat) (call : Call) (now slot : Nat) (rest : List Nat) (probe : Probe) : Shared :=
  let turn (probe : Probe) := s.setCall id { call with phase := .cleaning now slot rest probe }
  let skip (s : Shared) := s.setCall id (s.nextName options call now rest)
  match probe with
  | .reading =>
    match s.files slot with
    | none => turn .restatting
    | some file =>
      match file.metadata with
      | none => turn .restatting
      | some pid => turn (.checking file.id pid)
  | .checking file pid => if s.crashed pid then turn (.statting file) else skip s
  | .statting file =>
    match s.files slot with
    | none => turn .restatting
    | some _ => turn (.unlinking file)
  | .unlinking _ =>
    match s.files slot with
    | none => turn .restatting
    | some _ => skip (s.setFile slot none)
  | .restatting =>
    match s.files slot with
    | none => skip s
    | some file =>
      if file.mtime + options.staleMs ≤ now then turn (.removing file.id) else skip s
  | .removing _ => skip (s.setFile slot none)

/-- The metadata of a file that is still in its place. -/
def write (slot file pid : Nat) : Shared :=
  match s.files slot with
  | some old =>
    if old.id = file then s.setFile slot (some { old with metadata := some pid, mtime := s.clock })
    else s
  | none => s

/-- An operation of a call; `written` says whether `writeFileSync` succeeds. -/
def operate (id : Nat) (call : Call) (written : Bool) : Shared :=
  match call.phase with
  | .looping =>
    if s.clock - call.startedAt < options.timeoutMs then
      if 5000 ≤ s.clock - call.lastCleanupAt then
        s.setCall id { call with phase := .listing s.clock }
      else s.setCall id { call with phase := tryFrom options 0 }
    else s.setCall id { call with phase := .ended }
  | .listing now => s.setCall id (s.nextName options call now (s.names options))
  | .cleaning now slot rest probe => s.probeFile options id call now slot rest probe
  | .trying slot =>
    match s.files slot with
    | some _ => s.setCall id { call with phase := tryFrom options (slot + 1) }
    | none =>
      { (s.setFile slot (some ⟨s.nextFile, none, s.clock⟩)).setCall id
          { call with phase := .created slot s.nextFile } with
        nextFile := s.nextFile + 1 }
  | .created slot file =>
    if written then
      (s.write slot file call.pid).setCall id { call with phase := .holding slot file }
    else s.setCall id { call with phase := .failed slot file }
  | .failed slot _ => (s.setCall id { call with phase := .ended }).setFile slot none
  | .holding _ _ => s
  | .ended => s

/-- A call of a process that has not crashed. -/
def live (id : Nat) : Option Call := (s.calls id).filter fun call => !s.crashed call.pid

def advance (id : Nat) (written : Bool) : Shared :=
  match s.live id with
  | some call => s.operate options id call written
  | none => s

def release (id : Nat) : Shared :=
  match s.live id with
  | some call =>
    match call.phase with
    | .holding slot _ => (s.setCall id { call with phase := .ended }).setFile slot none
    | _ => s
  | none => s

/-- A call that begins. -/
def start (id pid : Nat) : Shared :=
  if s.calls id = none ∧ s.crashed pid = false then s.setCall id { pid := pid, startedAt := s.clock }
  else s

end Shared

/-! ## Runs -/

inductive Event where
  | tick (ms : Nat)
  | start (call pid : Nat)
  | advance (call : Nat) (written : Bool)
  | release (call : Nat)
  | crash (pid : Nat)

def permits (options : Options) : EventSystem Shared Event Unit where
  step s event :=
    match event with
    | .tick ms => ({ s with clock := s.clock + ms }, ())
    | .start call pid => (s.start call pid, ())
    | .advance call written => (s.advance options call written, ())
    | .release call => (s.release call, ())
    | .crash pid => ({ s with crashed := Function.update s.crashed pid true }, ())

/-- A live call holds the permit of a slot. -/
def Holds (s : Shared) (id slot : Nat) : Prop :=
  ∃ call ∈ s.live id, ∃ file, call.phase = .holding slot file

def Exclusive (s : Shared) : Prop :=
  ∀ id id' slot, Holds s id slot → Holds s id' slot → id = id'

/-- The slot and the file of a call that has not written its metadata yet. -/
def Phase.unwritten : Phase → Option (Nat × Nat)
  | .created slot file => some (slot, file)
  | .failed slot file => some (slot, file)
  | _ => none

/-- The slot and the file of a call that has created one. -/
def Phase.owned : Phase → Option (Nat × Nat)
  | .created slot file => some (slot, file)
  | .failed slot file => some (slot, file)
  | .holding slot file => some (slot, file)
  | _ => none

/-- The slot that a cleanup removes next, and the file that it has judged. -/
def Phase.removal : Phase → Option (Nat × Nat)
  | .cleaning _ slot _ (.unlinking file) => some (slot, file)
  | .cleaning _ slot _ (.removing file) => some (slot, file)
  | _ => none

/-- No time passes in which a live call leaves its file unwritten for `staleMs`. -/
def Prompt (options : Options) (s : Shared) (event : Event) : Prop :=
  match event with
  | .tick ms => ∀ id, ∀ call ∈ s.live id, ∀ owned ∈ call.phase.unwritten,
      ∀ file ∈ s.files owned.1, s.clock + ms < file.mtime + options.staleMs
  | _ => True

/-- A cleanup removes the file that it has judged, and not another one of the same name. -/
def Unreplaced (s : Shared) (event : Event) : Prop :=
  match event with
  | .advance id _ => ∀ call ∈ s.live id, ∀ removal ∈ call.phase.removal,
      ∀ file ∈ s.files removal.1, file.id = removal.2
  | _ => True

instance (s : Shared) : DecidablePred (Unreplaced s) := fun event =>
  match event with
  | .advance id _ => inferInstanceAs (Decidable (∀ call ∈ s.live id, ∀ removal ∈ call.phase.removal,
      ∀ file ∈ s.files removal.1, file.id = removal.2))
  | .tick _ => .isTrue trivial
  | .start _ _ => .isTrue trivial
  | .release _ => .isTrue trivial
  | .crash _ => .isTrue trivial

/-! ## What a cleanup has judged -/

/-- A process owns the file that a call of it has created. -/
def OwnedBy (s : Shared) (file pid : Nat) : Prop :=
  ∀ id call slot, s.calls id = some call → call.phase.owned = some (slot, file) → call.pid = pid

/-- No live call owns the file. -/
def Abandoned (s : Shared) (file : Nat) : Prop :=
  ∀ id call slot, s.calls id = some call → call.phase.owned = some (slot, file) →
    s.crashed call.pid = true

/-- What a cleanup knows of the file it looks at. -/
def Probe.Sound (s : Shared) (now slot : Nat) : Probe → Prop
  | .reading => True
  | .checking file pid => file < s.nextFile ∧ OwnedBy s file pid
  | .statting file => file < s.nextFile ∧ Abandoned s file
  | .unlinking file => file < s.nextFile ∧ Abandoned s file
  | .removing file => file < s.nextFile ∧ Abandoned s file
  | .restatting => ∀ file ∈ s.files slot, file.metadata ≠ none → now ≤ file.mtime

def Phase.Sound (s : Shared) : Phase → Prop
  | .listing now => now ≤ s.clock
  | .cleaning now slot _ probe => now ≤ s.clock ∧ probe.Sound s now slot
  | _ => True

/-- What later operations do not undo. -/
structure Evolves (s s' : Shared) : Prop where
  clock : s.clock ≤ s'.clock
  nextFile : s.nextFile ≤ s'.nextFile
  crashed : ∀ pid, s.crashed pid = true → s'.crashed pid = true
  /-- A file that is there already gets no new owner. -/
  owned : ∀ id call slot file, s'.calls id = some call → call.phase.owned = some (slot, file) →
    file < s.nextFile → ∃ old, s.calls id = some old ∧ old.phase.owned = some (slot, file) ∧
      old.pid = call.pid
  /-- Metadata are as before, or new. -/
  written : ∀ slot, ∀ file ∈ s'.files slot, file.metadata ≠ none →
    file ∈ s.files slot ∨ s.clock ≤ file.mtime

theorem Evolves.ownedBy {s s' : Shared} (h : Evolves s s') {file pid : Nat}
    (hfile : file < s.nextFile) (howned : OwnedBy s file pid) : OwnedBy s' file pid := by
  intro id call slot hcall hphase
  obtain ⟨old, hold, hownedOld, hpid⟩ := h.owned id call slot file hcall hphase hfile
  exact hpid.symm.trans (howned id old slot hold hownedOld)

theorem Evolves.abandoned {s s' : Shared} (h : Evolves s s') {file : Nat}
    (hfile : file < s.nextFile) (habandoned : Abandoned s file) : Abandoned s' file := by
  intro id call slot hcall hphase
  obtain ⟨old, hold, hownedOld, hpid⟩ := h.owned id call slot file hcall hphase hfile
  exact hpid ▸ h.crashed old.pid (habandoned id old slot hold hownedOld)

theorem Evolves.probe {s s' : Shared} (h : Evolves s s') {now slot : Nat} {probe : Probe}
    (hnow : now ≤ s.clock) (hsound : probe.Sound s now slot) : probe.Sound s' now slot := by
  cases probe with
  | reading => trivial
  | checking file pid => exact ⟨Nat.lt_of_lt_of_le hsound.1 h.nextFile, h.ownedBy hsound.1 hsound.2⟩
  | statting file => exact ⟨Nat.lt_of_lt_of_le hsound.1 h.nextFile, h.abandoned hsound.1 hsound.2⟩
  | unlinking file => exact ⟨Nat.lt_of_lt_of_le hsound.1 h.nextFile, h.abandoned hsound.1 hsound.2⟩
  | removing file => exact ⟨Nat.lt_of_lt_of_le hsound.1 h.nextFile, h.abandoned hsound.1 hsound.2⟩
  | restatting =>
    intro file hfile hmetadata
    rcases h.written slot file hfile hmetadata with hold | hnew
    · exact hsound file hold hmetadata
    · exact Nat.le_trans hnow hnew

theorem Evolves.phase {s s' : Shared} (h : Evolves s s') {phase : Phase} (hsound : phase.Sound s) :
    phase.Sound s' := by
  cases phase with
  | listing now => exact Nat.le_trans hsound h.clock
  | cleaning now slot rest probe =>
    exact ⟨Nat.le_trans hsound.1 h.clock, h.probe hsound.1 hsound.2⟩
  | _ => trivial

/-! ## Files and their owners -/

theorem setCall_calls (s : Shared) (id : Nat) (next : Call) (other : Nat) :
    (s.setCall id next).calls other = if other = id then some next else s.calls other :=
  Function.update_apply ..

theorem setFile_files (s : Shared) (slot : Nat) (file : Option File) (other : Nat) :
    (s.setFile slot file).files other = if other = slot then file else s.files other :=
  Function.update_apply ..

theorem mem_files_setFile {s : Shared} {slot other : Nat} {new : Option File} {file : File}
    (h : file ∈ (s.setFile slot new).files other) :
    (other = slot ∧ new = some file) ∨ (other ≠ slot ∧ file ∈ s.files other) := by
  rw [setFile_files] at h
  split at h
  · rename_i hother
    exact .inl ⟨hother, h⟩
  · rename_i hother
    exact .inr ⟨hother, h⟩

theorem mem_live {s : Shared} {id : Nat} {call : Call} :
    call ∈ s.live id ↔ s.calls id = some call ∧ s.crashed call.pid = false := by
  unfold Shared.live
  rw [Option.mem_def, Option.filter_eq_some_iff]
  simp

theorem unwritten_owned {phase : Phase} {owned : Nat × Nat} (h : owned ∈ phase.unwritten) :
    owned ∈ phase.owned := by
  cases phase with
  | created slot file => exact h
  | failed slot file => exact h
  | _ => cases h

structure Orderly (options : Options) (s : Shared) : Prop where
  /-- The file of a live call is in its place. -/
  kept : ∀ id, ∀ call ∈ s.live id, ∀ owned ∈ call.phase.owned,
    ∃ file ∈ s.files owned.1, file.id = owned.2
  prompt : ∀ id, ∀ call ∈ s.live id, ∀ owned ∈ call.phase.unwritten,
    ∀ file ∈ s.files owned.1, s.clock < file.mtime + options.staleMs
  signed : ∀ id, ∀ call ∈ s.live id, ∀ slot file, call.phase = .holding slot file →
    ∀ file ∈ s.files slot, file.metadata ≠ none
  single : ∀ id id' call call' slot slot' file, s.calls id = some call → s.calls id' = some call' →
    call.phase.owned = some (slot, file) → call'.phase.owned = some (slot', file) → id = id'
  distinct : ∀ slot slot', ∀ file ∈ s.files slot, ∀ file' ∈ s.files slot', file.id = file'.id →
    slot = slot'
  owned : ∀ id call slot file, s.calls id = some call → call.phase.owned = some (slot, file) →
    file < s.nextFile
  known : ∀ slot, ∀ file ∈ s.files slot, file.id < s.nextFile
  named : ∀ slot, ∀ file ∈ s.files slot, ∀ pid ∈ file.metadata, OwnedBy s file.id pid
  sound : ∀ id call, s.calls id = some call → call.phase.Sound s

section Orderly

variable {options : Options} {s : Shared} {id : Nat} {call next : Call}

theorem Orderly.initial : Orderly options Shared.initial where
  kept := fun _ _ h => by cases h
  prompt := fun _ _ h => by cases h
  signed := fun _ _ h => by cases h
  single := fun _ _ _ _ _ _ _ h => by cases h
  distinct := fun _ _ _ h => by cases h
  owned := fun _ _ _ _ h => by cases h
  known := fun _ _ h => by cases h
  named := fun _ _ h => by cases h
  sound := fun _ _ h => by cases h

/-- A slot has one live owner, whose file is the one in its place. -/
theorem Orderly.owner_unique (h : Orderly options s) {id' slot file file' : Nat} {call' : Call}
    (hcall : call ∈ s.live id) (hcall' : call' ∈ s.live id')
    (howned : call.phase.owned = some (slot, file))
    (howned' : call'.phase.owned = some (slot, file')) : id = id' := by
  obtain ⟨found, hfound, hid⟩ := h.kept id call hcall (slot, file) howned
  obtain ⟨found', hfound', hid'⟩ := h.kept id' call' hcall' (slot, file') howned'
  have hsame : found = found' := Option.some.inj (hfound.symm.trans hfound')
  obtain rfl : file = file' := hid.symm.trans ((congrArg File.id hsame).trans hid')
  exact h.single id id' call call' slot slot file (mem_live.mp hcall).1 (mem_live.mp hcall').1
    howned howned'

theorem Orderly.exclusive (h : Orderly options s) : Exclusive s := by
  rintro id id' slot ⟨call, hcall, file, hphase⟩ ⟨call', hcall', file', hphase'⟩
  exact h.owner_unique hcall hcall' (by rw [hphase]; rfl) (by rw [hphase']; rfl)

/-- A phase that owns nothing, or what the call has owned so far. -/
def Continues (s : Shared) (id : Nat) (next : Call) : Prop :=
  next.phase.owned = none ∨ ∃ call slot file, s.calls id = some call ∧ call.pid = next.pid ∧
    call.phase = .created slot file ∧ next.phase = .failed slot file

theorem Continues.owner (h : Continues s id next) {other slot file : Nat} {call' : Call}
    (hcall : (s.setCall id next).calls other = some call')
    (howned : call'.phase.owned = some (slot, file)) :
    ∃ old, s.calls other = some old ∧ old.phase.owned = some (slot, file) ∧ old.pid = call'.pid := by
  rw [setCall_calls] at hcall
  split at hcall
  · rename_i hother
    subst hother
    obtain rfl := Option.some.inj hcall
    rcases h with hnone | ⟨call, slot', file', hcalls, hpid, hphase, hfailed⟩
    · rw [hnone] at howned
      cases howned
    · refine ⟨call, hcalls, ?_, hpid⟩
      rw [hfailed] at howned
      rw [hphase]
      exact howned
  · exact ⟨call', hcall, howned, rfl⟩

theorem Continues.evolves (h : Continues s id next) : Evolves s (s.setCall id next) where
  clock := Nat.le_refl _
  nextFile := Nat.le_refl _
  crashed := fun _ h => h
  owned := fun _ _ _ _ hcall howned _ => h.owner hcall howned
  written := fun _ _ hfile _ => .inl hfile

theorem mem_live_setCall {other : Nat} {call' : Call} (h : call' ∈ (s.setCall id next).live other) :
    (other = id ∧ call' = next) ∨ (other ≠ id ∧ call' ∈ s.live other) := by
  obtain ⟨hcall, hlive⟩ := mem_live.mp h
  rw [setCall_calls] at hcall
  split at hcall
  · rename_i hother
    exact .inl ⟨hother, (Option.some.inj hcall).symm⟩
  · rename_i hother
    exact .inr ⟨hother, mem_live.mpr ⟨hcall, hlive⟩⟩

/-- A call that goes on without a file, or gives its file up. -/
theorem Orderly.setCall (h : Orderly options s) (hlive : s.crashed next.pid = false)
    (hnext : Continues s id next) (hsound : next.phase.Sound s) :
    Orderly options (s.setCall id next) := by
  have hlast : ∀ owned ∈ next.phase.owned, ∃ call ∈ s.live id, owned ∈ call.phase.unwritten ∧
      owned ∈ call.phase.owned := by
    intro owned howned
    rcases hnext with hnone | ⟨call, slot, file, hcalls, hpid, hphase, hfailed⟩
    · rw [hnone] at howned
      cases howned
    · rw [hfailed] at howned
      obtain rfl : (slot, file) = owned := Option.some.inj howned
      refine ⟨call, mem_live.mpr ⟨hcalls, hpid ▸ hlive⟩, ?_, ?_⟩
      · rw [hphase]
        rfl
      · rw [hphase]
        rfl
  refine ⟨?_, ?_, ?_, ?_, h.distinct, ?_, h.known, ?_, ?_⟩
  · intro other call' hcall owned howned
    rcases mem_live_setCall hcall with ⟨-, rfl⟩ | ⟨-, hold⟩
    · obtain ⟨call, hcall, -, hown⟩ := hlast owned howned
      exact h.kept id call hcall owned hown
    · exact h.kept other call' hold owned howned
  · intro other call' hcall owned howned
    rcases mem_live_setCall hcall with ⟨-, rfl⟩ | ⟨-, hold⟩
    · obtain ⟨call, hcall, hunwritten, -⟩ := hlast owned (unwritten_owned howned)
      exact h.prompt id call hcall owned hunwritten
    · exact h.prompt other call' hold owned howned
  · intro other call' hcall slot file hphase
    rcases mem_live_setCall hcall with ⟨-, rfl⟩ | ⟨-, hold⟩
    · rcases hnext with hnone | ⟨_, _, _, _, _, _, hfailed⟩
      · rw [hphase] at hnone
        cases hnone
      · rw [hphase] at hfailed
        cases hfailed
    · exact h.signed other call' hold slot file hphase
  · intro other other' call' call'' slot slot' file hcall hcall' howned howned'
    obtain ⟨old, hold, hown, -⟩ := hnext.owner hcall howned
    obtain ⟨old', hold', hown', -⟩ := hnext.owner hcall' howned'
    exact h.single other other' old old' slot slot' file hold hold' hown hown'
  · intro other call' slot file hcall howned
    obtain ⟨old, hold, hown, -⟩ := hnext.owner hcall howned
    exact h.owned other old slot file hold hown
  · intro slot file hfile pid hpid
    exact hnext.evolves.ownedBy (h.known slot file hfile) (h.named slot file hfile pid hpid)
  · intro other call' hcall
    rw [setCall_calls] at hcall
    split at hcall
    · obtain rfl := Option.some.inj hcall
      exact hnext.evolves.phase hsound
    · exact hnext.evolves.phase (h.sound other call' hcall)

/-- A removed file that no live call owns. -/
theorem Orderly.unlink (h : Orderly options s) {slot : Nat}
    (hfree : ∀ id, ∀ call ∈ s.live id, ∀ owned ∈ call.phase.owned, owned.1 ≠ slot) :
    Orderly options (s.setFile slot none) := by
  have hkeeps {other : Nat} (hother : other ≠ slot) : (s.setFile slot none).files other =
      s.files other := by rw [setFile_files, if_neg hother]
  have hfiles {other : Nat} {file : File} (hfile : file ∈ (s.setFile slot none).files other) :
      file ∈ s.files other := by
    rcases mem_files_setFile hfile with ⟨-, hnone⟩ | ⟨-, hold⟩
    · cases hnone
    · exact hold
  have hevolves : Evolves s (s.setFile slot none) :=
    ⟨Nat.le_refl _, Nat.le_refl _, fun _ h => h,
      fun _ call _ _ hcall howned _ => ⟨call, hcall, howned, rfl⟩,
      fun _ _ hfile _ => .inl (hfiles hfile)⟩
  refine ⟨?_, ?_, ?_, h.single, ?_, h.owned, ?_, ?_, ?_⟩
  · intro id call hcall owned howned
    rw [hkeeps (hfree id call hcall owned howned)]
    exact h.kept id call hcall owned howned
  · exact fun id call hcall owned howned file hfile =>
      h.prompt id call hcall owned howned file (hfiles hfile)
  · exact fun id call hcall slot file hphase file hfile =>
      h.signed id call hcall slot _ hphase file (hfiles hfile)
  · exact fun slot slot' file hfile file' hfile' =>
      h.distinct slot slot' file (hfiles hfile) file' (hfiles hfile')
  · exact fun slot file hfile => h.known slot file (hfiles hfile)
  · exact fun slot file hfile => h.named slot file (hfiles hfile)
  · exact fun id call hcall => hevolves.phase (h.sound id call hcall)

/-! ## Creating and writing -/

theorem Orderly.create (h : Orderly options s) (hcall : call ∈ s.live id) {slot : Nat}
    (hnone : s.files slot = none) :
    Orderly options { (s.setFile slot (some ⟨s.nextFile, none, s.clock⟩)).setCall id
      { call with phase := .created slot s.nextFile } with nextFile := s.nextFile + 1 } := by
  generalize hnew : ({ call with phase := .created slot s.nextFile } : Call) = next
  have hphase : next.phase = .created slot s.nextFile := by rw [← hnew]
  have hpid : next.pid = call.pid := by rw [← hnew]
  have hfiles {other : Nat} {file : File} (hfile : file ∈
      (s.setFile slot (some ⟨s.nextFile, none, s.clock⟩)).files other) :
      (other = slot ∧ file = ⟨s.nextFile, none, s.clock⟩) ∨ (other ≠ slot ∧ file ∈ s.files other) :=
    (mem_files_setFile hfile).imp_left fun h => ⟨h.1, (Option.some.inj h.2).symm⟩
  have hplace : (⟨s.nextFile, none, s.clock⟩ : File) ∈
      (s.setFile slot (some ⟨s.nextFile, none, s.clock⟩)).files slot := by
    rw [setFile_files, if_pos rfl]
    rfl
  have howner {other slot' file : Nat} {call' : Call}
      (hcall' : (s.setCall id next).calls other = some call')
      (howned : call'.phase.owned = some (slot', file)) :
      (other = id ∧ slot' = slot ∧ file = s.nextFile) ∨
        (s.calls other = some call' ∧ file < s.nextFile) := by
    rw [setCall_calls] at hcall'
    split at hcall'
    · rename_i hother
      obtain rfl := Option.some.inj hcall'
      rw [hphase] at howned
      obtain ⟨rfl, rfl⟩ := Prod.mk.inj (Option.some.inj howned)
      exact .inl ⟨hother, rfl, rfl⟩
    · exact .inr ⟨hcall', h.owned other call' slot' file hcall' howned⟩
  have hevolves : Evolves s { (s.setFile slot (some ⟨s.nextFile, none, s.clock⟩)).setCall id next with
      nextFile := s.nextFile + 1 } := by
    refine ⟨Nat.le_refl _, Nat.le_succ _, fun _ h => h, ?_, ?_⟩
    · intro other call' slot' file hcall' howned hfile
      rcases howner hcall' howned with ⟨-, -, rfl⟩ | ⟨hold, -⟩
      · exact absurd hfile (Nat.lt_irrefl _)
      · exact ⟨call', hold, howned, rfl⟩
    · intro other file hfile hmetadata
      rcases hfiles hfile with ⟨-, rfl⟩ | ⟨-, hold⟩
      · exact absurd rfl hmetadata
      · exact .inl hold
  have hkept {other : Nat} {call' : Call} (hold : call' ∈ s.live other) {owned : Nat × Nat}
      (howned : owned ∈ call'.phase.owned) : owned.1 ≠ slot := by
    intro hslot
    obtain ⟨file, hfile, -⟩ := h.kept other call' hold owned howned
    rw [hslot, hnone] at hfile
    cases hfile
  refine ⟨?_, ?_, ?_, ?_, ?_, ?_, ?_, ?_, ?_⟩
  · intro other call' hcall' owned howned
    rcases mem_live_setCall hcall' with ⟨-, rfl⟩ | ⟨-, hold⟩
    · rw [hphase] at howned
      obtain rfl : (slot, s.nextFile) = owned := Option.some.inj howned
      exact ⟨_, hplace, rfl⟩
    · obtain ⟨file, hfile, hid⟩ := h.kept other call' hold owned howned
      refine ⟨file, ?_, hid⟩
      exact (setFile_files ..).trans ((if_neg (hkept hold howned)).trans hfile)
  · intro other call' hcall' owned howned file hfile
    rcases hfiles hfile with ⟨-, rfl⟩ | ⟨hne, hfile⟩
    · exact Nat.lt_add_of_pos_right options.staleMs_pos
    · rcases mem_live_setCall hcall' with ⟨-, rfl⟩ | ⟨-, hold⟩
      · rw [hphase] at howned
        obtain rfl : (slot, s.nextFile) = owned := Option.some.inj howned
        exact absurd rfl hne
      · exact h.prompt other call' hold owned howned file hfile
  · intro other call' hcall' slot' file' hholding file hfile
    rcases mem_live_setCall hcall' with ⟨-, rfl⟩ | ⟨-, hold⟩
    · rw [hphase] at hholding
      cases hholding
    · rcases hfiles hfile with ⟨rfl, -⟩ | ⟨-, hfile⟩
      · have howned : (slot', file') ∈ call'.phase.owned := by
          rw [hholding]
          rfl
        exact absurd rfl (hkept hold howned)
      · exact h.signed other call' hold slot' file' hholding file hfile
  · intro other other' call' call'' slot' slot'' file hcall' hcall'' howned howned'
    rcases howner hcall' howned with ⟨rfl, -, hfile⟩ | ⟨hold, hlt⟩ <;>
      rcases howner hcall'' howned' with ⟨rfl, -, hfile'⟩ | ⟨hold', hlt'⟩
    · rfl
    · exact absurd hfile (Nat.ne_of_lt hlt')
    · exact absurd hfile' (Nat.ne_of_lt hlt)
    · exact h.single other other' call' call'' slot' slot'' file hold hold' howned howned'
  · intro slot' slot'' file hfile file' hfile' hid
    rcases hfiles hfile with ⟨rfl, rfl⟩ | ⟨-, hold⟩ <;>
      rcases hfiles hfile' with ⟨rfl, rfl⟩ | ⟨-, hold'⟩
    · rfl
    · exact absurd hid.symm (Nat.ne_of_lt (h.known slot'' file' hold'))
    · exact absurd hid (Nat.ne_of_lt (h.known slot' file hold))
    · exact h.distinct slot' slot'' file hold file' hold' hid
  · intro other call' slot' file hcall' howned
    rcases howner hcall' howned with ⟨-, -, rfl⟩ | ⟨-, hlt⟩
    · exact Nat.lt_succ_self _
    · exact Nat.lt_succ_of_lt hlt
  · intro slot' file hfile
    rcases hfiles hfile with ⟨-, rfl⟩ | ⟨-, hold⟩
    · exact Nat.lt_succ_self _
    · exact Nat.lt_succ_of_lt (h.known slot' file hold)
  · intro slot' file hfile pid hmetadata
    rcases hfiles hfile with ⟨-, rfl⟩ | ⟨-, hold⟩
    · cases hmetadata
    · exact hevolves.ownedBy (h.known slot' file hold) (h.named slot' file hold pid hmetadata)
  · intro other call' hcall'
    rw [setCall_calls] at hcall'
    split at hcall'
    · obtain rfl := Option.some.inj hcall'
      rw [hphase]
      trivial
    · exact hevolves.phase (h.sound other call' hcall')

theorem Orderly.write (h : Orderly options s) (hcall : call ∈ s.live id) {slot file : Nat}
    (hphase : call.phase = .created slot file) :
    Orderly options ((s.write slot file call.pid).setCall id
      { call with phase := .holding slot file }) := by
  obtain ⟨hcalls, hlive⟩ := mem_live.mp hcall
  have hown : call.phase.owned = some (slot, file) := by
    rw [hphase]
    rfl
  obtain ⟨found, hfound, rfl⟩ := h.kept id call hcall (slot, file) hown
  have hwrite : s.write slot found.id call.pid = s.setFile slot
      (some { found with metadata := some call.pid, mtime := s.clock }) := by
    unfold Shared.write
    rw [Option.mem_def.mp hfound]
    exact if_pos rfl
  rw [hwrite]
  generalize hsigned : ({ found with metadata := some call.pid, mtime := s.clock } : File) = signed
  generalize hnew : ({ call with phase := .holding slot found.id } : Call) = next
  have hholding : next.phase = .holding slot found.id := by rw [← hnew]
  have hpid : next.pid = call.pid := by rw [← hnew]
  have hid : signed.id = found.id := by rw [← hsigned]
  have hplace : (s.setFile slot (some signed)).files slot = some signed := by
    rw [setFile_files, if_pos rfl]
  -- A file of the directory is one that was there, but for what is written.
  have hfiles {other : Nat} {file : File} (hfile : file ∈ (s.setFile slot (some signed)).files other) :
      (other = slot ∧ file = signed) ∨ (other ≠ slot ∧ file ∈ s.files other) :=
    (mem_files_setFile hfile).imp_left fun h => ⟨h.1, (Option.some.inj h.2).symm⟩
  have hold {other : Nat} {file : File} (hfile : file ∈ (s.setFile slot (some signed)).files other) :
      ∃ old ∈ s.files other, old.id = file.id := by
    rcases hfiles hfile with ⟨rfl, rfl⟩ | ⟨-, hfile⟩
    · exact ⟨found, hfound, hid.symm⟩
    · exact ⟨file, hfile, rfl⟩
  have howner {other slot' file : Nat} {call' : Call}
      (hcall' : (s.setCall id next).calls other = some call')
      (howned : call'.phase.owned = some (slot', file)) :
      ∃ old, s.calls other = some old ∧ old.phase.owned = some (slot', file) ∧
        old.pid = call'.pid := by
    rw [setCall_calls] at hcall'
    split at hcall'
    · rename_i hother
      obtain rfl := Option.some.inj hcall'
      rw [hholding] at howned
      exact ⟨call, hother ▸ hcalls, hown.trans howned, hpid.symm⟩
    · exact ⟨call', hcall', howned, rfl⟩
  have hevolves : Evolves s ((s.setFile slot (some signed)).setCall id next) := by
    refine ⟨Nat.le_refl _, Nat.le_refl _, fun _ h => h,
      fun _ _ _ _ hcall' howned _ => howner hcall' howned, ?_⟩
    intro other file hfile _
    rcases hfiles hfile with ⟨-, rfl⟩ | ⟨-, hfile⟩
    · exact .inr (hsigned ▸ Nat.le_refl _)
    · exact .inl hfile
  refine ⟨?_, ?_, ?_, ?_, ?_, ?_, ?_, ?_, ?_⟩
  · intro other call' hcall' owned howned
    obtain ⟨hcalls', hlive'⟩ := mem_live.mp hcall'
    obtain ⟨old, holdCall, holdOwned, holdPid⟩ := howner hcalls' howned
    obtain ⟨file, hfile, hfileId⟩ := h.kept other old
      (mem_live.mpr ⟨holdCall, holdPid ▸ hlive'⟩) owned holdOwned
    by_cases hslot : owned.1 = slot
    · obtain rfl : found = file := Option.some.inj (hfound.symm.trans (hslot ▸ hfile))
      exact ⟨signed, hslot ▸ hplace, hid.trans hfileId⟩
    · exact ⟨file, (setFile_files ..).trans ((if_neg hslot).trans hfile), hfileId⟩
  · intro other call' hcall' owned howned file hfile
    rcases hfiles hfile with ⟨-, rfl⟩ | ⟨-, hfile⟩
    · rw [← hsigned]
      exact Nat.lt_add_of_pos_right options.staleMs_pos
    · rcases mem_live_setCall hcall' with ⟨-, rfl⟩ | ⟨-, hold⟩
      · rw [hholding] at howned
        cases howned
      · exact h.prompt other call' hold owned howned file hfile
  · intro other call' hcall' slot' file' hphase' file hfile
    rcases hfiles hfile with ⟨-, rfl⟩ | ⟨hne, hfile⟩
    · rw [← hsigned]
      exact Option.some_ne_none _
    · rcases mem_live_setCall hcall' with ⟨-, rfl⟩ | ⟨-, hold⟩
      · rw [hholding] at hphase'
        exact absurd (Phase.holding.inj hphase').1.symm hne
      · exact h.signed other call' hold slot' file' hphase' file hfile
  · intro other other' call' call'' slot' slot'' file hcall' hcall'' howned howned'
    obtain ⟨old, hold, hownedOld, -⟩ := howner hcall' howned
    obtain ⟨old', hold', hownedOld', -⟩ := howner hcall'' howned'
    exact h.single other other' old old' slot' slot'' file hold hold' hownedOld hownedOld'
  · intro slot' slot'' file hfile file' hfile' hsame
    obtain ⟨old, hmem, heq⟩ := hold hfile
    obtain ⟨old', hmem', heq'⟩ := hold hfile'
    exact h.distinct slot' slot'' old hmem old' hmem' (heq.trans (hsame.trans heq'.symm))
  · intro other call' slot' file hcall' howned
    obtain ⟨old, hold, hownedOld, -⟩ := howner hcall' howned
    exact h.owned other old slot' file hold hownedOld
  · intro slot' file hfile
    obtain ⟨old, hmem, heq⟩ := hold hfile
    exact heq ▸ h.known slot' old hmem
  · intro slot' file hfile pid hmetadata
    rcases hfiles hfile with ⟨-, rfl⟩ | ⟨-, hfile⟩
    · rw [← hsigned] at hmetadata ⊢
      obtain rfl : call.pid = pid := Option.some.inj hmetadata
      intro other call' slot'' hcall' howned
      obtain ⟨old, hold, hownedOld, hpidOld⟩ := howner hcall' howned
      have hother : other = id :=
        h.single other id old call slot'' slot found.id hold hcalls hownedOld hown
      subst hother
      obtain rfl := Option.some.inj (hold.symm.trans hcalls)
      exact hpidOld.symm
    · exact hevolves.ownedBy (h.known slot' file hfile) (h.named slot' file hfile pid hmetadata)
  · intro other call' hcall'
    rw [setCall_calls] at hcall'
    split at hcall'
    · obtain rfl := Option.some.inj hcall'
      rw [hholding]
      trivial
    · exact hevolves.phase (h.sound other call' hcall')

/-! ## Cleaning up -/

/-- A file that is stale for a cleanup that could not read it is abandoned. -/
theorem Orderly.stale (h : Orderly options s) {now slot : Nat} {file : File} (hnow : now ≤ s.clock)
    (hwritten : ∀ file ∈ s.files slot, file.metadata ≠ none → now ≤ file.mtime)
    (hfile : file ∈ s.files slot) (hstale : file.mtime + options.staleMs ≤ now) :
    Abandoned s file.id := by
  intro id call slot' hcall howned
  by_contra hcrashed
  have hlive : call ∈ s.live id := mem_live.mpr ⟨hcall, Bool.eq_false_iff.mpr hcrashed⟩
  obtain ⟨found, hfound, hid⟩ := h.kept id call hlive (slot', file.id) howned
  have hslot : slot' = slot := h.distinct slot' slot found hfound file hfile hid
  subst hslot
  obtain rfl : found = file := Option.some.inj (hfound.symm.trans hfile)
  have hpos := options.staleMs_pos
  cases hphase : call.phase with
  | created slot'' file' =>
    have hprompt := h.prompt id call hlive (slot', found.id) (by rw [hphase] at howned ⊢; exact howned)
      found hfound
    omega
  | failed slot'' file' =>
    have hprompt := h.prompt id call hlive (slot', found.id) (by rw [hphase] at howned ⊢; exact howned)
      found hfound
    omega
  | holding slot'' file' =>
    rw [hphase] at howned
    obtain ⟨rfl, rfl⟩ := Prod.mk.inj (Option.some.inj howned)
    have hsigned := h.signed id call hlive _ _ hphase found hfound
    have hnew := hwritten found hfound hsigned
    omega
  | looping => rw [hphase] at howned; cases howned
  | listing now => rw [hphase] at howned; cases howned
  | cleaning now slot rest probe => rw [hphase] at howned; cases howned
  | trying slot => rw [hphase] at howned; cases howned
  | ended => rw [hphase] at howned; cases howned

theorem continues_of_none (howned : next.phase.owned = none) : Continues s id next := .inl howned

/-- A cleanup that removes the file it has judged. -/
theorem Orderly.removed (h : Orderly options s) {slot file : Nat} (hjudged : Abandoned s file)
    (hsame : ∀ found ∈ s.files slot, found.id = file) : Orderly options (s.setFile slot none) := by
  refine h.unlink fun id call hcall owned howned hslot => ?_
  obtain ⟨found, hfound, hid⟩ := h.kept id call hcall owned howned
  obtain ⟨hcalls, hlive⟩ := mem_live.mp hcall
  rw [hslot] at hfound
  have hfile : owned.2 = file := hid.symm.trans (hsame found hfound)
  have hcrashed := hjudged id call owned.1 hcalls (hfile ▸ howned)
  rw [hlive] at hcrashed
  cases hcrashed

theorem Orderly.tryFrom (h : Orderly options s) (hlive : s.crashed next.pid = false) {slot : Nat}
    (hphase : next.phase = Shared.tryFrom options slot) : Orderly options (s.setCall id next) := by
  unfold Shared.tryFrom at hphase
  split at hphase
  · exact h.setCall hlive (continues_of_none (by rw [hphase]; rfl)) (by rw [hphase]; trivial)
  · exact h.setCall hlive (continues_of_none (by rw [hphase]; rfl)) (by rw [hphase]; trivial)

theorem Orderly.nextName (h : Orderly options s) (hcall : call ∈ s.live id) {now : Nat}
    (hnow : now ≤ s.clock) (rest : List Nat) :
    Orderly options (s.setCall id (s.nextName options call now rest)) := by
  have hlive := (mem_live.mp hcall).2
  unfold Shared.nextName
  cases rest with
  | nil => exact h.tryFrom hlive rfl
  | cons slot rest => exact h.setCall hlive (continues_of_none rfl) ⟨hnow, trivial⟩

theorem Orderly.probeFile (h : Orderly options s) (hcall : call ∈ s.live id) {now slot : Nat}
    {rest : List Nat} {probe : Probe} (hphase : call.phase = .cleaning now slot rest probe)
    (hsame : ∀ removal ∈ call.phase.removal, ∀ file ∈ s.files removal.1, file.id = removal.2) :
    Orderly options (s.probeFile options id call now slot rest probe) := by
  obtain ⟨hcalls, hlive⟩ := mem_live.mp hcall
  obtain ⟨hnow, hsound⟩ : now ≤ s.clock ∧ probe.Sound s now slot := by
    have hsound := h.sound id call hcalls
    rwa [hphase] at hsound
  have hturn {probe : Probe} (hprobe : probe.Sound s now slot) : Orderly options
      (s.setCall id { call with phase := .cleaning now slot rest probe }) :=
    h.setCall hlive (continues_of_none rfl) ⟨hnow, hprobe⟩
  have hmissing (hnone : s.files slot = none) : Probe.restatting.Sound s now slot := by
    intro file hfile
    rw [hnone] at hfile
    cases hfile
  have hskip := h.nextName hcall hnow rest
  have hremove {file : Nat} (hjudged : Abandoned s file)
      (hremoval : call.phase.removal = some (slot, file)) : Orderly options
        ((s.setFile slot none).setCall id (s.nextName options call now rest)) :=
    (h.removed hjudged (hsame (slot, file) hremoval)).nextName hcall hnow rest
  unfold Shared.probeFile
  cases probe with
  | reading =>
    dsimp only
    split
    · rename_i hnone
      exact hturn (hmissing hnone)
    · rename_i file hfile
      split
      · rename_i hblank
        refine hturn fun found hfound hmetadata => ?_
        obtain rfl : file = found := Option.some.inj (hfile.symm.trans hfound)
        exact absurd hblank hmetadata
      · rename_i pid hpid
        exact hturn ⟨h.known slot file hfile, h.named slot file hfile pid hpid⟩
  | checking file pid =>
    dsimp only
    split
    · rename_i hcrashed
      refine hturn ⟨hsound.1, fun other call' slot' hcall' howned => ?_⟩
      rw [hsound.2 other call' slot' hcall' howned]
      exact hcrashed
    · exact hskip
  | statting file =>
    dsimp only
    split
    · rename_i hnone
      exact hturn (hmissing hnone)
    · exact hturn hsound
  | unlinking file =>
    dsimp only
    split
    · rename_i hnone
      exact hturn (hmissing hnone)
    · exact hremove hsound.2 (by rw [hphase]; rfl)
  | restatting =>
    dsimp only
    split
    · exact hskip
    · rename_i file hfile
      split
      · rename_i hstale
        exact hturn ⟨h.known slot file hfile, h.stale hnow hsound hfile hstale⟩
      · exact hskip
  | removing file => exact hremove hsound.2 (by rw [hphase]; rfl)

/-- The permit file of a call that ends. -/
theorem Orderly.giveUp (h : Orderly options s) (hcall : call ∈ s.live id) {slot file : Nat}
    (hown : call.phase.owned = some (slot, file)) :
    Orderly options ((s.setCall id { call with phase := .ended }).setFile slot none) := by
  have hended : Orderly options (s.setCall id { call with phase := .ended }) :=
    h.setCall (mem_live.mp hcall).2 (continues_of_none rfl) trivial
  refine hended.unlink fun other call' hcall' owned howned hslot => ?_
  rcases mem_live_setCall hcall' with ⟨-, rfl⟩ | ⟨hother, hold⟩
  · cases howned
  · obtain ⟨slot', file'⟩ := owned
    subst hslot
    exact hother (h.owner_unique hold hcall howned hown)

theorem Orderly.operate (h : Orderly options s) (hcall : call ∈ s.live id) (written : Bool)
    (hsame : ∀ removal ∈ call.phase.removal, ∀ file ∈ s.files removal.1, file.id = removal.2) :
    Orderly options (s.operate options id call written) := by
  obtain ⟨hcalls, hlive⟩ := mem_live.mp hcall
  have htry (slot : Nat) : Orderly options
      (s.setCall id { call with phase := Shared.tryFrom options slot }) :=
    h.tryFrom hlive rfl
  unfold Shared.operate
  split
  · split
    · split
      · exact h.setCall hlive (continues_of_none rfl) (Nat.le_refl _)
      · exact htry 0
    · exact h.setCall hlive (continues_of_none rfl) trivial
  · rename_i now hphase
    have hnow : now ≤ s.clock := by
      have hsound := h.sound id call hcalls
      rwa [hphase] at hsound
    exact h.nextName hcall hnow _
  · rename_i now slot rest probe hphase
    exact h.probeFile hcall hphase hsame
  · rename_i slot hphase
    split
    · exact htry (slot + 1)
    · rename_i hnone
      exact h.create hcall hnone
  · rename_i slot file hphase
    split
    · exact h.write hcall hphase
    · exact h.setCall hlive (.inr ⟨call, slot, file, hcalls, rfl, hphase, rfl⟩) trivial
  · rename_i slot file hphase
    exact h.giveUp hcall (by rw [hphase]; rfl)
  · exact h
  · exact h

/-! ## Every event -/

theorem Orderly.tick (h : Orderly options s) {ms : Nat}
    (hprompt : Prompt options s (.tick ms)) : Orderly options { s with clock := s.clock + ms } := by
  have hevolves : Evolves s { s with clock := s.clock + ms } :=
    ⟨Nat.le_add_right _ _, Nat.le_refl _, fun _ h => h,
      fun _ call _ _ hcall howned _ => ⟨call, hcall, howned, rfl⟩, fun _ _ hfile _ => .inl hfile⟩
  exact ⟨h.kept, hprompt, h.signed, h.single, h.distinct, h.owned, h.known, h.named,
    fun id call hcall => hevolves.phase (h.sound id call hcall)⟩

/-- The files of a process that crashed stay behind. -/
theorem Orderly.crash (h : Orderly options s) (pid : Nat) :
    Orderly options { s with crashed := Function.update s.crashed pid true } := by
  have hcrashed (other : Nat) (hold : s.crashed other = true) :
      Function.update s.crashed pid true other = true := by
    rw [Function.update_apply]
    split
    · rfl
    · exact hold
  have hlive {id : Nat} {call : Call} (hcall : call ∈
      ({ s with crashed := Function.update s.crashed pid true } : Shared).live id) :
      call ∈ s.live id := by
    obtain ⟨hcalls, halive⟩ := mem_live.mp hcall
    refine mem_live.mpr ⟨hcalls, Bool.eq_false_iff.mpr fun hdead => ?_⟩
    exact absurd (hcrashed call.pid hdead) (Bool.eq_false_iff.mp halive)
  have hevolves : Evolves s { s with crashed := Function.update s.crashed pid true } :=
    ⟨Nat.le_refl _, Nat.le_refl _, hcrashed,
      fun _ call _ _ hcall howned _ => ⟨call, hcall, howned, rfl⟩, fun _ _ hfile _ => .inl hfile⟩
  exact ⟨fun id call hcall => h.kept id call (hlive hcall),
    fun id call hcall => h.prompt id call (hlive hcall),
    fun id call hcall => h.signed id call (hlive hcall), h.single, h.distinct, h.owned, h.known,
    h.named, fun id call hcall => hevolves.phase (h.sound id call hcall)⟩

theorem Orderly.start (h : Orderly options s) (id pid : Nat) : Orderly options (s.start id pid) := by
  unfold Shared.start
  split
  · rename_i hfree
    exact h.setCall hfree.2 (continues_of_none rfl) trivial
  · exact h

theorem Orderly.step (h : Orderly options s) {event : Event} (hprompt : Prompt options s event)
    (hunreplaced : Unreplaced s event) : Orderly options ((permits options).next s event) := by
  cases event with
  | tick ms => exact h.tick hprompt
  | start call pid => exact h.start call pid
  | advance id written =>
    have hnext : (permits options).next s (.advance id written) = s.advance options id written := rfl
    rw [hnext]
    unfold Shared.advance
    split
    · rename_i call hcall
      exact h.operate hcall written (hunreplaced call hcall)
    · exact h
  | release id =>
    have hnext : (permits options).next s (.release id) = s.release id := rfl
    rw [hnext]
    unfold Shared.release
    split
    · rename_i call hcall
      split
      · rename_i slot file hphase
        exact h.giveUp hcall (by rw [hphase]; rfl)
      · exact h
    · exact h
  | crash pid => exact h.crash pid

end Orderly

/-! ## The slots -/

/-- The slot that a call tries or has taken. -/
def Phase.slot : Phase → Option Nat
  | .trying slot => some slot
  | .created slot _ => some slot
  | .failed slot _ => some slot
  | .holding slot _ => some slot
  | _ => none

def InRange (options : Options) (s : Shared) : Prop :=
  ∀ id call, s.calls id = some call → ∀ slot ∈ call.phase.slot, slot < options.maxPermits

section InRange

variable {options : Options} {s : Shared} {id : Nat} {call next : Call}

theorem InRange.setCall (h : InRange options s)
    (hslot : ∀ slot ∈ next.phase.slot, slot < options.maxPermits) :
    InRange options (s.setCall id next) := by
  intro other call' hcall'
  rw [setCall_calls] at hcall'
  split at hcall'
  · obtain rfl := Option.some.inj hcall'
    exact hslot
  · exact h other call' hcall'

theorem tryFrom_slot (slot : Nat) :
    ∀ found ∈ (Shared.tryFrom options slot).slot, found < options.maxPermits := by
  intro found hfound
  unfold Shared.tryFrom at hfound
  split at hfound
  · rename_i hlt
    obtain rfl : slot = found := Option.some.inj hfound
    exact hlt
  · cases hfound

theorem nextName_slot (now : Nat) (rest : List Nat) :
    ∀ slot ∈ (s.nextName options call now rest).phase.slot, slot < options.maxPermits := by
  unfold Shared.nextName
  cases rest with
  | nil => exact tryFrom_slot 0
  | cons slot rest => exact fun _ h => by cases h

theorem InRange.probeFile (h : InRange options s) (now slot : Nat) (rest : List Nat)
    (probe : Probe) : InRange options (s.probeFile options id call now slot rest probe) := by
  have hturn (probe : Probe) : InRange options
      (s.setCall id { call with phase := .cleaning now slot rest probe }) :=
    h.setCall fun _ h => by cases h
  have hskip : InRange options (s.setCall id (s.nextName options call now rest)) :=
    h.setCall (nextName_slot now rest)
  unfold Shared.probeFile
  cases probe with
  | reading =>
    dsimp only
    split
    · exact hturn _
    · split
      · exact hturn _
      · exact hturn _
  | checking file pid =>
    dsimp only
    split
    · exact hturn _
    · exact hskip
  | statting file =>
    dsimp only
    split
    · exact hturn _
    · exact hturn _
  | unlinking file =>
    dsimp only
    split
    · exact hturn _
    · exact hskip
  | restatting =>
    dsimp only
    split
    · exact hskip
    · split
      · exact hturn _
      · exact hskip
  | removing file => exact hskip

theorem InRange.operate (h : InRange options s) (hcall : s.calls id = some call) (written : Bool) :
    InRange options (s.operate options id call written) := by
  have hslot := h id call hcall
  unfold Shared.operate
  split
  · split
    · split
      · exact h.setCall fun _ h => by cases h
      · exact h.setCall (tryFrom_slot 0)
    · exact h.setCall fun _ h => by cases h
  · exact h.setCall (nextName_slot _ _)
  · exact h.probeFile _ _ _ _
  · rename_i slot hphase
    split
    · exact h.setCall (tryFrom_slot (slot + 1))
    · rw [hphase] at hslot
      exact h.setCall hslot
  · rename_i slot file hphase
    rw [hphase] at hslot
    split
    · have hwrite : InRange options (s.write slot file call.pid) := by
        unfold Shared.write
        split
        · split
          · exact h
          · exact h
        · exact h
      exact hwrite.setCall hslot
    · exact h.setCall hslot
  · exact h.setCall fun _ h => by cases h
  · exact h
  · exact h

theorem InRange.step (h : InRange options s) (event : Event) :
    InRange options ((permits options).next s event) := by
  cases event with
  | tick ms => exact h
  | start id pid =>
    have hnext : (permits options).next s (.start id pid) = s.start id pid := rfl
    rw [hnext]
    unfold Shared.start
    split
    · exact h.setCall fun _ h => by cases h
    · exact h
  | advance id written =>
    have hnext : (permits options).next s (.advance id written) = s.advance options id written := rfl
    rw [hnext]
    unfold Shared.advance
    split
    · rename_i call hcall
      exact h.operate (mem_live.mp hcall).1 written
    · exact h
  | release id =>
    have hnext : (permits options).next s (.release id) = s.release id := rfl
    rw [hnext]
    unfold Shared.release
    split
    · split
      · exact h.setCall fun _ h => by cases h
      · exact h
    · exact h
  | crash pid => exact h

end InRange

/-! ## Permits -/

variable {options : Options}

/-- Live calls that hold permits are no more than there are slots. -/
theorem holders_le {s : Shared} (h : Exclusive s) (hrange : InRange options s) {ids : List Nat}
    (hdistinct : ids.Nodup) (hholds : ∀ id ∈ ids, ∃ slot, Holds s id slot) :
    ids.length ≤ options.maxPermits := by
  choose! slot hslot using hholds
  have hinjective : (ids.map slot).Nodup := by
    refine List.Nodup.map_on (fun id hid id' hid' heq => ?_) hdistinct
    exact h id id' (slot id) (hslot id hid) (heq ▸ hslot id' hid')
  have hsubset : ids.map slot ⊆ List.range options.maxPermits := by
    intro found hfound
    obtain ⟨id, hid, rfl⟩ := List.mem_map.mp hfound
    obtain ⟨call, hcall, file, hphase⟩ := hslot id hid
    have hlt := hrange id call (mem_live.mp hcall).1 (slot id)
    rw [hphase] at hlt
    exact List.mem_range.mpr (hlt rfl)
  have hlength := (List.subperm_of_subset hinjective hsubset).length_le
  rwa [List.length_map, List.length_range] at hlength

theorem inRange_run (events : List Event) :
    InRange options ((permits options).run Shared.initial events) :=
  EventSystem.run_inv_true (fun _ _ h => by cases h) fun _ event h => h.step event

theorem orderly_run {events : List Event}
    (hprompt : (permits options).Along (Prompt options) Shared.initial events)
    (hunreplaced : (permits options).Along Unreplaced Shared.initial events) :
    Orderly options ((permits options).run Shared.initial events) :=
  EventSystem.run_inv Orderly.initial (fun _ _ h hevent => h.step hevent.1 hevent.2)
    (hprompt.and hunreplaced)

/-- While no call leaves its file unwritten for long, and no cleanup removes another file than the
one it has judged, a slot has one live holder at most, and there are no more holders than slots. -/
theorem permits_exclusive (options : Options) (events : List Event)
    (hprompt : (permits options).Along (Prompt options) Shared.initial events)
    (hunreplaced : (permits options).Along Unreplaced Shared.initial events) :
    Exclusive ((permits options).run Shared.initial events) ∧
      ∀ ids : List Nat, ids.Nodup →
        (∀ id ∈ ids, ∃ slot, Holds ((permits options).run Shared.initial events) id slot) →
          ids.length ≤ options.maxPermits := by
  have hexclusive := (orderly_run hprompt hunreplaced).exclusive
  exact ⟨hexclusive, fun _ hdistinct hholds =>
    holders_le hexclusive (inRange_run events) hdistinct hholds⟩

/-- One slot, and the shortest `staleMs` there is. -/
def single : Options := ⟨1, 300000, 30000, by decide⟩

/-- The only call of a process takes the slot, and the process crashes. -/
def crashedHolder : List Event :=
  [.tick 10000, .start 1 1, .advance 1 true, .advance 1 true, .advance 1 true, .advance 1 true,
    .crash 1]

/-- Another process cleans up and takes the slot. -/
theorem permits_exclusive_reclaimed :
    Exclusive ((permits single).run Shared.initial
      (crashedHolder ++ .start 2 2 :: List.replicate 8 (.advance 2 true))) ∧
    ∀ ids : List Nat, ids.Nodup →
      (∀ id ∈ ids, ∃ slot, Holds ((permits single).run Shared.initial
        (crashedHolder ++ .start 2 2 :: List.replicate 8 (.advance 2 true))) id slot) →
      ids.length ≤ 1 :=
  permits_exclusive single _
    ⟨fun _ _ h => by (cases h), trivial, trivial, trivial, trivial, trivial, trivial, trivial,
      trivial, trivial, trivial, trivial, trivial, trivial, trivial, trivial, trivial⟩
    (by decide +kernel)

/-- Two processes judge the file of the crashed one. The second removes it and takes the slot; then
the first goes on. -/
def twoCleanups : List Event :=
  crashedHolder ++ .start 2 2 :: List.replicate 5 (.advance 2 true) ++
    .start 3 3 :: List.replicate 8 (.advance 3 true) ++ List.replicate 3 (.advance 2 true)

/-- The first process removes the new file, and takes the slot as well. -/
theorem permit_held_twice :
    ¬∀ (options : Options) (events : List Event),
      (permits options).Along (Prompt options) Shared.initial events →
      Exclusive ((permits options).run Shared.initial events) := by
  intro h
  have hexclusive := h single twoCleanups
    ⟨fun _ _ h => by (cases h), trivial, trivial, trivial, trivial, trivial, trivial, trivial,
      trivial, trivial, trivial, trivial, trivial, trivial, trivial, trivial, trivial, trivial,
      trivial, trivial, trivial, trivial, trivial, trivial, trivial, trivial⟩
  have hfirst : Holds ((permits single).run Shared.initial twoCleanups) 2 0 := ⟨_, rfl, 2, rfl⟩
  have hsecond : Holds ((permits single).run Shared.initial twoCleanups) 3 0 := ⟨_, rfl, 1, rfl⟩
  exact absurd (hexclusive 2 3 0 hfirst hsecond) (by decide)

end LinkSuffix.BrowserPermit
