import Sidewalk.Tlv.Basic

/-!
# Storages

`utils/tlv/tlv_ram_storage_impl.c`, and the two views the results take of a flash device, whose
driver is not part of this repository: `FaultFree` says that every handler does what it is asked
to, as those of `Flash` do, which also keeps the list of requests it was given; `Device` is a
flash whose `n`-th read and `n`-th write return what a schedule says.
-/

namespace Sidewalk.Tlv

open Sidewalk.Lib

/-! ## The RAM backend -/

def tlvStorageRamWrite (buffer : Mem) (offset : Nat) (data : List UInt8) : Int × Mem :=
  (0, buffer.blit offset data)

def tlvStorageRamRead (buffer : Mem) (offset dataSize : Nat) : Int × List UInt8 × Mem :=
  (0, buffer.slice offset dataSize, buffer)

def tlvStorageRamErase (buffer : Mem) (offset size : Nat) : Int × Mem :=
  (0, buffer.fill offset size 0)

/-- The RAM backend with all its handlers. -/
def ramStorage : TlvStorage Mem where
  write := some tlvStorageRamWrite
  erase := some tlvStorageRamErase
  read := some tlvStorageRamRead

/-! ## Storages without faults -/

/-- Reads and writes always succeed on the bytes `view` shows. -/
structure FaultFree {σ : Type} (impl : TlvStorage σ) (view : σ → Mem) : Prop where
  read : ∃ read, impl.read = some read ∧ ∀ s o n, ∃ s',
    read s o n = (0, (view s).slice o n, s') ∧ view s' = view s
  write : ∃ write, impl.write = some write ∧ ∀ s o bs, ∃ s',
    write s o bs = (0, s') ∧ view s' = (view s).blit o bs

/-- Erasing always succeeds too, and leaves the bytes `0xFF` as on flash. -/
structure FlashFaultFree {σ : Type} (impl : TlvStorage σ) (view : σ → Mem) : Prop
    extends FaultFree impl view where
  erase : ∃ erase, impl.erase = some erase ∧ ∀ s o n, ∃ s',
    erase s o n = (0, s') ∧ view s' = (view s).fill o n 0xFF

theorem ram_faultFree : FaultFree ramStorage id where
  read := ⟨_, rfl, fun s _ _ => ⟨s, rfl, rfl⟩⟩
  write := ⟨_, rfl, fun s o bs => ⟨s.blit o bs, rfl, rfl⟩⟩

/-- A region in RAM. -/
def ramCtx (startOffset endOffset tlvStorageStartMarkerSize : Nat) : TlvCtx Mem where
  storageImpl := ramStorage
  startOffset := startOffset
  endOffset := endOffset
  tlvStorageStartMarkerSize := tlvStorageStartMarkerSize

theorem ramCtx_faultFree (startOffset endOffset tlvStorageStartMarkerSize : Nat) :
    FaultFree (ramCtx startOffset endOffset tlvStorageStartMarkerSize).storageImpl id :=
  ram_faultFree

/-! ## A flash that keeps its requests -/

/-- A request a flash was given. -/
inductive Request
  | read (offset size : Nat)
  | write (offset : Nat) (data : List UInt8)
  | erase (offset size : Nat)
  deriving DecidableEq, Repr

/-- The bytes of a flash and the requests so far, latest first. -/
structure Flash where
  mem : Mem
  requests : List Request

namespace Flash

def read (f : Flash) (offset size : Nat) : Int × List UInt8 × Flash :=
  (0, f.mem.slice offset size, { f with requests := .read offset size :: f.requests })

def write (f : Flash) (offset : Nat) (data : List UInt8) : Int × Flash :=
  (0, { mem := f.mem.blit offset data, requests := .write offset data :: f.requests })

def erase (f : Flash) (offset size : Nat) : Int × Flash :=
  (0, { mem := f.mem.fill offset size 0xFF, requests := .erase offset size :: f.requests })

def storage : TlvStorage Flash where
  write := some write
  erase := some erase
  read := some read

theorem faultFree : FlashFaultFree storage mem where
  read := ⟨_, rfl, fun _ _ _ => ⟨_, rfl, rfl⟩⟩
  write := ⟨_, rfl, fun _ _ _ => ⟨_, rfl, rfl⟩⟩
  erase := ⟨_, rfl, fun _ _ _ => ⟨_, rfl, rfl⟩⟩

/-- The number of reads asked for so far. -/
def readCount (f : Flash) : Nat :=
  f.requests.countP fun r => r matches .read ..

/-- The blocks the flash was asked to write, latest first. -/
def writes (f : Flash) : List (Nat × List UInt8) :=
  f.requests.filterMap fun
    | .write offset data => some (offset, data)
    | _ => none

/-- The erases and writes the flash was asked for, latest first. -/
def changes (f : Flash) : List Request :=
  f.requests.filter fun r => !(r matches .read ..)

@[simp] theorem changes_read (f : Flash) (offset size : Nat) :
    (f.read offset size).2.2.changes = f.changes := by
  simp [read, changes]

end Flash

/-! ## A device with a fault schedule -/

/-- A flash with what its reads and writes will return, in order. -/
structure Device extends Flash where
  readFaults : Nat → Int
  writeFaults : Nat → Int

namespace Device

def read (d : Device) (offset size : Nat) : Int × List UInt8 × Device :=
  let ret := d.readFaults 0
  (ret, if ret = 0 then d.mem.slice offset size else [],
    { d with
      requests := .read offset size :: d.requests
      readFaults := fun n => d.readFaults (n + 1) })

def write (d : Device) (offset : Nat) (data : List UInt8) : Int × Device :=
  let ret := d.writeFaults 0
  (ret,
    { d with
      mem := if ret = 0 then d.mem.blit offset data else d.mem
      requests := .write offset data :: d.requests
      writeFaults := fun n => d.writeFaults (n + 1) })

def erase (d : Device) (offset size : Nat) : Int × Device :=
  (0,
    { d with
      mem := d.mem.fill offset size 0xFF
      requests := .erase offset size :: d.requests })

def storage : TlvStorage Device where
  write := some write
  erase := some erase
  read := some read

variable (d : Device) (offset size : Nat) (data : List UInt8)

@[simp] theorem readCount_read : (d.read offset size).2.2.readCount = d.readCount + 1 := by
  simp [read, Flash.readCount]

@[simp] theorem writes_read : (d.read offset size).2.2.writes = d.writes := by
  simp [read, Flash.writes]

@[simp] theorem readCount_write : (d.write offset data).2.readCount = d.readCount := by
  simp [write, Flash.readCount]

@[simp] theorem writes_write : (d.write offset data).2.writes = (offset, data) :: d.writes := by
  simp [write, Flash.writes]

@[simp] theorem writeFaults_write :
    (d.write offset data).2.writeFaults = fun n => d.writeFaults (n + 1) := rfl

end Device

end Sidewalk.Tlv
