import GwWeb.ByteMemory
import GwWeb.SampleRecords

/-!
The memory that `send_rssi_to_save` reads and writes for one message, whose
length comes from a field of the message itself.
-/

namespace GwWeb.SampleBounds

open ByteMemory
open GwWeb.Receive
open GwWeb.WebCommon
open GwWeb.MosquittoBroker
open GwWeb.SampleRecords

/-- How many bytes the target gives to each of `tv_sec` and `tv_usec`, and how
many values to `size_t`. -/
structure Abi where
  timeBytes : Nat
  sizeValues : Nat
  time_valid : 4 ≤ timeBytes
  size_valid : 4294967296 ≤ sizeValues

variable (abi : Abi)

/-- The conversion to `size_t`. -/
def Abi.sizeT (x : Int) : Nat := (x % abi.sizeValues).toNat

/-- The offset of `rssi_buf_len` in `struct rssi_priv`, which is packed. -/
def Abi.lengthOffset : Nat := 2 * abi.timeBytes

/-- The offset of `rssi_buf`. -/
def Abi.dataOffset : Nat := abi.lengthOffset + 4

/-- `rssi_buf_len` of the message. -/
def rssiBufLen (m : Memory) : Int := headInt (bytesAt m abi.lengthOffset 4)

/-- The message as `struct rssi_priv` has it. -/
def rssiPriv (m : Memory) : RssiPriv where
  tvSec := headInt (bytesAt m 0 4)
  tvUsec := headInt (bytesAt m abi.timeBytes 4)
  rssiBufLen := rssiBufLen abi m
  rssiBuf := fun i => m (abi.dataOffset + i)

def msgLen (m : Memory) : Int := int32 (12 + rssiBufLen abi m)

/-- What the branch for `enable` 1 does: the accesses to the message, the size of
`rssi_buf`, the accesses to it and its contents, and `buf_len` of the item. -/
structure DataRecord where
  reads : List Span
  allocated : Nat
  writes : List Span
  block : Memory
  bufLen : Int

/-- The branch, over a block that holds `fresh`. -/
def dataRecord (m fresh : Memory) : DataRecord :=
  let length := abi.sizeT (rssiBufLen abi m)
  { reads := [⟨abi.lengthOffset, 4⟩, ⟨0, abi.timeBytes⟩, ⟨abi.timeBytes, abi.timeBytes⟩,
      ⟨abi.lengthOffset, 4⟩, ⟨abi.lengthOffset, 4⟩, ⟨abi.dataOffset, length⟩]
    allocated := abi.sizeT (msgLen abi m)
    writes := [⟨0, 4⟩, ⟨4, 4⟩, ⟨8, 4⟩, ⟨12, length⟩]
    block := store (store (store (store fresh 0 (int32Bytes (rssiPriv abi m).tvSec)) 4
      (int32Bytes (rssiPriv abi m).tvUsec)) 8 (int32Bytes (rssiBufLen abi m))) 12
      (bytesAt m abi.dataOffset length)
    bufLen := msgLen abi m }

/-- `send_rssi_to_save` over the `rssi_file_t` of the listed users: the data
records it builds. `fresh` is what the blocks it is given hold. A user whose
`enable` is 2, which nothing sets, gets a terminator instead. -/
def sendRssiToSave (m fresh : Memory) : List (Option WriteFile) → List DataRecord
  | [] => []
  | none :: users => sendRssiToSave m fresh users
  | some t :: users =>
      if t.enable = 0 then []
      else if t.enable = 1 then dataRecord abi m fresh :: sendRssiToSave m fresh users
      else sendRssiToSave m fresh users

/-- The test by which `rssi_write_thread` leaves its loop. -/
def DataRecord.endsLoop (d : DataRecord) : Bool := decide (d.bufLen = 0)

/-- No access of a record leaves its block. -/
structure DataRecord.InBounds (d : DataRecord) (bufLen : Int) : Prop where
  reads : ∀ s ∈ d.reads, s.Within bufLen
  writes : ∀ s ∈ d.writes, s.Within d.allocated
  stays : d.endsLoop = false

/-- The message holds as many bytes of `rssi_buf` as it says. -/
def WholeMessage (m : Memory) (bufLen : Int) : Prop :=
  0 ≤ rssiBufLen abi m ∧ abi.dataOffset + rssiBufLen abi m ≤ bufLen

instance (m : Memory) (bufLen : Int) : Decidable (WholeMessage abi m bufLen) :=
  inferInstanceAs (Decidable (_ ∧ _))

/-- A user is saved for: it comes before every user whose `enable` is 0. -/
def Saves (users : List (Option WriteFile)) : Prop :=
  some 1 ∈ (users.map fun t => t.map WriteFile.enable).takeWhile fun enable => enable ≠ some 0

instance (users : List (Option WriteFile)) : Decidable (Saves users) :=
  inferInstanceAs (Decidable (_ ∈ _))

variable {abi} {m fresh : Memory} {bufLen : Int} {users : List (Option WriteFile)}

theorem rssiBufLen_inInt32 : InInt32 (rssiBufLen abi m) := headInt_inInt32 _

theorem Abi.sizeT_of_nonneg (abi : Abi) {x : Int} (hnonneg : 0 ≤ x) (hint : InInt32 x) :
    abi.sizeT x = x.toNat := by
  have hvalues := abi.size_valid
  have hlt : x < abi.sizeValues := by
    have hhi := hint.2
    omega
  rw [Abi.sizeT, Int.emod_eq_of_lt hnonneg hlt]

/-- A negative length is copied as a huge one. -/
theorem Abi.sizeT_of_neg (abi : Abi) {x : Int} (hneg : x < 0) (hint : InInt32 x) :
    2147483648 ≤ abi.sizeT x := by
  have hvalues := abi.size_valid
  have hlo := hint.1
  have hmod : x % abi.sizeValues = x + abi.sizeValues := by
    rw [← Int.add_emod_right, Int.emod_eq_of_lt (by omega) (by omega)]
  rw [Abi.sizeT, hmod]
  omega

theorem mem_sendRssiToSave {d : DataRecord} :
    d ∈ sendRssiToSave abi m fresh users ↔ Saves users ∧ d = dataRecord abi m fresh := by
  induction users with
  | nil => simp [sendRssiToSave, Saves]
  | cons user users ih =>
      cases user with
      | none => simpa [sendRssiToSave, Saves] using ih
      | some t =>
          simp only [sendRssiToSave]
          split
          · rename_i hzero
            simp [Saves, hzero]
          · rename_i hgoes
            split
            · rename_i hone
              simp [Saves, hone, ih]
            · rename_i hother
              have hsaves : Saves (some t :: users) ↔ Saves users := by
                simp [Saves, hgoes, hother, eq_comm]
              rw [ih, hsaves]

theorem dataRecord_inBounds (hlen : InInt32 bufLen) :
    (dataRecord abi m fresh).InBounds bufLen ↔ WholeMessage abi m bufLen := by
  have htime := abi.time_valid
  have hint : InInt32 (rssiBufLen abi m) := rssiBufLen_inInt32
  have hdata : abi.dataOffset = 2 * abi.timeBytes + 4 := rfl
  have hlength : abi.lengthOffset = 2 * abi.timeBytes := rfl
  constructor
  · intro h
    have hheader : abi.lengthOffset + 4 ≤ bufLen := by
      have hread := h.reads ⟨abi.lengthOffset, 4⟩ (by simp [dataRecord])
      simpa [Span.Within] using hread
    have hcopy := h.reads ⟨abi.dataOffset, abi.sizeT (rssiBufLen abi m)⟩ (by simp [dataRecord])
    simp only [Span.Within] at hcopy
    rcases Int.lt_or_le (rssiBufLen abi m) 0 with hneg | hnonneg
    · -- the length copied does not fit any message
      have hhuge := abi.sizeT_of_neg hneg hint
      have hhi := hlen.2
      omega
    · have hsize := abi.sizeT_of_nonneg hnonneg hint
      exact ⟨hnonneg, by omega⟩
  · intro hwhole
    obtain ⟨hnonneg, hfits⟩ := hwhole
    have hhi := hlen.2
    have hsize := abi.sizeT_of_nonneg hnonneg hint
    have hmsg : msgLen abi m = 12 + rssiBufLen abi m := int32_of_range (by omega) (by omega)
    have hallocated := abi.sizeT_of_nonneg (x := msgLen abi m) (by omega)
      (by unfold InInt32; omega)
    refine ⟨?_, ?_, ?_⟩
    · simp only [dataRecord, List.forall_mem_cons, List.not_mem_nil, false_imp_iff, implies_true,
        and_true, Span.Within]
      omega
    · simp only [dataRecord, List.forall_mem_cons, List.not_mem_nil, false_imp_iff, implies_true,
        and_true, Span.Within]
      omega
    · simp [DataRecord.endsLoop, dataRecord, hmsg]
      omega

theorem bytesAt_store_words (m : Memory) {a b c : List UInt8} (ha : a.length = 4)
    (hb : b.length = 4) (hc : c.length = 4) (d : List UInt8) :
    bytesAt (store (store (store (store m 0 a) 4 b) 8 c) 12 d) 0 (12 + d.length) =
      a ++ b ++ c ++ d := by
  have hfirst : bytesAt (store m 0 a) 0 4 = a := by
    rw [← ha]
    exact bytesAt_store m 0 a
  have hsecond := bytesAt_store_append (store m 0 a) 4 b
  have hthird := bytesAt_store_append (store (store m 0 a) 4 b) 8 c
  rw [hb, hfirst] at hsecond
  rw [hc] at hthird
  calc bytesAt (store (store (store (store m 0 a) 4 b) 8 c) 12 d) 0 (12 + d.length)
      = bytesAt (store (store (store m 0 a) 4 b) 8 c) 0 12 ++ d :=
        bytesAt_store_append (store (store (store m 0 a) 4 b) 8 c) 12 d
    _ = bytesAt (store (store m 0 a) 4 b) 0 8 ++ c ++ d := congrArg (· ++ d) hthird
    _ = a ++ b ++ c ++ d := congrArg (· ++ c ++ d) hsecond

theorem rssiRecord_eq_block (hlen : InInt32 bufLen) (h : WholeMessage abi m bufLen) :
    rssiRecord (rssiPriv abi m) =
      .ok (bytesAt (dataRecord abi m fresh).block 0 (dataRecord abi m fresh).allocated) := by
  obtain ⟨hnonneg, hfits⟩ := h
  have htime := abi.time_valid
  have hdata : abi.dataOffset = 2 * abi.timeBytes + 4 := rfl
  have hhi := hlen.2
  have hmax : 12 + rssiBufLen abi m < 2147483648 := by omega
  have hsize := abi.sizeT_of_nonneg hnonneg rssiBufLen_inInt32
  have hmsg : msgLen abi m = 12 + rssiBufLen abi m := int32_of_range (by omega) (by omega)
  have hallocated : (dataRecord abi m fresh).allocated = 12 + (rssiBufLen abi m).toNat := by
    simp only [dataRecord]
    rw [hmsg, abi.sizeT_of_nonneg (by omega) ⟨by omega, by omega⟩]
    exact Int.toNat_add (by decide) hnonneg
  have hrecord : bytesAt (dataRecord abi m fresh).block 0 (12 + (rssiBufLen abi m).toNat) =
      int32Bytes (rssiPriv abi m).tvSec ++ int32Bytes (rssiPriv abi m).tvUsec ++
        int32Bytes (rssiBufLen abi m) ++
        bytesAt m abi.dataOffset (rssiBufLen abi m).toNat := by
    have hwords := bytesAt_store_words fresh rfl rfl rfl
      (a := int32Bytes (rssiPriv abi m).tvSec) (b := int32Bytes (rssiPriv abi m).tvUsec)
      (c := int32Bytes (rssiBufLen abi m)) (bytesAt m abi.dataOffset (rssiBufLen abi m).toNat)
    rw [bytesAt_length] at hwords
    simp only [dataRecord, hsize]
    exact hwords
  rw [hallocated, hrecord, rssiRecord, if_pos ⟨hnonneg, hmax⟩]
  rfl

theorem inBounds_iff (hlen : InInt32 bufLen) :
    (∀ d ∈ sendRssiToSave abi m fresh users, d.InBounds bufLen) ↔
      ¬ Saves users ∨ WholeMessage abi m bufLen := by
  simp only [mem_sendRssiToSave]
  constructor
  · intro h
    by_cases hsaves : Saves users
    · exact .inr ((dataRecord_inBounds hlen).mp (h _ ⟨hsaves, rfl⟩))
    · exact .inl hsaves
  · rintro (hnone | hwhole) d ⟨hsaves, rfl⟩
    · exact absurd hsaves hnone
    · exact (dataRecord_inBounds hlen).mpr hwhole

/-- The `rssi_file_t` of the listed users. -/
def usersOf (g : GBrokerPara) : List (Option WriteFile) :=
  g.rssiUserNodeHead.map fun n => g.save.fileT n.addr

/-- A message is saved within its own bounds and ends no save, exactly if nobody
saves or it holds what its length field says. -/
theorem send_rssi_to_save_bounds_iff (abi : Abi) (m fresh : Memory) (bufLen : Int)
    (hlen : InInt32 bufLen) (g : GBrokerPara) :
    (∀ d ∈ sendRssiToSave abi m fresh (usersOf g), d.InBounds bufLen) ↔
      ¬ Saves (usersOf g) ∨ WholeMessage abi m bufLen :=
  inBounds_iff hlen

/-- A 64-bit machine. -/
def lp64 : Abi where
  timeBytes := 8
  sizeValues := 18446744073709551616
  time_valid := by decide
  size_valid := by decide

def message (bytes : List UInt8) : Memory := fun i => bytes.getD i.toNat 0

/-- A user whose save is on. -/
def saving : WriteFile := { enable := 1, queue := some 0, fileName := "", file := some 0 }

def oneSaving : GBrokerPara :=
  { createBroker ⟨"", ""⟩ ⟨"", ""⟩ with
    rssiUserNodeHead := [⟨0, 7⟩]
    save := WriteComponent.empty.setFileT 0 (some saving) }

/-- 24 bytes with `rssi_buf_len` at 4, and four bytes of data behind it. -/
def fourBytes : List UInt8 :=
  [1, 0, 0, 0, 0, 0, 0, 0, 2, 0, 0, 0, 0, 0, 0, 0, 4, 0, 0, 0, 9, 8, 7, 6]

theorem send_rssi_to_save_bounds_four_bytes :
    Saves (usersOf oneSaving) ∧
      ∃ d, sendRssiToSave lp64 (message fourBytes) (fun _ => 0) (usersOf oneSaving) = [d] ∧
        ⟨20, 4⟩ ∈ d.reads ∧ d.InBounds 24 := by
  have hall := (send_rssi_to_save_bounds_iff lp64 (message fourBytes) (fun _ => 0) 24 (by decide)
    oneSaving).mpr (.inr (by decide))
  exact ⟨by decide, _, rfl, by decide +kernel, hall _ (List.mem_singleton_self _)⟩

/-- 24 bytes with `rssi_buf_len` at -12: a block of no bytes, and an item that
ends the save. -/
def negativeLength : List UInt8 :=
  [1, 0, 0, 0, 0, 0, 0, 0, 2, 0, 0, 0, 0, 0, 0, 0, 0xF4, 0xFF, 0xFF, 0xFF, 9, 9, 9, 9]

/-- 24 bytes with `rssi_buf_len` at 50000. -/
def largeLength : List UInt8 :=
  [1, 0, 0, 0, 0, 0, 0, 0, 2, 0, 0, 0, 0, 0, 0, 0, 0x50, 0xC3, 0, 0, 9, 9, 9, 9]

theorem send_rssi_to_save_out_of_bounds :
    (∃ d, sendRssiToSave lp64 (message negativeLength) (fun _ => 0) (usersOf oneSaving) = [d] ∧
      d.allocated = 0 ∧ ⟨0, 4⟩ ∈ d.writes ∧ d.endsLoop = true ∧ ¬ d.InBounds 24) ∧
    ∃ d, sendRssiToSave lp64 (message largeLength) (fun _ => 0) (usersOf oneSaving) = [d] ∧
      ⟨20, 50000⟩ ∈ d.reads ∧ ¬ d.InBounds 24 := by
  have hlen : InInt32 24 := by decide
  have hnegative : ¬ WholeMessage lp64 (message negativeLength) 24 := by decide
  have hlarge : ¬ WholeMessage lp64 (message largeLength) 24 := by decide
  refine ⟨⟨_, rfl, by decide, by decide, by decide, ?_⟩, ⟨_, rfl, by decide +kernel, ?_⟩⟩
  · exact fun h => hnegative ((dataRecord_inBounds hlen).mp h)
  · exact fun h => hlarge ((dataRecord_inBounds hlen).mp h)

end GwWeb.SampleBounds
