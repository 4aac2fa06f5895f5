import GwWeb.ByteMemory
import GwWeb.LoopRules

/-!
The network side of one connection: `receive` of `server.c`, which cuts the
TCP byte stream into frames, and the sender `assemble_frame_and_send`.
Addresses are offsets from `recvbuf`; `int` arithmetic wraps at 32 bits. Names
are the C names, in camelCase.
-/

namespace GwWeb.Receive

open ByteMemory
open LoopRules

/-- `int` arithmetic of the target: two's complement, 32 bits. -/
def int32 (x : Int) : Int := (x + 2147483648) % 4294967296 - 2147483648

theorem int32_of_range {x : Int} (hlo : -2147483648 ≤ x) (hhi : x < 2147483648) :
    int32 x = x := by
  unfold int32
  omega

theorem int32_bounds (x : Int) : -2147483648 ≤ int32 x ∧ int32 x < 2147483648 := by
  unfold int32
  omega

def bufferSize : Int := 1024 * 40

/-- Where `recv` writes in `recvbuf`. -/
def recvOffset : Int := 2000

/-- The bytes of the length word. -/
def minHeaderLen : Int := 4

/-- The bytes in front of a payload: length and type. -/
def frameHeadRoom : Int := 8

/-- `working`. -/
inductive RecvWorkingState where
  | noReadWork
  | working
  | socketClose
  | other
  deriving DecidableEq, Repr

/-- The fields of `g_receive_para` that the byte stream goes through. -/
structure GReceivePara where
  connfd : Int
  working : RecvWorkingState
  moreData : Int
  recvbuf : Memory

/-- `CreateRecvParam`; `malloc` leaves `recvbuf` with any content. -/
def createRecvParam (connfd : Int) (recvbuf : Memory) : GReceivePara :=
  { connfd, working := .noReadWork, moreData := 0, recvbuf }

/-- What `recv` can return: bytes, `EAGAIN`, another error, end of stream. -/
inductive RecvResult where
  | data (bytes : List UInt8) (nonempty : bytes ≠ [])
  | again
  | error
  | closed

/-- What `processMessage_table_drive` is handed with one frame: the type word
and the `length - 4` bytes behind the eight header bytes. -/
structure FrameCall where
  type : BitVec 32
  jsonfile : List UInt8
  deriving DecidableEq, Repr

/-- Where the loop of `receive` stands, and the calls it has made. -/
structure Scan where
  pStart : Int
  totalByte : Int
  calls : List FrameCall

/-- What the loop of `receive` leaves. -/
structure ScanExit where
  moreData : Int
  recvbuf : Memory
  calls : List FrameCall

section Network

-- `myNtohl` reads a 32-bit word from a pointer; its code is not part of this program.
variable (myNtohl : (Nat → UInt8) → BitVec 32)

/-- `myNtohl` of the four bytes at `p`. -/
def wordAt (recvbuf : Memory) (p : Int) : BitVec 32 := myNtohl fun i => recvbuf (p + i)

/-- The arguments and header `processMessage_table_drive (buf, length)` reads. -/
def processMessageTableDrive (recvbuf : Memory) (buf length : Int) : FrameCall :=
  { type := wordAt myNtohl recvbuf (buf + 4)
    jsonfile := bytesAt recvbuf (buf + 8) (length - 4).toNat }

/-- Keep an incomplete frame in front of the fixed receive offset. -/
def keepRemainder (recvbuf : Memory) (s : Scan) : ScanExit :=
  { moreData := s.totalByte
    recvbuf :=
      if 0 < s.totalByte then
        memmove recvbuf (recvOffset - s.totalByte) s.pStart s.totalByte.toNat
      else recvbuf
    calls := s.calls }

/-- The loop goes on behind a frame. -/
def nextScan (recvbuf : Memory) (s : Scan) (msgLen : Int) : Scan :=
  { pStart := s.pStart + msgLen + minHeaderLen
    totalByte := int32 (int32 (s.totalByte - msgLen) - minHeaderLen)
    calls := s.calls ++ [processMessageTableDrive myNtohl recvbuf s.pStart msgLen] }

/-- The body of `while(1)` in `receive`. -/
def receiveBody (recvbuf : Memory) (s : Scan) : Scan ⊕ ScanExit :=
  if s.totalByte ≤ minHeaderLen then
    .inr (keepRemainder recvbuf s)
  else
    let msgLen := (wordAt myNtohl recvbuf s.pStart).toInt
    if s.totalByte < int32 (msgLen + minHeaderLen) then
      .inr (keepRemainder recvbuf s)
    else
      let next := nextScan myNtohl recvbuf s msgLen
      if next.totalByte = 0 then
        .inr { moreData := 0, recvbuf, calls := next.calls }
      else
        .inl next

def scanStart (moreData size : Int) : Scan :=
  { pStart := recvOffset - moreData, totalByte := int32 (size + moreData), calls := [] }

/-- One call of `receive`, with the calls it makes; `none` when the loop has
not ended after `fuel` iterations. -/
def receive (fuel : Nat) (g : GReceivePara) : RecvResult → Option (GReceivePara × List FrameCall)
  | .again => some ({ g with working := .noReadWork }, [])
  | .error => some ({ g with working := .socketClose }, [])
  | .closed => some ({ g with working := .socketClose }, [])
  | .data bytes _ =>
      let recvbuf := store g.recvbuf recvOffset bytes
      (runLoop (receiveBody myNtohl recvbuf) fuel (scanStart g.moreData bytes.length)).map
        fun e => ({ g with moreData := e.moreData, recvbuf := e.recvbuf }, e.calls)

/-- Calls of `receive`, one after the other. -/
def receiveAll (fuel : Nat) (g : GReceivePara) :
    List RecvResult → Option (GReceivePara × List FrameCall)
  | [] => some (g, [])
  | r :: rs => do
      let (g', calls) ← receive myNtohl fuel g r
      let (g'', later) ← receiveAll fuel g' rs
      return (g'', calls ++ later)

end Network

/-- `htonl`: the highest byte first. -/
def htonl (w : BitVec 32) : List UInt8 :=
  [UInt8.ofNat (w.toNat / 16777216), UInt8.ofNat (w.toNat / 65536),
    UInt8.ofNat (w.toNat / 256), UInt8.ofNat w.toNat]

/-- The word with these bytes, the highest first. -/
def networkWord (b₀ b₁ b₂ b₃ : UInt8) : BitVec 32 :=
  BitVec.ofNat 32 (b₀.toNat * 16777216 + b₁.toNat * 65536 + b₂.toNat * 256 + b₃.toNat)

/-- What the code relies on: `myNtohl` reads a big-endian word. -/
def ReadsBigEndian (myNtohl : (Nat → UInt8) → BitVec 32) : Prop :=
  ∀ f, myNtohl f = networkWord (f 0) (f 1) (f 2) (f 3)

/-- `myNtohl`. -/
def readNetworkWord (f : Nat → UInt8) : BitVec 32 := networkWord (f 0) (f 1) (f 2) (f 3)

theorem readNetworkWord_readsBigEndian : ReadsBigEndian readNetworkWord := fun _ => rfl

/-- A frame: the length word, the type and the payload. -/
def assembleFrame (type : BitVec 32) (buf : List UInt8) : List UInt8 :=
  htonl (BitVec.ofNat 32 (buf.length + 4)) ++ htonl type ++ buf

/-- `assemble_frame_and_send`: its return value and the bytes handed to
`send`, which accepts as many of them as it says. -/
def assembleFrameAndSend (send : List UInt8 → Int) (g : Option GReceivePara)
    (buf : List UInt8) (type : BitVec 32) : Int × List UInt8 :=
  match g with
  | none => (-99, [])
  | some g =>
      if g.working = .socketClose then (-98, [])
      else (send (assembleFrame type buf), assembleFrame type buf)

end GwWeb.Receive
