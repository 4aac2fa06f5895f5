import GwWeb.BlockChaining
import Mathlib.Data.BitVec

/-!
`md5sum.c`: the digest by which `monitor_conf_thread` tells that the configuration
file changed. The host is little-endian, as the file says.
-/

namespace GwWeb.Md5sum

open BlockChaining

def rol (x : BitVec 32) (n : Nat) : BitVec 32 := (x <<< n) ||| (x >>> (32 - n))

/-- `FF`, the function of the first round. -/
def ff (b c d : BitVec 32) : BitVec 32 := d ^^^ (b &&& (c ^^^ d))

def fg (b c d : BitVec 32) : BitVec 32 := ff d b c

def fh (b c d : BitVec 32) : BitVec 32 := b ^^^ c ^^^ d

def fi (b c d : BitVec 32) : BitVec 32 := c ^^^ (b ||| ~~~d)

/-- The chaining variables. -/
structure Registers where
  A : BitVec 32
  B : BitVec 32
  C : BitVec 32
  D : BitVec 32
  deriving DecidableEq, Repr

inductive Register where
  | A
  | B
  | C
  | D
  deriving DecidableEq, Repr

def Registers.get (r : Registers) : Register → BitVec 32
  | .A => r.A
  | .B => r.B
  | .C => r.C
  | .D => r.D

def Registers.set (r : Registers) (x : BitVec 32) : Register → Registers
  | .A => { r with A := x }
  | .B => { r with B := x }
  | .C => { r with C := x }
  | .D => { r with D := x }

/-- A statement `OP (f, a, b, c, d, k, s, T)` of `transform`. In the first round
`k` is where `cwp` stands. -/
structure Op where
  f : BitVec 32 → BitVec 32 → BitVec 32 → BitVec 32
  a : Register
  b : Register
  c : Register
  d : Register
  k : Nat
  s : Nat
  T : BitVec 32

/-- One statement of `transform`. -/
def Op.execute (correctWords : Nat → BitVec 32) (r : Registers) (o : Op) : Registers :=
  let r := r.set (r.get o.a +
    (o.f (r.get o.b) (r.get o.c) (r.get o.d) + correctWords o.k + o.T)) o.a
  let r := r.set (rol (r.get o.a) o.s) o.a
  r.set (r.get o.a + r.get o.b) o.a

def round1 : List Op :=
  [⟨ff, .A, .B, .C, .D, 0, 7, 0xd76aa478⟩, ⟨ff, .D, .A, .B, .C, 1, 12, 0xe8c7b756⟩,
   ⟨ff, .C, .D, .A, .B, 2, 17, 0x242070db⟩, ⟨ff, .B, .C, .D, .A, 3, 22, 0xc1bdceee⟩,
   ⟨ff, .A, .B, .C, .D, 4, 7, 0xf57c0faf⟩, ⟨ff, .D, .A, .B, .C, 5, 12, 0x4787c62a⟩,
   ⟨ff, .C, .D, .A, .B, 6, 17, 0xa8304613⟩, ⟨ff, .B, .C, .D, .A, 7, 22, 0xfd469501⟩,
   ⟨ff, .A, .B, .C, .D, 8, 7, 0x698098d8⟩, ⟨ff, .D, .A, .B, .C, 9, 12, 0x8b44f7af⟩,
   ⟨ff, .C, .D, .A, .B, 10, 17, 0xffff5bb1⟩, ⟨ff, .B, .C, .D, .A, 11, 22, 0x895cd7be⟩,
   ⟨ff, .A, .B, .C, .D, 12, 7, 0x6b901122⟩, ⟨ff, .D, .A, .B, .C, 13, 12, 0xfd987193⟩,
   ⟨ff, .C, .D, .A, .B, 14, 17, 0xa679438e⟩, ⟨ff, .B, .C, .D, .A, 15, 22, 0x49b40821⟩]

def round2 : List Op :=
  [⟨fg, .A, .B, .C, .D, 1, 5, 0xf61e2562⟩, ⟨fg, .D, .A, .B, .C, 6, 9, 0xc040b340⟩,
   ⟨fg, .C, .D, .A, .B, 11, 14, 0x265e5a51⟩, ⟨fg, .B, .C, .D, .A, 0, 20, 0xe9b6c7aa⟩,
   ⟨fg, .A, .B, .C, .D, 5, 5, 0xd62f105d⟩, ⟨fg, .D, .A, .B, .C, 10, 9, 0x02441453⟩,
   ⟨fg, .C, .D, .A, .B, 15, 14, 0xd8a1e681⟩, ⟨fg, .B, .C, .D, .A, 4, 20, 0xe7d3fbc8⟩,
   ⟨fg, .A, .B, .C, .D, 9, 5, 0x21e1cde6⟩, ⟨fg, .D, .A, .B, .C, 14, 9, 0xc33707d6⟩,
   ⟨fg, .C, .D, .A, .B, 3, 14, 0xf4d50d87⟩, ⟨fg, .B, .C, .D, .A, 8, 20, 0x455a14ed⟩,
   ⟨fg, .A, .B, .C, .D, 13, 5, 0xa9e3e905⟩, ⟨fg, .D, .A, .B, .C, 2, 9, 0xfcefa3f8⟩,
   ⟨fg, .C, .D, .A, .B, 7, 14, 0x676f02d9⟩, ⟨fg, .B, .C, .D, .A, 12, 20, 0x8d2a4c8a⟩]

def round3 : List Op :=
  [⟨fh, .A, .B, .C, .D, 5, 4, 0xfffa3942⟩, ⟨fh, .D, .A, .B, .C, 8, 11, 0x8771f681⟩,
   ⟨fh, .C, .D, .A, .B, 11, 16, 0x6d9d6122⟩, ⟨fh, .B, .C, .D, .A, 14, 23, 0xfde5380c⟩,
   ⟨fh, .A, .B, .C, .D, 1, 4, 0xa4beea44⟩, ⟨fh, .D, .A, .B, .C, 4, 11, 0x4bdecfa9⟩,
   ⟨fh, .C, .D, .A, .B, 7, 16, 0xf6bb4b60⟩, ⟨fh, .B, .C, .D, .A, 10, 23, 0xbebfbc70⟩,
   ⟨fh, .A, .B, .C, .D, 13, 4, 0x289b7ec6⟩, ⟨fh, .D, .A, .B, .C, 0, 11, 0xeaa127fa⟩,
   ⟨fh, .C, .D, .A, .B, 3, 16, 0xd4ef3085⟩, ⟨fh, .B, .C, .D, .A, 6, 23, 0x04881d05⟩,
   ⟨fh, .A, .B, .C, .D, 9, 4, 0xd9d4d039⟩, ⟨fh, .D, .A, .B, .C, 12, 11, 0xe6db99e5⟩,
   ⟨fh, .C, .D, .A, .B, 15, 16, 0x1fa27cf8⟩, ⟨fh, .B, .C, .D, .A, 2, 23, 0xc4ac5665⟩]

def round4 : List Op :=
  [⟨fi, .A, .B, .C, .D, 0, 6, 0xf4292244⟩, ⟨fi, .D, .A, .B, .C, 7, 10, 0x432aff97⟩,
   ⟨fi, .C, .D, .A, .B, 14, 15, 0xab9423a7⟩, ⟨fi, .B, .C, .D, .A, 5, 21, 0xfc93a039⟩,
   ⟨fi, .A, .B, .C, .D, 12, 6, 0x655b59c3⟩, ⟨fi, .D, .A, .B, .C, 3, 10, 0x8f0ccc92⟩,
   ⟨fi, .C, .D, .A, .B, 10, 15, 0xffeff47d⟩, ⟨fi, .B, .C, .D, .A, 1, 21, 0x85845dd1⟩,
   ⟨fi, .A, .B, .C, .D, 8, 6, 0x6fa87e4f⟩, ⟨fi, .D, .A, .B, .C, 15, 10, 0xfe2ce6e0⟩,
   ⟨fi, .C, .D, .A, .B, 6, 15, 0xa3014314⟩, ⟨fi, .B, .C, .D, .A, 13, 21, 0x4e0811a1⟩,
   ⟨fi, .A, .B, .C, .D, 4, 6, 0xf7537e82⟩, ⟨fi, .D, .A, .B, .C, 11, 10, 0xbd3af235⟩,
   ⟨fi, .C, .D, .A, .B, 2, 15, 0x2ad7d2bb⟩, ⟨fi, .B, .C, .D, .A, 9, 21, 0xeb86d391⟩]

/-- The `k`-th word of the block, as `memcpy` puts it into `correct_words`. -/
def correctWords (data : List UInt8) (k : Nat) : BitVec 32 :=
  (data.getD (4 * k + 3) 0).toBitVec ++ (data.getD (4 * k + 2) 0).toBitVec ++
    (data.getD (4 * k + 1) 0).toBitVec ++ (data.getD (4 * k) 0).toBitVec

/-- What `transform` adds to the chaining variables. -/
def Registers.add (r r' : Registers) : Registers :=
  { A := r.A + r'.A, B := r.B + r'.B, C := r.C + r'.C, D := r.D + r'.D }

/-- `transform`: the four rounds on one block. -/
def transform (r : Registers) (data : List UInt8) : Registers :=
  r.add ((round1 ++ round2 ++ round3 ++ round4).foldl (Op.execute (correctWords data)) r)

/-- `MD5_CONTEXT`. -/
structure Md5Context where
  registers : Registers
  nblocks : BitVec 32
  buf : Vector UInt8 64
  count : Nat
  count_le : count ≤ 64

/-- `md5_init` leaves `buf` as it finds it. -/
def md5Init (buf : Vector UInt8 64) : Md5Context :=
  { registers := { A := 0x67452301, B := 0xefcdab89, C := 0x98badcfe, D := 0x10325476 }
    nblocks := 0
    buf
    count := 0
    count_le := Nat.zero_le 64 }

/-- `hd->buf[hd->count++] = x`. -/
def Md5Context.put (hd : Md5Context) (x : UInt8) (h : hd.count < 64) : Md5Context :=
  { hd with buf := hd.buf.set hd.count x h, count := hd.count + 1, count_le := h }

/-- `transform`, and one block more. -/
def Md5Context.compress (hd : Md5Context) (data : List UInt8) : Md5Context :=
  { hd with
    registers := transform hd.registers data
    count := 0
    nblocks := hd.nblocks + 1
    count_le := Nat.zero_le 64 }

/-- `md5_write (hd, NULL, 0)`. -/
def md5Flush (hd : Md5Context) : Md5Context :=
  if hd.count = 64 then hd.compress hd.buf.toList else hd

/-- Bytes of `inbuf` go to the buffer while there are any and `count` is below 64. -/
def fill (hd : Md5Context) : List UInt8 → Md5Context × List UInt8
  | [] => (hd, [])
  | x :: inbuf => if h : hd.count < 64 then fill (hd.put x h) inbuf else (hd, x :: inbuf)

/-- The loop over whole blocks of `inbuf`, which has at most that many rounds. -/
def wholeBlocks : Nat → Md5Context → List UInt8 → Md5Context × List UInt8
  | 0, hd, inbuf => (hd, inbuf)
  | rounds + 1, hd, inbuf =>
      if 64 ≤ inbuf.length then wholeBlocks rounds (hd.compress (inbuf.take 64)) (inbuf.drop 64)
      else (hd, inbuf)

/-- `md5_write` from its loop over whole blocks on. -/
def writeBlocks (hd : Md5Context) (inbuf : List UInt8) : Md5Context :=
  let left := wholeBlocks (inbuf.length / 64) hd inbuf
  (fill left.1 left.2).1

def md5Write (hd : Md5Context) (inbuf : List UInt8) : Md5Context :=
  let hd := md5Flush hd
  if hd.count = 0 then writeBlocks hd inbuf
  else
    let filled := fill hd inbuf
    let hd := md5Flush filled.1
    if filled.2 = [] then hd else writeBlocks hd filled.2

theorem md5Flush_count_lt (hd : Md5Context) : (md5Flush hd).count < 64 := by
  unfold md5Flush
  split
  · exact Nat.zero_lt_succ 63
  · have := hd.count_le
    omega

/-- `while (hd->count < limit) hd->buf[hd->count++] = 0`. -/
def padTo (limit : Nat) (hlimit : limit ≤ 64) : Nat → Md5Context → Md5Context
  | 0, hd => hd
  | rounds + 1, hd =>
      if h : hd.count < limit then padTo limit hlimit rounds (hd.put 0 (h.trans_le hlimit)) else hd

/-- The four bytes of a word, the lowest first. -/
def wordBytes (w : BitVec 32) : List UInt8 :=
  [w, w >>> 8, w >>> 16, w >>> 24].map fun x => UInt8.ofBitVec (x.setWidth 8)

/-- Four bytes of the buffer, from `i` on. -/
def storeWord (buf : Vector UInt8 64) (i : Nat) (hi : i + 4 ≤ 64) (w : BitVec 32) :
    Vector UInt8 64 :=
  (((buf.set i (UInt8.ofBitVec (w.setWidth 8))).set (i + 1)
    (UInt8.ofBitVec ((w >>> 8).setWidth 8))).set (i + 2)
    (UInt8.ofBitVec ((w >>> 16).setWidth 8))).set (i + 3)
    (UInt8.ofBitVec ((w >>> 24).setWidth 8))

/-- `memset(buf, 0, n)`. -/
def memsetZero (buf : Vector UInt8 64) (n : Nat) : Vector UInt8 64 :=
  Vector.ofFn fun i => if i < n then 0 else buf[i]

/-- The number of bits as `md5_final` computes it: `lsb` and `msb`. -/
def bitCount (nblocks : BitVec 32) (count : Nat) : BitVec 32 × BitVec 32 :=
  let lsb := nblocks <<< 6
  let msb := nblocks >>> 26
  let t := lsb
  let lsb := lsb + BitVec.ofNat 32 count
  let msb := if lsb < t then msb + 1 else msb
  let t := lsb
  (lsb <<< 3, (msb <<< 3) ||| (t >>> 29))

/-- The padding of `md5_final`, up to the eight bytes of the count. -/
def padLast (hd : Md5Context) (hcount : hd.count < 64) : Md5Context :=
  if hd.count < 56 then padTo 56 (by decide) (55 - hd.count) (hd.put 0x80 hcount)
  else
    let hd := md5Flush (padTo 64 (by decide) (63 - hd.count) (hd.put 0x80 hcount))
    { hd with buf := memsetZero hd.buf 56 }

/-- `md5_final`: the first sixteen bytes of the buffer it leaves. -/
def md5Final (hd : Md5Context) : List UInt8 :=
  let hd := md5Flush hd
  let bits := bitCount hd.nblocks hd.count
  let last := padLast hd (md5Flush_count_lt _)
  let buf := storeWord (storeWord last.buf 56 (by decide) bits.1) 60 (by decide) bits.2
  let r := transform last.registers buf.toList
  let buf := storeWord (storeWord (storeWord (storeWord buf 0 (by decide) r.A) 4 (by decide) r.B)
    8 (by decide) r.C) 12 (by decide) r.D
  buf.toList.take 16

/-- The loop of `get_md5sum` over what the `fread`s return, up to the first that
returns nothing. -/
def readLoop (ctx : Md5Context) : List (List UInt8) → Md5Context
  | [] => ctx
  | buffer :: later => if buffer = [] then ctx else readLoop (md5Write ctx buffer) later

/-- A file that opens: what each `fread` returns, and `ferror` behind them. -/
structure FileReads where
  freads : List (List UInt8)
  ferror : Bool

/-- `get_md5sum`: what it writes to `result`, if it gets to it. `buf` is the
buffer of its context, which nothing initialises. -/
def getMd5sum (buf : Vector UInt8 64) (fopen : Option FileReads) : Option (List UInt8) :=
  match fopen with
  | none => none
  | some fp =>
      let ctx := readLoop (md5Init buf) fp.freads
      if fp.ferror then none else some (md5Final ctx)

end GwWeb.Md5sum
