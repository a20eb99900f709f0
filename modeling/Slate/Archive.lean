import Slate.Library.Compression

/-! Compression and decompression of the archives that hold charts. Calls to zlib are
parameters; reading, the header, the buffers and the loops are those of the server. -/

namespace Slate
open Library Execution

def fhcrcMask : UInt8 := 0x2

def fextraMask : UInt8 := 0x4

def fnameMask : UInt8 := 0x8

def fcommentMask : UInt8 := 0x10

/-- What the two variables that names and comments are read into hold beforehand. -/
structure Dummies where
  name : UInt8
  comment : UInt8

/-- Characters are read until one is zero. A read that fails leaves the last one there. -/
def skipText (src : InputStream) (dummy : UInt8) : Execution String InputStream :=
  loop (fun ((src, dummy) : InputStream × UInt8) =>
    let (dummy, src) := src.get dummy
    pure (if dummy ≠ 0 then .again (src, dummy) else .done src)) (src, dummy)

def skipExtra (src : InputStream) : Execution String InputStream :=
  let (xlenRaw, src) := src.read 2
  if src.eof || src.fail then throws "Invalid gzip header"
  else match xlenRaw with
    | [low, high] => pure (src.seekForward (low.toNat ||| high.toNat <<< 8))
    | _ => throws "Invalid gzip header"

def skipField (dummy : UInt8) (src : InputStream) : Execution String InputStream := do
  let src ← skipText src dummy
  if src.eof || src.fail then throws "Invalid gzip header" else pure src

/-- The checksum is not checked. -/
def skipChecksum (src : InputStream) : Execution String InputStream :=
  let (_, src) := src.read 2
  if src.eof || src.fail then throws "Invalid gzip header" else pure src

/-- A field is there to skip when its flag is set. -/
def skipFlagged (flg mask : UInt8) (skip : InputStream → Execution String InputStream) (src : InputStream) :
    Execution String InputStream :=
  if flg &&& mask ≠ 0 then skip src else pure src

def gzipHeader (dummies : Dummies) (src : InputStream) : Execution String InputStream :=
  let (id, src) := src.read 2
  if src.eof || src.fail || id != [0x1F, 0x8B] then throws "Invalid gzip header" else
  let (cm, src) := src.get 0
  if src.eof || src.fail || cm != 0x08 then throws "Unsupported gzip compression method" else
  let (flg, src) := src.get 0
  if src.eof || src.fail then throws "Invalid gzip header" else
  let (_mtime, src) := src.read 4
  if src.eof || src.fail then throws "Invalid gzip header" else
  let (_xfl, src) := src.get 0
  if src.eof || src.fail then throws "Invalid gzip header" else
  let (_os, src) := src.get 0
  if src.eof || src.fail then throws "Invalid gzip header" else do
  let src ← skipFlagged flg fextraMask skipExtra src
  let src ← skipFlagged flg fnameMask (skipField dummies.name) src
  let src ← skipFlagged flg fcommentMask (skipField dummies.comment) src
  skipFlagged flg fhcrcMask skipChecksum src

def readBlockSize : Nat := 1024

def decompSize : Nat := 1032 * readBlockSize

/-- Collects input until the buffer is full or the end of the file was met. -/
def refill (src : InputStream) (input : Bytes) : Execution String (InputStream × Bytes) :=
  loop (fun ((src, input) : InputStream × Bytes) =>
    if input.length < readBlockSize && !src.eof then
      let (block, src) := src.read (readBlockSize - input.length)
      pure (.again (src, input ++ block))
    else pure (.done (src, input))) (src, input)

/-- More is read only when all of the input was taken. -/
def nextInput (src : InputStream) (input : Bytes) : Execution String (InputStream × Bytes) :=
  if input.isEmpty then refill src input else pure (src, input)

def decompressionError (code : Int) (message : Option String) : String :=
  s!"Zlib decompression error: {code}" ++ match message with
    | some message => s!" ({message})"
    | none => ""

structure Inflation (zlib : Inflater) where
  stream : zlib.Stream
  input : Bytes
  dest : Bytes
  result : Int := zOk

def Inflation.after {zlib : Inflater} (zs : Inflation zlib) (step : Progress zlib.Stream) : Inflation zlib :=
  ⟨step.stream, zs.input.drop step.taken, zs.dest ++ step.given, step.code⟩

/-- Calls inflate until it leaves room in the buffer. -/
def inflateInput (zlib : Inflater) (zs : Inflation zlib) : Execution String (Inflation zlib) :=
  loop (fun zs =>
    let step := zlib.inflate zs.stream zs.input decompSize
    if step.code < zOk then throws (decompressionError step.code step.message)
    else pure (if step.given.length = decompSize then .again (zs.after step) else .done (zs.after step))) zs

structure Decompression (zlib : Inflater) where
  src : InputStream
  zs : Inflation zlib
  success : Bool := false

def inflateAll (zlib : Inflater) (state : Decompression zlib) : Execution String (Decompression zlib) :=
  loop (fun (state : Decompression zlib) =>
    if !state.success || !state.src.eof then do
      let (src, input) ← nextInput state.src state.zs.input
      let zs ← inflateInput zlib { state.zs with input }
      pure (.again ⟨src, zs, state.success || zs.result == zStreamEnd⟩)
    else pure (.done state)) state

def inflateBody (zlib : Inflater) (src : InputStream) : Execution String Bytes :=
  let (result, stream) := zlib.inflateInit2
  if result ≠ zOk then throws "Failed to initialize zlib decompression" else do
  let state ← inflateAll zlib ⟨src, ⟨stream, [], [], zOk⟩, false⟩
  if !state.success then throws "Unexpected end of compressed stream" else pure state.zs.dest

def gzipDecompress (zlib : Inflater) (dummies : Dummies) (src : Bytes) : Execution String Bytes := do
  let src ← gzipHeader dummies ⟨src, false, false⟩
  inflateBody zlib src

def crcEntry (n : UInt32) : UInt32 :=
  (List.range 8).foldl (fun (c : UInt32) _ => if c &&& 1 ≠ 0 then (0xedb88320 : UInt32) ^^^ (c >>> 1) else c >>> 1) n

def crcTable : List UInt32 := (List.range 256).map fun n => crcEntry (UInt32.ofNat n)

def updateCRC (crc : UInt32) (buf : Bytes) : UInt32 :=
  let update (c : UInt32) (byte : UInt8) : UInt32 :=
    crcTable[((c ^^^ byte.toUInt32) &&& 0xff).toNat]?.getD 0 ^^^ (c >>> 8)
  buf.foldl update (crc ^^^ 0xffffffff) ^^^ 0xffffffff

def inBlockSize : Nat := 128 * 1024

def outBlockSize : Nat := 129 * 1024

/-- A number as it lies in the memory of a little-endian machine. -/
def written (number : UInt32) : Bytes :=
  [number.toUInt8, (number >>> 8).toUInt8, (number >>> 16).toUInt8, (number >>> 24).toUInt8]

def gzipPreamble : Bytes := [0x1F, 0x8B, 0x08, 0x00, 0, 0, 0, 0, 2, 255]

structure Deflation (zlib : Deflater) where
  stream : zlib.Stream
  input : Bytes
  dest : Bytes

def Deflation.after {zlib : Deflater} (zs : Deflation zlib) (step : Progress zlib.Stream) : Deflation zlib :=
  ⟨step.stream, zs.input.drop step.taken, zs.dest ++ step.given⟩

/-- Calls deflate until it leaves room in the buffer. -/
def deflateInput (zlib : Deflater) (finish : Bool) (zs : Deflation zlib) : Execution String (Deflation zlib) :=
  loop (fun zs =>
    let step := zlib.deflate zs.stream zs.input finish outBlockSize
    if step.code = zStreamError then throws "zlib compression failed"
    else pure (if step.given.length = outBlockSize then .again (zs.after step) else .done (zs.after step))) zs

structure Compression (zlib : Deflater) where
  src : InputStream
  stream : zlib.Stream
  dest : Bytes
  crc : UInt32 := 0
  totalSize : UInt32 := 0

def deflateAll (zlib : Deflater) (state : Compression zlib) : Execution String (Compression zlib) :=
  loop (fun (state : Compression zlib) =>
    let (input, src) := state.src.read inBlockSize
    if src.fail && !src.eof then throws "Input stream failure" else do
    let finish := src.eof
    let zs ← deflateInput zlib finish ⟨state.stream, input, state.dest⟩
    let state := ⟨src, zs.stream, zs.dest, updateCRC state.crc input, state.totalSize + UInt32.ofNat input.length⟩
    pure (if finish then .done state else .again state)) state

def gzipCompress (zlib : Deflater) (src : Bytes) : Execution String Bytes :=
  let (result, stream) := zlib.deflateInit2
  if result ≠ zOk then throws "zlib initialization failed" else do
  let state ← deflateAll zlib ⟨⟨src, false, false⟩, stream, gzipPreamble, 0, 0⟩
  pure (state.dest ++ written state.crc ++ written state.totalSize)

end Slate
