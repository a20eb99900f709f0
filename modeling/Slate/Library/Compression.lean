import Slate.Library.Executions
import Slate.Library.Versions

/-! Input streams over byte strings, and what a program that compresses relies on of the
library that does it. -/

namespace Slate.Library

/-- What is left to read, and the two flags that reading sets. -/
structure InputStream where
  rest : Bytes
  eof : Bool := false
  fail : Bool := false
deriving Repr, DecidableEq

namespace InputStream

def good (src : InputStream) : Bool := !src.eof && !src.fail

/-- The bytes read are as many as the stream counts, which may be fewer than asked for. -/
def read (src : InputStream) (size : Nat) : Bytes × InputStream :=
  if src.good then
    if size ≤ src.rest.length then (src.rest.take size, { src with rest := src.rest.drop size })
    else (src.rest, { rest := [], eof := true, fail := true })
  else ([], { src with fail := true })

/-- One byte, or the one that was there before if there is none to read. -/
def get (src : InputStream) (before : UInt8) : UInt8 × InputStream :=
  if src.good then
    match src.rest with
    | [] => (before, { rest := [], eof := true, fail := true })
    | byte :: rest => (byte, { src with rest })
  else (before, { src with fail := true })

/-- A seek from where the stream is. One past the end fails without reaching the end. -/
def seekForward (src : InputStream) (offset : Nat) : InputStream :=
  if src.fail then src
  else if offset ≤ src.rest.length then { rest := src.rest.drop offset }
  else { src with eof := false, fail := true }

/-- Reading past some bytes. Ones that are missing are no failure, only the end. -/
def ignore (src : InputStream) (count : Nat) : InputStream :=
  if src.good then
    if count ≤ src.rest.length then { src with rest := src.rest.drop count }
    else { rest := [], eof := true, fail := false }
  else { src with fail := true }

variable {rest : Bytes} {size : Nat} {src : InputStream}

@[simp] theorem read_enough (enough : size ≤ rest.length) :
    InputStream.read ⟨rest, false, false⟩ size = (rest.take size, ⟨rest.drop size, false, false⟩) := by
  simp [read, good, enough]

@[simp] theorem read_short (short : rest.length < size) :
    InputStream.read ⟨rest, false, false⟩ size = (rest, ⟨[], true, true⟩) := by
  simp [read, good, Nat.not_le.mpr short]

@[simp] theorem read_failed (failed : src.fail = true) : src.read size = ([], { src with fail := true }) := by
  simp [read, good, failed]

@[simp] theorem get_failed (failed : src.fail = true) (before : UInt8) :
    src.get before = (before, { src with fail := true }) := by
  simp [get, good, failed]

@[simp] theorem get_empty (before : UInt8) : InputStream.get ⟨[], false, false⟩ before = (before, ⟨[], true, true⟩) := rfl

@[simp] theorem get_cons (byte before : UInt8) :
    InputStream.get ⟨byte :: rest, false, false⟩ before = (byte, ⟨rest, false, false⟩) := rfl

end InputStream

/-- A format of compressed streams: what the beginning of a stream decodes to, and
which byte strings are whole streams. -/
structure StreamFormat where
  decoded : Bytes → Bytes
  Whole : Bytes → Prop
  decoded_nil : decoded [] = []
  whole_nil : ¬ Whole []
  decoded_mono : ∀ {first longer}, first <+: longer → decoded first <+: decoded longer
  whole_unique : ∀ {first longer}, Whole first → Whole longer → first <+: longer → first = longer

def zOk : Int := 0

def zStreamEnd : Int := 1

def zStreamError : Int := -2

/-- What a call to zlib did: how much of its input it took and what it put into the room for output. -/
structure Progress (Stream : Type) where
  code : Int
  message : Option String := none
  taken : Nat
  given : Bytes
  stream : Stream

structure Inflater where
  Stream : Type
  inflateInit2 : Int × Stream
  inflate : Stream → Bytes → Nat → Progress Stream

namespace Inflater

/-- The stream after calls that went well, with all they took and all they gave. -/
inductive Reached (zlib : Inflater) : Bytes → Bytes → zlib.Stream → Prop
  | start : Reached zlib [] [] zlib.inflateInit2.2
  | more {taken given : Bytes} {stream : zlib.Stream} {input : Bytes} {room : Nat} :
    Reached zlib taken given stream → (zlib.inflate stream input room).code = zOk →
    Reached zlib (taken ++ input.take (zlib.inflate stream input room).taken)
      (given ++ (zlib.inflate stream input room).given) (zlib.inflate stream input room).stream

/-- The end is reported again, and nothing is taken. -/
def Finished (zlib : Inflater) (stream : zlib.Stream) : Prop :=
  ∀ input room, (zlib.inflate stream input room).code = zStreamEnd ∧ (zlib.inflate stream input room).taken = 0 ∧
    (zlib.inflate stream input room).given = [] ∧ (zlib.inflate stream input room).stream = stream

/-- Documented behaviour of inflate. A call decodes as much as its input and its room allow,
reports the end with the last byte of a stream, and fails on the beginning of a stream
only when there is nothing to do. -/
structure Inflates (zlib : Inflater) (format : StreamFormat) : Prop where
  initialized : zlib.inflateInit2.1 = zOk
  takes : ∀ stream input room, (zlib.inflate stream input room).taken ≤ input.length
  fits : ∀ stream input room, (zlib.inflate stream input room).given.length ≤ room
  codes : ∀ stream input room, 0 ≤ (zlib.inflate stream input room).code →
    (zlib.inflate stream input room).code = zOk ∨ (zlib.inflate stream input room).code = zStreamEnd
  progresses : ∀ {taken given stream input room}, zlib.Reached taken given stream →
    (zlib.inflate stream input room).code = zOk →
    0 < (zlib.inflate stream input room).taken ∨ (zlib.inflate stream input room).given ≠ []
  decodes : ∀ {taken given stream input room}, zlib.Reached taken given stream →
    (zlib.inflate stream input room).code = zOk →
    given ++ (zlib.inflate stream input room).given <+:
      format.decoded (taken ++ input.take (zlib.inflate stream input room).taken)
  fully : ∀ {taken given stream input room}, zlib.Reached taken given stream →
    (zlib.inflate stream input room).code = zOk →
    ((zlib.inflate stream input room).given.length = room ∧
      given ++ (zlib.inflate stream input room).given ≠ format.decoded (taken ++ input)) ∨
    ((zlib.inflate stream input room).taken = input.length ∧
      given ++ (zlib.inflate stream input room).given = format.decoded (taken ++ input))
  stops : ∀ {taken given stream input room whole}, zlib.Reached taken given stream →
    (zlib.inflate stream input room).code = zOk → format.Whole whole →
    whole <+: taken ++ input.take (zlib.inflate stream input room).taken →
    whole = taken ++ input.take (zlib.inflate stream input room).taken ∧
      given ++ (zlib.inflate stream input room).given ≠ format.decoded whole
  ends : ∀ {taken given stream input room}, zlib.Reached taken given stream →
    (zlib.inflate stream input room).code = zStreamEnd →
    format.Whole (taken ++ input.take (zlib.inflate stream input room).taken) ∧
    given ++ (zlib.inflate stream input room).given =
      format.decoded (taken ++ input.take (zlib.inflate stream input room).taken) ∧
    zlib.Finished (zlib.inflate stream input room).stream
  fails : ∀ {taken given stream input room whole}, zlib.Reached taken given stream → 0 < room →
    (zlib.inflate stream input room).code < 0 → format.Whole whole → taken <+: whole →
    (taken ++ input <+: whole ∨ whole <+: taken ++ input) →
    input = [] ∧ given = format.decoded taken ∧ taken ≠ whole

namespace Inflates

variable {zlib : Inflater} {format : StreamFormat} {taken given : Bytes} {stream : zlib.Stream}

/-- With nothing left to take or to give, a stream that is not whole gets no answer but an error. -/
theorem fails_idle (inflates : zlib.Inflates format) (reached : zlib.Reached taken given stream)
    (all : given = format.decoded taken) (unended : ¬ format.Whole taken) (room : Nat) :
    (zlib.inflate stream [] room).code < 0 := by
  by_contra nonneg
  rcases inflates.codes stream [] room (by omega) with ok | ended
  · have none : (zlib.inflate stream [] room).given = [] := by
      have decoded := inflates.decodes reached ok
      rw [List.take_nil, List.append_nil, ← all] at decoded
      have longer := decoded.length_le
      rw [List.length_append] at longer
      exact List.eq_nil_of_length_eq_zero (by omega)
    rcases inflates.progresses reached ok with took | gave
    · have bound := inflates.takes stream [] room
      rw [List.length_nil] at bound
      omega
    · exact gave none
  · obtain ⟨whole, -, -⟩ := inflates.ends reached ended
    rw [List.take_nil, List.append_nil] at whole
    exact unended whole

end Inflates
end Inflater

structure Deflater where
  Stream : Type
  deflateInit2 : Int × Stream
  /-- The third argument asks for the end of the stream. -/
  deflate : Stream → Bytes → Bool → Nat → Progress Stream

namespace Deflater

/-- Called with a block of input until it leaves room, then with the next block, and
asked for the end with the first block that is shorter than the others, zlib makes a stream. -/
inductive Makes (zlib : Deflater) (blockSize room : Nat) : zlib.Stream → Bytes → Bool → Bytes → Bytes → Prop
  | full {stream : zlib.Stream} {input rest made : Bytes} {finish : Bool} :
    (zlib.deflate stream input finish room).code ≠ zStreamError →
    (zlib.deflate stream input finish room).given.length = room →
    Makes zlib blockSize room (zlib.deflate stream input finish room).stream
      (input.drop (zlib.deflate stream input finish room).taken) finish rest made →
    Makes zlib blockSize room stream input finish rest ((zlib.deflate stream input finish room).given ++ made)
  | next {stream : zlib.Stream} {input rest made : Bytes} :
    (zlib.deflate stream input false room).code ≠ zStreamError →
    (zlib.deflate stream input false room).given.length ≠ room →
    Makes zlib blockSize room (zlib.deflate stream input false room).stream (rest.take blockSize)
      (decide (rest.length < blockSize)) (rest.drop blockSize) made →
    Makes zlib blockSize room stream input false rest ((zlib.deflate stream input false room).given ++ made)
  | last {stream : zlib.Stream} {input rest : Bytes} :
    (zlib.deflate stream input true room).code ≠ zStreamError →
    (zlib.deflate stream input true room).given.length ≠ room →
    Makes zlib blockSize room stream input true rest (zlib.deflate stream input true room).given

/-- Zlib makes the stream of a byte string that is read in blocks. -/
def Compresses (zlib : Deflater) (blockSize room : Nat) (source made : Bytes) : Prop :=
  zlib.deflateInit2.1 = zOk ∧ Makes zlib blockSize room zlib.deflateInit2.2 (source.take blockSize)
    (decide (source.length < blockSize)) (source.drop blockSize) made

end Deflater
end Slate.Library
